/-! # Settings

The limits by which a game counts as stuck. -/

namespace Questline

/-- The limits by which a game counts as stuck. -/
structure Settings where
  /-- So many turns without progress are too many; zero switches the rule off. -/
  maxStuckTurns : UInt64
  /-- So many failures in a row are too many. -/
  maxRetries : UInt32
  /-- The resources that must not run out. -/
  criticalResources : List String
  /-- The status of an objective that is done. -/
  completedStatus : String
deriving DecidableEq

namespace Settings

/-- The settings where nothing is set. -/
def standard : Settings := ⟨5, 3, ["health", "mana", "stamina"], "complete"⟩

instance : Inhabited Settings := ⟨standard⟩

end Settings

end Questline
