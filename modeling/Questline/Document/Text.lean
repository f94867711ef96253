import Questline.Document.Report
import Questline.Json.Parser
import Questline.Json.Printer

/-! # Texts of guards, states, histories and quests

Between two turns a state and the history that led to it are kept as texts, and the quest comes as a
text that its author wrote, as a guard does.

* `Guard.text` and `Guard.ofText?`: a guard as text. `State.text` and `State.ofText?`: a state as
  text. `TurnRecord.historyText` and `TurnRecord.historyOfText?`: a history as text.
  `Quest.ofText?`: the quest of a text, which has to be sound. -/

namespace Questline

namespace Guard

/-- The text of a guard. -/
def text (g : Guard) : String := g.toJson.text

/-- **Reads the text of a guard.** -/
def ofText? (text : String) : Option Guard := (Json.ofDocument? text).bind ofJson?

end Guard

namespace State

/-- The text that a state is kept as. -/
def text (s : State) : String := s.toJson.text

/-- **Reads the text of a state.** -/
def ofText? (text : String) : Option State := (Json.ofDocument? text).bind ofJson?

end State

namespace TurnRecord

/-- The text that a history is kept as. -/
def historyText (history : List TurnRecord) : String := (Json.ofList toJson history).text

/-- **Reads the text of a history**, whole or not at all. -/
def historyOfText? (text : String) : Option (List TurnRecord) :=
  (Json.ofDocument? text).bind (Json.list? ofJson?)

end TurnRecord

namespace Quest

/-- **Reads the text of a quest**, which has to be sound. -/
def ofText? (text : String) : Option Quest :=
  ((Json.ofDocument? text).bind ofJson?).filter fun q => q.check.isNone

end Quest

end Questline
