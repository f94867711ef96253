import Questline.Document.Quest
import Questline.Draw
import Questline.Json.Printer

/-! # Fingerprints of quests

Two quests with one content have one fingerprint: the hash of the quest as a JSON text in which the
keys of every object are in order.

* `Quest.canonicalText`: that text. `Quest.fingerprint`: its hash as eight hexadecimal digits. -/

namespace Questline

namespace Quest

/-- **The text of a quest** with the keys of every object in order. -/
def canonicalText (q : Quest) : String := q.toJson.sortKeys.text

/-- **The fingerprint of a quest:** the hash of its text, as eight digits. -/
def fingerprint (q : Quest) : String :=
  String.ofList (Hex.digits 8 (Draw.hash q.canonicalText).toNat)

end Quest

end Questline
