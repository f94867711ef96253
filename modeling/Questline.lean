import Questline.Document.Report
import Questline.Document.Text
import Questline.Json.Parser
import Questline.Json.Printer
import Questline.Json.RoundTrip
import Questline.Settings.Toml
import Questline.Proofs.GameId
import Questline.Proofs.Quest.Books
import Questline.Proofs.Quest.Choice
import Questline.Proofs.Quest.Drift
import Questline.Proofs.Quest.Frontier
import Questline.Proofs.Quest.Place
import Questline.Proofs.Quest.Position
import Questline.Proofs.Quest.Replay
import Questline.Proofs.Quest.Saves
import Questline.Proofs.Quest.Spelling
import Questline.Proofs.Quest.Standstill
import Questline.Proofs.State.FlagKeys
import Questline.Proofs.State.Reports
import Questline.Proofs.State.Saved
import Questline.Proofs.Quest.Retries
import Questline.Proofs.Decimal.Printed
import Questline.Proofs.Json.Reread
import Questline.Proofs.Quest.History
import Questline.Proofs.Guard.FlagPath
import Questline.Proofs.Guard.Kinds
import Questline.Proofs.Guard.Thresholds
import Questline.Proofs.Quest.LastWrites
import Questline.Proofs.State.Shown
import Questline.Proofs.Guard.Recorded
import Questline.Proofs.State.Visible
import Questline.Proofs.Quest.Candidates
import Questline.Proofs.Quest.Diagnosis
import Questline.Proofs.Guard.Cut
import Questline.Proofs.Guard.Grammar
import Questline.Proofs.Quest.Gating
import Questline.Proofs.Guard.Laws
import Questline.Proofs.Quest.Fingerprint
import Questline.Proofs.Quest.Soundness
import Questline.Proofs.State.Reread
import Questline.Proofs.Draw
