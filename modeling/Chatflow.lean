import Chatflow.Command.Machine
import Chatflow.Http.Api
import Chatflow.Main
import Chatflow.Proofs.Plan
import Chatflow.Proofs.SlotWalk
import Chatflow.Proofs.Cycle
import Chatflow.Proofs.Placement
import Chatflow.Proofs.Diagnostics
import Chatflow.Proofs.Session
import Chatflow.Proofs.Tally
import Chatflow.Proofs.DistinctIds
import Chatflow.Proofs.StepIds
import Chatflow.Proofs.Faults
import Chatflow.Proofs.Reachable
import Chatflow.Proofs.OutOfSight
import Chatflow.Proofs.Written
import Chatflow.Proofs.FreshIds
import Chatflow.Proofs.StepLimit
import Chatflow.Proofs.Policies
import Chatflow.Proofs.Json.Scanning
import Chatflow.Proofs.Json.Reading
import Chatflow.Proofs.WholeDoubles
import Chatflow.Proofs.InPlace
import Chatflow.Proofs.Json.Decoding
import Chatflow.Proofs.SavedText
import Chatflow.Proofs.Server
import Chatflow.Proofs.Reload
import Chatflow.Proofs.Saving
import Chatflow.Proofs.Import
import Chatflow.Proofs.Revisions
import Chatflow.Proofs.LocalEdits
import Chatflow.Proofs.Interleaving
import Chatflow.Proofs.Rewording
import Chatflow.Proofs.Lockstep
import Chatflow.Proofs.Rendering
import Chatflow.Proofs.Undo
import Chatflow.Proofs.Outline
import Chatflow.Proofs.OutlineLines
import Chatflow.Proofs.Forms
import Chatflow.Proofs.Json.Grammar
import Chatflow.Proofs.Json.Syntax
import Chatflow.Proofs.Exports
import Chatflow.Proofs.Renaming
import Chatflow.Proofs.Origins
