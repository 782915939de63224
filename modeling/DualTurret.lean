import DualTurret.Machine.Storage
import DualTurret.Viewer.Window
import DualTurret.Proofs.Partition
import DualTurret.Proofs.Balance
import DualTurret.Proofs.Errors
import DualTurret.Proofs.Isolation
import DualTurret.Proofs.Handshake
import DualTurret.Proofs.Extension
import DualTurret.Proofs.ModeNotes
import DualTurret.Proofs.Comments
import DualTurret.Proofs.SingleTurret
import DualTurret.Proofs.Block.Spacing
import DualTurret.Proofs.WorkbenchCalls
import DualTurret.Proofs.Spacing
import DualTurret.Proofs.Limits
import DualTurret.Proofs.Decoration
import DualTurret.Proofs.Safety
import DualTurret.Proofs.Symmetry
import DualTurret.Proofs.Storage
import DualTurret.Proofs.Block.Tokens
import DualTurret.Proofs.StepFrame
import DualTurret.Proofs.LineViews
import DualTurret.Proofs.Loading
import DualTurret.Proofs.Release
import DualTurret.Proofs.Block.Words
import DualTurret.Proofs.WaitHistory
import DualTurret.Proofs.SpindleSpeed
import DualTurret.Proofs.Number.Places
import DualTurret.Proofs.Block.Places
import DualTurret.Proofs.FeedRate
import DualTurret.Proofs.Block.NormalForm
import DualTurret.Proofs.Block.Markers
import DualTurret.Proofs.Block.WaitChoice
import DualTurret.Proofs.Block.GCodes
import DualTurret.Proofs.Number.FixedText
import DualTurret.Proofs.Scan.Wording
import DualTurret.Proofs.Viewer.Display
import DualTurret.Proofs.Viewer.Events
