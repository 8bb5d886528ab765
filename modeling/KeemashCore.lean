import KeemashCore.Mesh.Arrivals
import KeemashCore.Mesh.Sender
import KeemashCore.SelectiveRepeat.Loss
import KeemashCore.SelectiveRepeat.Window
import KeemashCore.Mesh.CommandCache
import KeemashCore.OtaReceiver.Exclusion
import KeemashCore.OtaV3.Abort
import KeemashCore.KeeLink.TlvWriter
import KeemashCore.Mesh.LegacyCommand
import KeemashCore.Mesh.Termination
import KeemashCore.Mesh.EventOutboxFifo
import KeemashCore.Mesh.TxBrokerOrder
import KeemashCore.WeeklySchedule.Staging
import KeemashCore.WeeklySchedule.Convergence
import KeemashCore.WeeklySchedule.Persistence
import KeemashCore.OtaV3.Chunking
import KeemashCore.OtaV3.TransferIsolation
import KeemashCore.OtaV3.PrepareFaults
import KeemashCore.SlotTable.Quota
import KeemashCore.Mesh.Updates
import KeemashCore.Mesh.Packet
import KeemashCore.Mesh.Runs
import KeemashCore.Mesh.Quotas
import KeemashCore.Mesh.Submit
import KeemashCore.Mesh.Agreement
import KeemashCore.Mesh.Rejection
import KeemashCore.Mesh.Bounds
import KeemashCore.Mesh.Idle
import KeemashCore.Mesh.ForwardRuns
import KeemashCore.OtaV3.PackageTiling
import KeemashCore.KeeLink.ArtifactSound
import KeemashCore.KeeLink.RoundTrip
import KeemashCore.Mesh.Retries
import KeemashCore.Mesh.OtaLink
import KeemashCore.Mesh.DeliveryBounds
import KeemashCore.Mesh.Rto
import KeemashCore.KeeLink.ResumeCursors
import KeemashCore.OtaV3.Overwrite
import KeemashCore.OtaV3.Positions
import KeemashCore.OtaV3.Healthy
import KeemashCore.Mesh.PendingUnion
import KeemashCore.Mesh.Validators
import KeemashCore.Mesh.Time
import KeemashCore.Mesh.PendingTime
import KeemashCore.Mesh.ControlWire
import KeemashCore.Mesh.CommandReplay
import KeemashCore.Mesh.EventKeys
import KeemashCore.Mesh.Burst
import KeemashCore.Mesh.Handoffs
import KeemashCore.Mesh.SideTables
import KeemashCore.Mesh.Quiescence
import KeemashCore.Mesh.LossReports
import KeemashCore.Mesh.TunnelSessions
import KeemashCore.Mesh.PingTurns
import KeemashCore.Mesh.LogAccount
import KeemashCore.KeeLink.BuiltOnDevice
