import ReticulumFirmware.Nor.Script
import ReticulumFirmware.ProductIdentity.Recovery
import ReticulumFirmware.Ota.Activation
import ReticulumFirmware.Ota.RunningSlot
import ReticulumFirmware.Outbox.Runs
import ReticulumFirmware.Chat.InboxRuns
import ReticulumFirmware.Chat.SubmissionRuns
import ReticulumFirmware.Chat.ReopenRuns
import ReticulumFirmware.Settings.ApplianceRuns
import ReticulumFirmware.Settings.ManagementRuns
import ReticulumFirmware.Nomad.LiveLinks
import ReticulumFirmware.Nomad.Correlation
import ReticulumFirmware.Discovery.Paging
import ReticulumFirmware.Chat.Fairness
import ReticulumFirmware.Mailbox.Store
import ReticulumFirmware.Network.History
import ReticulumFirmware.Network.Product
import ReticulumFirmware.Lxmf.MsgpackGrammar
import ReticulumFirmware.Settings.Enrollment
import ReticulumFirmware.ApplianceSync.Reassembly
import ReticulumFirmware.Ota.EspImage
import ReticulumFirmware.Ota.Status
import ReticulumFirmware.Network.Noop
import ReticulumFirmware.Network.RoundTrip
import ReticulumFirmware.LxmfStore.RoundTrip
import ReticulumFirmware.LxmfStore.Read
import ReticulumFirmware.Dns.Query
import ReticulumFirmware.Ota.Wire
import ReticulumFirmware.ProductIdentity.Preflight
import ReticulumFirmware.Chat.Conversations
import ReticulumFirmware.Chat.Paging
import ReticulumFirmware.DeviceApi.RadioTraceEvidence
import ReticulumFirmware.DeviceApi.SkipStrict
import ReticulumFirmware.DeviceApi.RadioTraceBudget
import ReticulumFirmware.Discovery.Projection
import ReticulumFirmware.Lxmf.Compose
import ReticulumFirmware.Lxmf.MsgpackParts
import ReticulumFirmware.Lxmf.SidebandLocation
import ReticulumFirmware.Lxmf.SidebandReading
import ReticulumFirmware.Lxmf.SidebandRoundTrip
import ReticulumFirmware.Lxmf.Wire
import ReticulumFirmware.Lxmf.WireGrammar
import ReticulumFirmware.Lxmf.Stampless
import ReticulumFirmware.Lxmf.ComposeParse
import ReticulumFirmware.Nor.Driver
import ReticulumFirmware.Nor.Partition
import ReticulumFirmware.Lxmf.MsgpackLimits
import ReticulumFirmware.Display.Coordinator
import ReticulumFirmware.Display.CoordinatorRuns
import ReticulumFirmware.Collections.Words
import ReticulumFirmware.Nearby.DisplayName
import ReticulumFirmware.Nearby.SafeNames
import ReticulumFirmware.Nor.Failures
import ReticulumFirmware.LxmfStore.Capacity
import ReticulumFirmware.LxmfStore.FailClosed
import ReticulumFirmware.Nor.Pieces
import ReticulumFirmware.LxmfStore.RecordPieces
import ReticulumFirmware.LxmfStore.Interrupted
import ReticulumFirmware.LxmfStore.FullRecord
import ReticulumFirmware.LxmfStore.Spans
import ReticulumFirmware.LxmfStore.Passing
import ReticulumFirmware.LxmfStore.Reattempts
import ReticulumFirmware.LxmfStore.Restarts
import ReticulumFirmware.LxmfStore.PowerLoss
import ReticulumFirmware.LxmfStore.Reading
import ReticulumFirmware.LxmfStore.Retries
import ReticulumFirmware.LxmfStore.FirstArrival
import ReticulumFirmware.LxmfStore.Chunks
import ReticulumFirmware.Nor.Replace
import ReticulumFirmware.Mailbox.Sector
import ReticulumFirmware.Mailbox.Writing
import ReticulumFirmware.Mailbox.Calls
import ReticulumFirmware.Mailbox.Runs
import ReticulumFirmware.LxmfStore.Delivery
import ReticulumFirmware.ProductStore.Watermark
