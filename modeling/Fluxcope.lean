import Fluxcope.Library.Run
import Fluxcope.Capture.BodyWorkSpec
import Fluxcope.Capture.FeedRuns
import Fluxcope.Capture.Redundant
import Fluxcope.Capture.StoreRuns
import Fluxcope.Control.BodyPagesSpec
import Fluxcope.Control.BodyReadsSpec
import Fluxcope.Control.SearchSpec
import Fluxcope.Control.WaitSpec
import Fluxcope.Mapping.ScanSpec
import Fluxcope.Mapping.ValidationSpec
import Fluxcope.Settings.MutationSpec
import Fluxcope.Settings.RequestPolicy
import Fluxcope.Settings.App
import Fluxcope.Settings.TransactionInvariants
import Fluxcope.Settings.PreviewSpec
import Fluxcope.Settings.LoadSettings
import Fluxcope.Settings.Gates
import Fluxcope.Settings.LostUpdates
import Fluxcope.Control.FindExtractSpec
import Fluxcope.Control.AuditSpec
import Fluxcope.Requests.RequestTreeSpec
import Fluxcope.Requests.RequestSearchSpec
import Fluxcope.Mcp.StdioSpec
import Fluxcope.Library.Utf8Chars
import Fluxcope.Library.Cancellation
import Fluxcope.Library.Kmp
import Fluxcope.Capture.DecodeText
import Fluxcope.Capture.BodyPrefix
import Fluxcope.Control.CaptureQuerySpec
import Fluxcope.Settings.PresetLookup
import Fluxcope.Capture.FormatFormSpec
import Fluxcope.Control.FormValuesSpec
import Fluxcope.Control.BodySearchSpec
import Fluxcope.Control.ProbeJsonSpec
import Fluxcope.Control.ProbeAnswerSpec
import Fluxcope.Mcp.StdioLines
import Fluxcope.Mcp.StdioLinesSpec
import Fluxcope.Logging.FormatRecord
import Fluxcope.Settings.DefaultPort
import Fluxcope.Capture.MetadataSpec
import Fluxcope.Capture.DecodeContentSpec
import Fluxcope.ControlRpc.Framing
import Fluxcope.ControlRpc.FramingSpec
import Fluxcope.Library.Spans
import Fluxcope.Requests.SearchMatcher
import Fluxcope.Requests.SearchMatcherSpec
import Fluxcope.Requests.EditingRollback
import Fluxcope.Library.Digits
import Fluxcope.Library.SocketAddr
import Fluxcope.Library.Base64Url
import Fluxcope.Instance.RunId
import Fluxcope.Capture.PrefixCharge
import Fluxcope.Library.JsonCursor
import Fluxcope.Control.JsonPathSpec
import Fluxcope.Library.Text
import Fluxcope.Library.Segmentation
import Fluxcope.TextInput.State
import Fluxcope.TextInput.StateSpec
import Fluxcope.Library.LongestPrefix
import Fluxcope.Ui.TerminalText
import Fluxcope.Ui.TerminalTextSpec
import Fluxcope.Library.SerdeJson
import Fluxcope.ControlRpc.MappingWire
import Fluxcope.ControlRpc.MappingWireSpec
import Fluxcope.Popup.State
import Fluxcope.Popup.Proxy
import Fluxcope.Popup.Fields
import Fluxcope.Popup.Events
import Fluxcope.Popup.ProxySpec
import Fluxcope.Popup.EditsSpec
import Fluxcope.Popup.IndexSpec
import Fluxcope.Control.ProbeCountsSpec
import Fluxcope.Control.FindCountsSpec
import Fluxcope.Control.ProbeTruncationSpec
import Fluxcope.Library.Channel
import Fluxcope.Proxy.BodyPump
import Fluxcope.Proxy.BodyPumpSpec
import Fluxcope.Library.Shares
import Fluxcope.Capture.Liveness
import Fluxcope.Capture.Admission
import Fluxcope.Capture.Sides
import Fluxcope.Proxy.Handler
import Fluxcope.Proxy.HandlerSpec
import Fluxcope.Proxy.Ownership
import Fluxcope.Proxy.OwnershipRuns
import Fluxcope.Proxy.Bodies
import Fluxcope.Proxy.BodyRuns
import Fluxcope.Proxy.Recorded
import Fluxcope.Library.Rotation
import Fluxcope.Logging.ServiceSpec
import Fluxcope.Capture.DecodeService
import Fluxcope.Capture.DecodeServed
import Fluxcope.Control.SelectionUriSpec
