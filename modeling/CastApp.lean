import CastApp.Cast.Namespaces
import CastApp.Cast.TaskExit
import CastApp.Cast.ReconnectPolicy
import CastApp.Cast.DiscoverySnapshots
import CastApp.Cast.Codec
import CastApp.Cast.RequestCycle
import CastApp.Cast.ReaderDelivery
import CastApp.Cast.LaunchIds
import CastApp.Cast.MediaChannel
import CastApp.Cast.SessionIsolation
import CastApp.Cast.ShutdownSeen
import CastApp.Cast.PendingLoad
import CastApp.Runtime.StreamUrl
import CastApp.Runtime.ShutdownObservers
import CastApp.Cast.SessionEffect
import CastApp.Cast.Reader
import CastApp.Cast.RequestId
import CastApp.Cast.Responses
import CastApp.Cast.UnknownFields
import CastApp.Util.Retry
import CastApp.Util.Shutdown
import CastApp.Util.SplitOn
import CastApp.Verified.EventLoop
import CastApp.Verified.LastWrite
import CastApp.Verified.Ends
import CastApp.Screen.StreamIntegrity
import CastApp.Screen.RawFrames
import CastApp.Media.Connections
import CastApp.Media.LiveSlot
import CastApp.Media.Rebinding
import CastApp.Screen.BoxStream
import CastApp.Screen.ReadBoundaries
import CastApp.Screen.Pipewire
import CastApp.Cast.Tofu
import CastApp.Media.LanIp
import CastApp.Runtime.CommandEffect
import CastApp.Runtime.WildcardConsent
import CastApp.Runtime.VolumeMirror
import CastApp.Screen.PortalSession
import CastApp.Media.HeadRequest
import CastApp.Gui.Mirror
import CastApp.Cast.Dns
import CastApp.Cast.DnsNames
import CastApp.Cast.Rdata
import CastApp.Cast.DiscoveryExpiry
import CastApp.Cast.Correlate
import CastApp.Media.RangeGrammar
import CastApp.Media.ServedBytes
import CastApp.Media.Extension
import CastApp.Runtime.ContentTypes
import CastApp.Cast.VarintExact
import CastApp.Util.BackoffDelays
import CastApp.Util.QueueHistory
import CastApp.Gui.Slider
import CastApp.Verified.Streak
import CastApp.Screen.CaptureFailures
import CastApp.Media.FlushBound
import CastApp.Media.RequestHead
import CastApp.Verified.Droppable
import CastApp.Media.ShareHandle
import CastApp.Gui.UrlEntry
import CastApp.Cast.DiscoveredReceivers
import CastApp.Media.Download
import CastApp.Media.StreamedBody
import CastApp.Cast.Timers
import CastApp.Gui.UserRequests
import CastApp.Cast.Wire
import CastApp.Cast.Heard
import CastApp.Screen.Ffmpeg
