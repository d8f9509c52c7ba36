import CloudPing.Conc.Chan
import CloudPing.Conc.System
import CloudPing.Raw.Tracker
import CloudPing.Raw.TrackerAccounting
import CloudPing.Raw.TrackerShutdown
import CloudPing.Raw.TrackerEvents
import CloudPing.Pinger.PacketCount
import CloudPing.Pinger.CrossedWait
import CloudPing.Pinger.BlockScanner
import CloudPing.Pinger.ScanAccounting
import CloudPing.Pinger.TCPSYNPinger
import CloudPing.Pinger.ServiceWait
import CloudPing.Handler.ConnHandler
import CloudPing.Handler.IdleTimer
import CloudPing.Httpprobe.Events
import CloudPing.Httpprobe.SendRequest
import CloudPing.Httpprobe.LoggerClose
import CloudPing.Raw.Parser
import CloudPing.Raw.ICMP
import CloudPing.Raw.WireIdentity
import CloudPing.Auth.Jwt
import CloudPing.Handler.Login
import CloudPing.Cli.WebProxy
import CloudPing.Conc.SlidingLog
import CloudPing.Ratelimit.SlidingWindow
import CloudPing.Nodereg.ConnRegistry
import CloudPing.Utils.Addr
import CloudPing.Handler.PingTask
import CloudPing.Handler.DenyPolicy
import CloudPing.Handler.ClampBounds
import CloudPing.Handler.HandleMessage
import CloudPing.Nodereg.ControlStream
import CloudPing.Handler.PingHandler
import CloudPing.Handler.ProbeRange
import CloudPing.Pinger.SYNCount
import CloudPing.Handler.CountClamp
import CloudPing.Pinger.TimeoutWait
import CloudPing.Pinger.ScanProgress
import CloudPing.Pinger.RateLimitIO
import CloudPing.Pinger.LostTracker
import CloudPing.Pinger.SocketRelease
import CloudPing.Pinger.ScanRelease
import CloudPing.Handler.CapabilityRouting
import CloudPing.Handler.ProbeLedger
import CloudPing.Trie.Prefix
import CloudPing.Web.IPAddr
import CloudPing.Web.LongestPrefix
import CloudPing.Handler.EventMerge
import CloudPing.Handler.MergeRun
import CloudPing.Pinger.Enrichment
import CloudPing.Pinger.SYNShutdown
import CloudPing.Tcping.EventIntegrity
import CloudPing.Pinger.SYNCompleteness
import CloudPing.Json.Token
import CloudPing.Json.Value
import CloudPing.Utils.Parse
import CloudPing.Json.Struct
import CloudPing.Pinger.TargetJSON
import CloudPing.Pinger.RequestCodec
import CloudPing.Pinger.RelayFidelity
import CloudPing.Inet.ParseAddr
import CloudPing.Btree.Tree
import CloudPing.Utils.IPNet
import CloudPing.Interval.Merge
import CloudPing.Routing.SimpleRouter
import CloudPing.Utils.IPRange
import CloudPing.Utils.Offset
import CloudPing.Bitmap.Heatmap
import CloudPing.Bot.ProbeHandler
import CloudPing.Ipinfo.Cache
import CloudPing.Ipinfo.CacheUpdates
import CloudPing.Bot.Conversation
import CloudPing.Safemap.SafeMap
import CloudPing.Ratelimit.TokenPool
import CloudPing.Ratelimit.Limiter
import CloudPing.Inet.HostPort
import CloudPing.Utils.CustomResolver
import CloudPing.Handler.ResolverGate
import CloudPing.Wire.LineScanner
import CloudPing.Handler.RemotePing
import CloudPing.Bot.EventsSource
import CloudPing.Utils.RangeLoop
import CloudPing.Utils.IntGrammar
import CloudPing.Httpprobe.BodyCapture
import CloudPing.Ipinfo.MMDBReload
import CloudPing.Nodereg.Isolation
import CloudPing.Pinger.SharedTTL
import CloudPing.Utils.SubnetCover
import CloudPing.Pinger.OutputEvents
import CloudPing.Tui.PingEvent
import CloudPing.Tui.EventConverters
import CloudPing.Ecma.OrderedMap
import CloudPing.Sorting.Sorter
import CloudPing.Tui.Traceroute
import CloudPing.Web.TraceStats
import CloudPing.Tui.TraceAgreement
import CloudPing.Utils.MemberAddrs
import CloudPing.Inet.FormatAddr
import CloudPing.Utils.OffsetInverse
import CloudPing.Bitmap.Geometry
import CloudPing.Tcping.RoundTrip
import CloudPing.Tcping.Send
import CloudPing.Inet.AddrText
import CloudPing.Inet.URL
import CloudPing.Inet.AddrPort
import CloudPing.Inet.LiteralHost
import CloudPing.Dnsprobe.ServerAddr
import CloudPing.Dnsprobe.GateAgreement
import CloudPing.Dnsprobe.LookupDNS
import CloudPing.Raw.PacketSize
import CloudPing.Tui.MatrixReport
import CloudPing.Ecma.TransformStream
import CloudPing.Html.Text
import CloudPing.Oidc.Caches
import CloudPing.Routing.Reachable
import CloudPing.Table.Alignment
import CloudPing.Table.HTMLTable
import CloudPing.Table.Truncation
import CloudPing.Tui.HopsShown
import CloudPing.Web.LineTokenizer
import CloudPing.Web.Streams
import CloudPing.Ecma.Record
import CloudPing.Rpc.Responder
import CloudPing.Tcping.FlowKeys
import CloudPing.Web.AddrBits
import CloudPing.Web.IPQuery
import CloudPing.Web.MRTEntries
import CloudPing.Ecma.CodeUnits
import CloudPing.Ecma.URLSearchParams
import CloudPing.Handler.AgentProtocol
import CloudPing.Handler.EventLines
import CloudPing.Pinger.ScanCoverage
import CloudPing.Proxy.IPQueryDirectory
import CloudPing.Web.EventDelivery
import CloudPing.Web.IPQueryDelivery
import CloudPing.Cli.LoginBinding
import CloudPing.Bot.ProbeDelivery
import CloudPing.Rpc.RemoteCall
