import Elise.Anytls.Billing
import Elise.Anytls.Framing
import Elise.Anytls.Padding
import Elise.Anytls.Session
import Elise.Anytls.Tick
import Elise.Anytls.Worker
import Elise.Config.Global
import Elise.Conn.Copying
import Elise.Conn.HostHeader
import Elise.Conn.ProxyProtocol
import Elise.Conn.Relay
import Elise.Conn.RoundTrip
import Elise.Conn.Segmentation
import Elise.Conn.ServerName
import Elise.Conn.Sniffer
import Elise.Conn.Strict
import Elise.Conn.UdpRelay
import Elise.Defrag.Push
import Elise.Defrag.Recovery
import Elise.Defrag.Runs
import Elise.Defrag.Table
import Elise.Dns.Hits
import Elise.Dns.Resolver
import Elise.Dns.Response
import Elise.Dns.Rules
import Elise.Dns.Stale
import Elise.Dns.Wire
import Elise.Geo.Dat
import Elise.Geo.Fields
import Elise.Geo.Lookup
import Elise.Geo.Scan
import Elise.Geo.Totality
import Elise.Http.Keeping
import Elise.Http.Target
import Elise.Hysteria.Gecko
import Elise.Hysteria.Huffman
import Elise.Hysteria.HuffmanTable
import Elise.Hysteria.Obfs
import Elise.Hysteria.Qpack
import Elise.Hysteria.QpackSafe
import Elise.Hysteria.Udp
import Elise.Inbound.ClientAddr
import Elise.Inbound.Requests
import Elise.Inbound.Sniffed
import Elise.Inbound.Spelled
import Elise.Inbound.UdpAudit
import Elise.Lib.Ascii
import Elise.Lib.AssocMap
import Elise.Lib.Authority
import Elise.Lib.BitPlaces
import Elise.Lib.BlockTree
import Elise.Lib.Budget
import Elise.Lib.ByteStream
import Elise.Lib.Calendar
import Elise.Lib.Checked
import Elise.Lib.Decoder
import Elise.Lib.FirstMatch
import Elise.Lib.FrameReader
import Elise.Lib.HostText
import Elise.Lib.Json
import Elise.Lib.LetterCase
import Elise.Lib.Lines
import Elise.Lib.Logged
import Elise.Lib.Net
import Elise.Lib.Poll
import Elise.Lib.PrefixCode
import Elise.Lib.Protobuf
import Elise.Lib.Redis
import Elise.Lib.Run
import Elise.Lib.Search
import Elise.Lib.Serving
import Elise.Lib.TableCipher
import Elise.Lib.Text
import Elise.Lib.Wire
import Elise.Limiter.Admission
import Elise.Limiter.Connection
import Elise.Limiter.Device
import Elise.Limiter.DeviceRedis
import Elise.Limiter.Rate
import Elise.Mieru.Encapsulated
import Elise.Mieru.Frame
import Elise.Mieru.LowEntropy
import Elise.Mieru.Ordered
import Elise.Mieru.Transports
import Elise.Mieru.Udp
import Elise.Mieru.Users
import Elise.Naive.Channel
import Elise.Panel.Client
import Elise.Panel.Users
import Elise.Proxy.Billing
import Elise.Proxy.Delivery
import Elise.Proxy.Durability
import Elise.Proxy.OwnDevices
import Elise.Proxy.Report
import Elise.Proxy.Sync
import Elise.Proxy.TrafficBuffer
import Elise.Router.Constraints
import Elise.Router.HttpConnect
import Elise.Router.LetterCase
import Elise.Router.Mapped
import Elise.Router.Outbound
import Elise.Router.PanelRoutes
import Elise.Router.Routes
import Elise.Router.UdpOutbound
import Elise.Security.Admission
import Elise.Security.Audit
import Elise.Security.Fallback
import Elise.Security.LetterCase
import Elise.Shadowsocks.Aead
import Elise.Shadowsocks.Attribution
import Elise.Shadowsocks.Channel
import Elise.Shadowsocks.Exact
import Elise.Shadowsocks.Handshake
import Elise.Shadowsocks.Hint
import Elise.Shadowsocks.HintStream
import Elise.Shadowsocks.Keys
import Elise.Shadowsocks.Mux
import Elise.Shadowsocks.Replay
import Elise.Shadowsocks.ShadowTls
import Elise.Shadowsocks.Udp
import Elise.Shadowsocks.Users
import Elise.Shadowsocksr.Replay
import Elise.Shadowsocksr.Stream
import Elise.Socks.Udp
import Elise.Transport.Camouflage
import Elise.Transport.Chunked
import Elise.Transport.ChunkedWrites
import Elise.Transport.Grpc
import Elise.Transport.H2Writers
import Elise.Transport.HostPolicy
import Elise.Transport.Hunks
import Elise.Transport.Lossless
import Elise.Transport.Malformed
import Elise.Transport.RequestHead
import Elise.Transport.ResponseHead
import Elise.Transport.WebSocket
import Elise.Transport.XHttp
import Elise.Trojan.Billing
import Elise.Tuic.Address
import Elise.Vless.ContextHash
import Elise.Vless.Header
import Elise.Vless.Mux
import Elise.Vless.MuxRuns
import Elise.Vless.Policy
import Elise.Vless.Record
import Elise.Vless.Tickets
import Elise.Vless.Xor
import Elise.Vmess.Chunk
import Elise.Vmess.Header
import Elise.Vmess.OneUse
import Elise.Vmess.RoundTrip
