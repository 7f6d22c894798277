import CraftIp.Infra.Bytes
import CraftIp.Infra.Codec
import CraftIp.Infra.Reader
import CraftIp.Infra.Utf16
import CraftIp.Infra.Leb128
import CraftIp.Infra.BaseX
import CraftIp.Infra.Machine
import CraftIp.Infra.Simulation
import CraftIp.Infra.Progress
import CraftIp.Infra.Busy
import CraftIp.Infra.Pipes
import CraftIp.Infra.Path
import CraftIp.Infra.Table
import CraftIp.Infra.Total
import CraftIp.Shared.Datatypes
import CraftIp.Shared.Cursor
import CraftIp.Shared.Minecraft
import CraftIp.Shared.Proxy
import CraftIp.Shared.SocketPacket
import CraftIp.Shared.PacketCodec
import CraftIp.Shared.Checked
import CraftIp.Shared.Addressing
import CraftIp.Shared.Crypto
import CraftIp.Server.ProcessSocket
import CraftIp.Server.ProxyHandler
import CraftIp.Server.ClientHandler
import CraftIp.Client.Client
import CraftIp.Client.ConnectionHandler
import CraftIp.Gui.Main
import CraftIp.Gui.Backend
import CraftIp.Client.Connect
import CraftIp.Tunnel
import CraftIp.Flow
import CraftIp.Framed
import CraftIp.Login
import CraftIp.Host
import CraftIp.Deployment
import CraftIp.Hosting
import CraftIp.Spec.Readers
import CraftIp.Spec.FirstPacket
import CraftIp.Spec.Parts
import CraftIp.Spec.Varint
import CraftIp.Spec.Hello
import CraftIp.Spec.Header
import CraftIp.Properties.Varint
import CraftIp.Properties.Framing
import CraftIp.Properties.Decoding
import CraftIp.Properties.Splitting
import CraftIp.Properties.Progress
import CraftIp.Properties.HelloSize
import CraftIp.Properties.Stream
import CraftIp.Properties.Segmentation
import CraftIp.Properties.ProxyHello
import CraftIp.Properties.Forwarding
import CraftIp.Properties.Handshake
import CraftIp.Properties.Legacy
import CraftIp.Properties.NoPanic
import CraftIp.Properties.Waiting
import CraftIp.Properties.Hostname
import CraftIp.Properties.Authentication
import CraftIp.Properties.Registration
import CraftIp.Properties.ServerSpeech
import CraftIp.Properties.Greeting
import CraftIp.Properties.Login
import CraftIp.Properties.LoginProgress
import CraftIp.Properties.Routing
import CraftIp.Properties.Distribution
import CraftIp.Properties.Session
import CraftIp.Properties.Refusal
import CraftIp.Properties.Departure
import CraftIp.Properties.LocalEnd
import CraftIp.Properties.Connections
import CraftIp.Properties.Statistics
import CraftIp.Properties.Shutdown
import CraftIp.Properties.Tunnel
import CraftIp.Properties.Upstream
import CraftIp.Properties.CrossTalk
import CraftIp.Properties.AtRest
import CraftIp.Properties.Downstream
import CraftIp.Properties.Transport
import CraftIp.Properties.Drained
import CraftIp.Properties.Flow
import CraftIp.Properties.Delivery
import CraftIp.Properties.Stall
import CraftIp.Properties.Hosting
import CraftIp.Properties.Ping
import CraftIp.Properties.Socket
import CraftIp.Properties.EndToEnd
import CraftIp.Properties.Host
import CraftIp.Properties.Isolation
import CraftIp.Properties.Abandoned
import CraftIp.Properties.Deployment
import CraftIp.Properties.Players
import CraftIp.Properties.Controller
import CraftIp.Properties.Panels
import CraftIp.Properties.Admission
