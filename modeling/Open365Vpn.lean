import Open365Vpn.Lib.Runs
import Open365Vpn.Lib.KotlinText
import Open365Vpn.Nodes
import Open365Vpn.Api
import Open365Vpn.Lemmas.NodeList
import Open365Vpn.Lemmas.Operations
import Open365Vpn.Theorems.Store
import Open365Vpn.Origin
import Open365Vpn.Theorems.Origin
import Open365Vpn.Background
import Open365Vpn.Lemmas.Background
import Open365Vpn.Theorems.LostUpdate
import Open365Vpn.Lib.Slots
import Open365Vpn.Service
import Open365Vpn.Theorems.Credentials
import Open365Vpn.Lemmas.Service
import Open365Vpn.Theorems.Resources
import Open365Vpn.Probe
import Open365Vpn.Theorems.ExitInfo
import Open365Vpn.Theorems.LastStart
import Open365Vpn.Lib.Merging
import Open365Vpn.Theorems.Sync
import Open365Vpn.Latency
import Open365Vpn.Theorems.FailedSync
import Open365Vpn.Theorems.Latency
import Open365Vpn.Lemmas.Uri
import Open365Vpn.Theorems.Rename
import Open365Vpn.Theorems.Layout
import Open365Vpn.Theorems.ParseNode
import Open365Vpn.Decrypt
import Open365Vpn.Theorems.Polling
import Open365Vpn.Theorems.Truncated
import Open365Vpn.Theorems.DeadTunnel
import Open365Vpn.Screen
import Open365Vpn.Theorems.Highlight
import Open365Vpn.Keys
import Open365Vpn.Theorems.Keys
import Open365Vpn.Lib.TextLines
import Open365Vpn.Encrypt
import Open365Vpn.Theorems.Blocks
import Open365Vpn.Theorems.Import
import Open365Vpn.Lib.Ring
import Open365Vpn.Tunnel.RingBuffer
import Open365Vpn.Tunnel.TcpSession
import Open365Vpn.Lemmas.TcpSession
import Open365Vpn.Theorems.TcpStreams
import Open365Vpn.Lib.RedBlack
import Open365Vpn.Tunnel.RbTree
import Open365Vpn.Theorems.RbTree
import Open365Vpn.Lib.Lru
import Open365Vpn.Tunnel.Octets
import Open365Vpn.Tunnel.MappedDns
import Open365Vpn.Lemmas.MappedDns
import Open365Vpn.Lemmas.DnsMessages
import Open365Vpn.Theorems.MappedDns
import Open365Vpn.Lib.Duplex
import Open365Vpn.Tunnel.Socks5
import Open365Vpn.Lemmas.Socks5
import Open365Vpn.Theorems.Socks5
import Open365Vpn.Tunnel.UdpSession
import Open365Vpn.Theorems.UdpFrames
import Open365Vpn.Theorems.UdpSession
import Open365Vpn.Tunnel.Native
import Open365Vpn.Lemmas.Native
import Open365Vpn.Theorems.Native
import Open365Vpn.Tunnel.TaskMutex
import Open365Vpn.Theorems.TaskMutex
import Open365Vpn.Tunnel.TaskSystem
import Open365Vpn.Theorems.TaskSystem
