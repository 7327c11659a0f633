import SsnIpc.Lib.ByteMem
import SsnIpc.Lib.Framing
import SsnIpc.Lib.Restart
import SsnIpc.Lib.Runs
import SsnIpc.Lib.Lists
import SsnIpc.Lib.Dll
import SsnIpc.Lib.Buckets
import SsnIpc.Lib.BucketMap
import SsnIpc.Lib.Bitmap
import SsnIpc.Lib.Ledger
import SsnIpc.Lib.CString
import SsnIpc.Transport
import SsnIpc.Frame.Header
import SsnIpc.Frame.Stream
import SsnIpc.Frame.Reference
import SsnIpc.Frame.Refinement
import SsnIpc.Frame.Connection
import SsnIpc.Frame.Send
import SsnIpc.Frame.RoundTrip
import SsnIpc.ListMacros
import SsnIpc.Server.Router
import SsnIpc.Server.RouterRefinement
import SsnIpc.Server.State
import SsnIpc.Server.Input
import SsnIpc.Server.Table
import SsnIpc.Server.Answers
import SsnIpc.Server.Subscriptions
import SsnIpc.Server.ConnectHandler
import SsnIpc.Server.Dispatch
import SsnIpc.Server.Timers
import SsnIpc.Server.IdleTimer
import SsnIpc.Server.Options
import SsnIpc.Server.TimerList
import SsnIpc.Server.Poll
import SsnIpc.Server.CliTable
import SsnIpc.Server.SendBuffer
import SsnIpc.Transport.Address
import SsnIpc.Transport.Grammar
import SsnIpc.Transport.SunPath
import SsnIpc.Server.Start
import SsnIpc.Client.State
import SsnIpc.Client.Ops
import SsnIpc.Client.Steps
import SsnIpc.Client.Connections
import SsnIpc.Client.OpenSocket
import SsnIpc.Client.Publish
import SsnIpc.Client.Pending
import SsnIpc.Client.Requests
import SsnIpc.Client.PoolSteps
import SsnIpc.Client.Exchange
import SsnIpc.Client.Wraparound
import SsnIpc.Client.Reconnect
import SsnIpc.Client.AutoReconnect
import SsnIpc.Node.Peers
import SsnIpc.Framework.Json
import SsnIpc.Framework.CallJson
import SsnIpc.Layers.Objects
import SsnIpc.Layers.ClientCalls
import SsnIpc.Layers.ClientLocks
import SsnIpc.Layers.ServerCalls
import SsnIpc.Layers.NodeCalls
import SsnIpc.Layers.Agreement
import SsnIpc.Layers.Locks
import SsnIpc.Layers.AutoCalls
import SsnIpc.Layers.LockOrder
import SsnIpc.Layers.Lifetime
import SsnIpc.Layers.NodeLife
import SsnIpc.Layers.Destroy
import SsnIpc.Node.Lifecycle
import SsnIpc.Client.SendTimeout
import SsnIpc.Client.Reentrant
import SsnIpc.Client.Slots
import SsnIpc.Client.Once
import SsnIpc.Client.Sections
import SsnIpc.Client.Countdown
import SsnIpc.Client.PingFlag
import SsnIpc.Client.Malformed
import SsnIpc.Client.Subscribe
import SsnIpc.Client.AutoReports
import SsnIpc.Client.AutoClient
import SsnIpc.Framework.Service
import SsnIpc.Framework.Replies
import SsnIpc.Framework.Subscribe
import SsnIpc.Framework.Builtins
import SsnIpc.Node.Limits
import SsnIpc.Node.Comm
import SsnIpc.Node.PeerCheck
import SsnIpc.System.Unsendable
import SsnIpc.System.Subscribing
import SsnIpc.Protocol.Rpc
import SsnIpc.Protocol.Deadlines
import SsnIpc.Protocol.Poll
import SsnIpc.Protocol.Seqnos
import SsnIpc.Protocol.Sends
import SsnIpc.Util.HashTable
import SsnIpc.Util.StrKeys
import SsnIpc.Util.PtrKeys
import SsnIpc.Protocol.Registry
import SsnIpc.Protocol.Whole
import SsnIpc.Protocol.Topics
import SsnIpc.Protocol.Rollback
import SsnIpc.Lib.Wire
import SsnIpc.Frame.Wire
import SsnIpc.Client.Writes
import SsnIpc.Client.Callbacks
import SsnIpc.Server.Writes
import SsnIpc.Server.Acks
import SsnIpc.System.Network
import SsnIpc.System.Replies
import SsnIpc.System.Publications
import SsnIpc.System.Handshake
import SsnIpc.Lib.Owners
import SsnIpc.Transport.Sockets
import SsnIpc.Transport.Adapters
