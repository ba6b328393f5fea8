import Sioxx.Lib.Bytes
import Sioxx.Lib.Query
import Sioxx.Lib.Run
import Sioxx.Lib.Outbox
import Sioxx.Lib.LockTrace
import Sioxx.Lib.LockOrder
import Sioxx.Lib.Pump
import Sioxx.Lib.Blocks
import Sioxx.Lib.Waiting
import Sioxx.Lib.Latest
import Sioxx.Json.Value
import Sioxx.Json.ReferenceText
import Sioxx.Parser.JsonParser
import Sioxx.Parser.Grammar
import Sioxx.Parser.NumberTheorems
import Sioxx.Parser.PlaceholderTheorems
import Sioxx.Parser.JsonParserTheorems
import Sioxx.Parser.StreamTheorems
import Sioxx.Parser.CollisionTheorems
import Sioxx.Parser.ImageTheorems
import Sioxx.Parser.DecoderTheorems
import Sioxx.Parser.MsgpackParser
import Sioxx.Json.ReferenceMsgpack
import Sioxx.Parser.MsgpackTheorems
import Sioxx.Socket.AckScheduler
import Sioxx.Socket.Socket
import Sioxx.Socket.SocketTheorems
import Sioxx.Socket.Machine
import Sioxx.Socket.MachineTheorems
import Sioxx.Socket.TimedAck
import Sioxx.Socket.TimedAckTheorems
import Sioxx.Socket.AckIds
import Sioxx.Socket.AckIdsTheorems
import Sioxx.Socket.SchedulerTheorems
import Sioxx.Socket.OutboxSimulation
import Sioxx.Socket.SendBufferTheorems
import Sioxx.Socket.FlushTheorems
import Sioxx.Socket.DisconnectTheorems
import Sioxx.Socket.DrainTheorems
import Sioxx.Socket.BufferedTheorems
import Sioxx.Socket.Events
import Sioxx.Socket.EventsTheorems
import Sioxx.EngineIO.Client
import Sioxx.EngineIO.Polling
import Sioxx.EngineIO.WebSocket
import Sioxx.EngineIO.PollingTheorems
import Sioxx.EngineIO.Base64Theorems
import Sioxx.EngineIO.Url
import Sioxx.EngineIO.UrlTheorems
import Sioxx.EngineIO.ClientTheorems
import Sioxx.EngineIO.Heartbeat
import Sioxx.EngineIO.HeartbeatTheorems
import Sioxx.EngineIO.HeartbeatTimer
import Sioxx.EngineIO.HeartbeatTimerTheorems
import Sioxx.EngineIO.Closing
import Sioxx.EngineIO.ClosingTheorems
import Sioxx.EngineIO.PollingWrites
import Sioxx.EngineIO.PollingWritesTheorems
import Sioxx.EngineIO.WebSocketWrites
import Sioxx.EngineIO.WebSocketWritesTheorems
import Sioxx.EngineIO.PollingSession
import Sioxx.EngineIO.PollingSessionTheorems
import Sioxx.EngineIO.PollLoop
import Sioxx.EngineIO.PollLoopTheorems
import Sioxx.EngineIO.PollLoopEndTheorems
import Sioxx.EngineIO.EarlySendTheorems
import Sioxx.EngineIO.WebSocketLoop
import Sioxx.EngineIO.WebSocketLoopTheorems
import Sioxx.EngineIO.PollingClose
import Sioxx.EngineIO.PollingCloseTheorems
import Sioxx.EngineIO.Proxy
import Sioxx.EngineIO.ProxyTheorems
import Sioxx.EngineIO.HttpRequest
import Sioxx.EngineIO.HttpRequestTheorems
import Sioxx.EngineIO.WebSocketWire
import Sioxx.EngineIO.SyncClose
import Sioxx.EngineIO.SyncCloseTheorems
import Sioxx.Client.SendPacket
import Sioxx.Client.SendPacketTheorems
import Sioxx.Socket.Emit
import Sioxx.Socket.EmitTheorems
import Sioxx.Client.Dispatch
import Sioxx.Client.DispatchTheorems
import Sioxx.Client.Opening
import Sioxx.Client.EndToEnd
import Sioxx.Client.AckExchange
import Sioxx.Client.AckExchangeTheorems
import Sioxx.Client.Admission
import Sioxx.Client.AdmissionTheorems
import Sioxx.Client.Connections
import Sioxx.Client.ConnectionsTheorems
import Sioxx.Client.Shutdown
import Sioxx.Client.ShutdownTheorems
import Sioxx.Client.CloseErrors
import Sioxx.Client.CloseErrorsTheorems
import Sioxx.Client.Replacement
import Sioxx.Client.ReplacementTheorems
import Sioxx.Client.Backoff
import Sioxx.Client.BackoffTheorems
import Sioxx.Client.Reconnect
import Sioxx.Client.ReconnectTheorems
import Sioxx.Client.ReconnectJoinTheorems
import Sioxx.Client.LockTrace
import Sioxx.Client.LockTraceTheorems
import Sioxx.Client.LockOrderTheorems
