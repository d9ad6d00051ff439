import Kernel4GameServer.Kernel.Logicmgr
import Kernel4GameServer.Kernel.Loop
import Kernel4GameServer.Lib.Chain
import Kernel4GameServer.Lib.DoWhile
import Kernel4GameServer.Lib.Framing
import Kernel4GameServer.Lib.History
import Kernel4GameServer.Lib.KeyedMap
import Kernel4GameServer.Lib.Lcg
import Kernel4GameServer.Lib.LittleEndian
import Kernel4GameServer.Lib.Measure
import Kernel4GameServer.Lib.Mem
import Kernel4GameServer.Lib.NodeList
import Kernel4GameServer.Lib.Reading
import Kernel4GameServer.Lib.Ring
import Kernel4GameServer.Lib.RoundRobin
import Kernel4GameServer.Lib.Run
import Kernel4GameServer.Lib.Transducer
import Kernel4GameServer.Logger.Drain
import Kernel4GameServer.Logger.Handles
import Kernel4GameServer.Logger.Logger
import Kernel4GameServer.Logic.ClientConnectSink
import Kernel4GameServer.Logic.GateBuffer
import Kernel4GameServer.Logic.GateServer
import Kernel4GameServer.Logic.SinkGroups
import Kernel4GameServer.Logic.SinkReads
import Kernel4GameServer.Net.Balancing
import Kernel4GameServer.Net.Epoll.CPipe
import Kernel4GameServer.Net.Epoll.Edge
import Kernel4GameServer.Net.Epoll.Listener
import Kernel4GameServer.Net.Epoll.Pair
import Kernel4GameServer.Net.Epoll.PipeLife
import Kernel4GameServer.Net.Epoll.PipePool
import Kernel4GameServer.Net.Epoll.Processing
import Kernel4GameServer.Net.Epoll.SPipe
import Kernel4GameServer.Net.Epoll.SendPath
import Kernel4GameServer.Net.Epoll.Server
import Kernel4GameServer.Net.Epoll.Shutdown
import Kernel4GameServer.Net.Epoll.Worker
import Kernel4GameServer.Net.Header
import Kernel4GameServer.Net.Iocp.CPipe
import Kernel4GameServer.Net.Iocp.Engine
import Kernel4GameServer.Net.Iocp.Listener
import Kernel4GameServer.Net.Iocp.PipeUse
import Kernel4GameServer.Net.Iocp.Processing
import Kernel4GameServer.Net.Iocp.Threads
import Kernel4GameServer.Proofs.Kernel.Logicmgr
import Kernel4GameServer.Proofs.Kernel.Loop
import Kernel4GameServer.Proofs.Kernel.LoopDrain
import Kernel4GameServer.Proofs.Kernel.LoopSteps
import Kernel4GameServer.Proofs.Logger.Drain
import Kernel4GameServer.Proofs.Logger.Handles
import Kernel4GameServer.Proofs.Logger.LogIntegrity
import Kernel4GameServer.Proofs.Logic.GateBuffer
import Kernel4GameServer.Proofs.Logic.GateServer
import Kernel4GameServer.Proofs.Logic.SinkDrain
import Kernel4GameServer.Proofs.Logic.SinkGroups
import Kernel4GameServer.Proofs.Logic.SinkReads
import Kernel4GameServer.Proofs.Logic.SinkStreams
import Kernel4GameServer.Proofs.Net.Accept
import Kernel4GameServer.Proofs.Net.Balancing
import Kernel4GameServer.Proofs.Net.CPipe
import Kernel4GameServer.Proofs.Net.CallSafety
import Kernel4GameServer.Proofs.Net.ConnectOnce
import Kernel4GameServer.Proofs.Net.ConnectionSteps
import Kernel4GameServer.Proofs.Net.Disconnect
import Kernel4GameServer.Proofs.Net.DrainLoop
import Kernel4GameServer.Proofs.Net.EdgeTurns
import Kernel4GameServer.Proofs.Net.EdgeWaits
import Kernel4GameServer.Proofs.Net.Iocp.Alone
import Kernel4GameServer.Proofs.Net.Iocp.Attended
import Kernel4GameServer.Proofs.Net.Iocp.Callbacks
import Kernel4GameServer.Proofs.Net.Iocp.EngineSteps
import Kernel4GameServer.Proofs.Net.Iocp.Frames
import Kernel4GameServer.Proofs.Net.Iocp.GracefulClose
import Kernel4GameServer.Proofs.Net.Iocp.InFlight
import Kernel4GameServer.Proofs.Net.Iocp.Isolation
import Kernel4GameServer.Proofs.Net.Iocp.Listener
import Kernel4GameServer.Proofs.Net.Iocp.PendingSend
import Kernel4GameServer.Proofs.Net.Iocp.PipeSend
import Kernel4GameServer.Proofs.Net.Iocp.PipeUseSteps
import Kernel4GameServer.Proofs.Net.Iocp.RecvFrames
import Kernel4GameServer.Proofs.Net.Iocp.SendLife
import Kernel4GameServer.Proofs.Net.Iocp.SessionPipes
import Kernel4GameServer.Proofs.Net.Iocp.Threads
import Kernel4GameServer.Proofs.Net.Listener
import Kernel4GameServer.Proofs.Net.NoLostWakeup
import Kernel4GameServer.Proofs.Net.PairDelivery
import Kernel4GameServer.Proofs.Net.PairEnds
import Kernel4GameServer.Proofs.Net.PipeLifeSteps
import Kernel4GameServer.Proofs.Net.Reclaim
import Kernel4GameServer.Proofs.Net.RecvChunking
import Kernel4GameServer.Proofs.Net.SendPath
import Kernel4GameServer.Proofs.Net.ServerDelivery
import Kernel4GameServer.Proofs.Net.ServerReplies
import Kernel4GameServer.Proofs.Net.ServerSteps
import Kernel4GameServer.Proofs.Net.Shutdown
import Kernel4GameServer.Proofs.Net.SilentClose
import Kernel4GameServer.Proofs.Public.CArgs
import Kernel4GameServer.Proofs.Public.CDataObject
import Kernel4GameServer.Proofs.Public.CRand
import Kernel4GameServer.Proofs.Public.LazyDeletion
import Kernel4GameServer.Proofs.Public.TBundler
import Kernel4GameServer.Proofs.Public.TBundlerCall
import Kernel4GameServer.Proofs.Public.TCallBack
import Kernel4GameServer.Proofs.Public.TPool
import Kernel4GameServer.Proofs.Public.TPoolBlocks
import Kernel4GameServer.Proofs.Public.TPoolThreads
import Kernel4GameServer.Proofs.Public.TQueue
import Kernel4GameServer.Proofs.Public.TStream
import Kernel4GameServer.Proofs.Public.TStreamCompact
import Kernel4GameServer.Proofs.Public.TStreamFifo
import Kernel4GameServer.Proofs.Public.TStreamGrowth
import Kernel4GameServer.Proofs.Public.TStreamRange
import Kernel4GameServer.Proofs.Timermgr.Arguments
import Kernel4GameServer.Proofs.Timermgr.FreeClock
import Kernel4GameServer.Proofs.Timermgr.Identity
import Kernel4GameServer.Proofs.Timermgr.Lifecycle
import Kernel4GameServer.Proofs.Timermgr.Nodes
import Kernel4GameServer.Proofs.Timermgr.PlanInv
import Kernel4GameServer.Proofs.Timermgr.Progress
import Kernel4GameServer.Proofs.Timermgr.Refine
import Kernel4GameServer.Proofs.Timermgr.Registry
import Kernel4GameServer.Proofs.Timermgr.Schedule
import Kernel4GameServer.Proofs.Timermgr.ShortIntervals
import Kernel4GameServer.Proofs.Timermgr.Uptime
import Kernel4GameServer.Proofs.Timermgr.Wheel
import Kernel4GameServer.Public.CArgs
import Kernel4GameServer.Public.CData
import Kernel4GameServer.Public.CDataObject
import Kernel4GameServer.Public.CRand
import Kernel4GameServer.Public.CThread
import Kernel4GameServer.Public.TBundler
import Kernel4GameServer.Public.TBundlerCall
import Kernel4GameServer.Public.TCallBack
import Kernel4GameServer.Public.TPool
import Kernel4GameServer.Public.TPoolBlocks
import Kernel4GameServer.Public.TPoolThreads
import Kernel4GameServer.Public.TQueue
import Kernel4GameServer.Public.TStream
import Kernel4GameServer.Public.TStreamCalls
import Kernel4GameServer.Public.TStreamS32
import Kernel4GameServer.Public.TStreamSteps
import Kernel4GameServer.Public.Tools
import Kernel4GameServer.Timermgr.Firing
import Kernel4GameServer.Timermgr.FreeClock
import Kernel4GameServer.Timermgr.Plan
import Kernel4GameServer.Timermgr.Registry
import Kernel4GameServer.Timermgr.Steps
import Kernel4GameServer.Timermgr.Timermgr
