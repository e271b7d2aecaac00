import Melon.Fiber.ListOfABAFreeId
import Melon.Fiber.ListOfABAFreeIdLayout
import Melon.Fiber.ListOfABAFreeIdTheorems
import Melon.Raft.LogIndex
import Melon.Raft.MemoryLog
import Melon.Raft.MemoryLogTheorems
import Melon.Raft.BallotBox
import Melon.Raft.BallotBoxTheorems
import Melon.Container.BoundedQueue
import Melon.Container.BoundedQueueTheorems
import Melon.Container.BoundedQueueBounds
import Melon.Rpc.HttpMessage
import Melon.Rpc.HttpMessageTheorems
import Melon.Base.ExtendedEndPoint
import Melon.Base.ExtendedEndPointTheorems
import Melon.Base.Libc
import Melon.Base.EndPoint
import Melon.Base.EndPointTheorems
import Melon.Base.LibcTheorems
import Melon.Base.EndPointTextTheorems
import Melon.Var.Combiner
import Melon.Var.CombinerTheorems
import Melon.Raft.FileSegData
import Melon.Raft.FileSegDataTheorems
import Melon.Builtin.FlagsService
import Melon.Builtin.FlagsServiceTheorems
import Melon.Rpc.HttpHeader
import Melon.Rpc.HttpHeaderTheorems
import Melon.Rpc.HttpSerialize
import Melon.Rpc.HttpSerializeTheorems
import Melon.Var.AgentGroup
import Melon.Var.AgentGroupTheorems
import Melon.Naming.SnsNamingClient
import Melon.Naming.SnsNamingClientTheorems
import Melon.Utility.ComlogLayout
import Melon.Utility.ComlogLayoutTheorems
import Melon.Naming.ListNamingService
import Melon.Naming.ListNamingServiceTheorems
import Melon.Naming.ConsulNamingService
import Melon.Naming.ConsulNamingServiceTheorems
import Melon.Naming.SnsPeriodicRenew
import Melon.Naming.SnsPeriodicRenewTheorems
import Melon.Naming.SnsNamingParams
import Melon.Naming.SnsNamingParamsTheorems
import Melon.Var.AgentGroupTls
import Melon.Var.AgentGroupTlsTheorems
import Melon.Metrics.Collector
import Melon.Metrics.CollectorTheorems
import Melon.Var.CounterRecorder
import Melon.Var.CounterRecorderTheorems
import Melon.Utility.TempFile
import Melon.Utility.TempFileTheorems
import Melon.Base.Rotl
