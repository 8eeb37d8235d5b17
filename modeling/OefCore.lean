import OefCore.Library.Framing
import OefCore.Library.Memory
import OefCore.Library.Circular
import OefCore.Library.Runs
import OefCore.Basic.MachineInt
import OefCore.BasicComms.ConstCharArrayBuffer
import OefCore.BasicComms.CharArrayBuffer
import OefCore.BasicComms.IMessage
import OefCore.Comms.ProtoMessageReader
import OefCore.Comms.ProtoMessageSender
import OefCore.Comms.Reception
import OefCore.Comms.EndiannessDetection
import OefCore.BasicComms.RingBuffer
import OefCore.BasicComms.EndpointBase
import OefCore.Comms.ReceivePath
import OefCore.Comms.SendPath
import OefCore.Comms.CloseNotification
import OefCore.CppUtils.BucketsOf
import OefCore.Karma.IKarmaPolicy
import OefCore.Karma.KarmaPolicyBasic
import OefCore.Karma.KarmaPolicy
import OefCore.Agents.Agents
import OefCore.Tasks.OefUri
import OefCore.Protos.Agent
import OefCore.Comms.MtCore
import OefCore.OefFunctions.InitialHandshakeTaskFactory
import OefCore.Tasks.AgentToAgentMessageTask
import OefCore.OefFunctions.OefFunctionsTaskFactory
import OefCore.Library.Fallible
import OefCore.Comms.OefAgentEndpoint
import OefCore.Comms.CleanUp
import OefCore.Library.Directory
import OefCore.Agents.Sessions
import OefCore.Agents.Provenance
import OefCore.Agents.Outcomes
import OefCore.Comms.HandlerFrames
import OefCore.Library.LastPosition
import OefCore.Conversations.OutboundSearchConversation
import OefCore.Conversations.Routing
import OefCore.Threading.Taskpool
import OefCore.Threading.TaskpoolRun
import OefCore.Tasks.TNonBlockingWorkerTask
import OefCore.Threading.WakeUps
import OefCore.Threading.Notification
import OefCore.Tasks.TSendProtoTask
import OefCore.Tasks.BackPressure
import OefCore.Threading.Conservation
import OefCore.Threading.TwoWorkers
import OefCore.Threading.GroupCancellation
import OefCore.Comms.TaskGroups
import OefCore.Conversations.OutboundSearchWorker
import OefCore.Protos.Search
import OefCore.Tasks.StateMachineTask
import OefCore.Conversations.ProtoPathMessageReader
import OefCore.Conversations.SearchQueryTask
import OefCore.Conversations.QueryAnswers
import OefCore.Karma.KarmaRun
import OefCore.Karma.EagerRefresh
import OefCore.OefFunctions.Login
import OefCore.Library.PartialReads
import OefCore.BasicComms.Endpoint
import OefCore.BasicComms.EndpointWebSocket
import OefCore.Library.BoundedQueue
import OefCore.BasicComms.RingQueue
import OefCore.Library.WorstCase
import OefCore.Karma.PerformOutcome
import OefCore.Karma.RefreshArithmetic
import OefCore.Tasks.Destinations
import OefCore.Threading.Taskpools
import OefCore.Threading.PoolMutex
import OefCore.Threading.SubmitTruth
import OefCore.Secure.PublicKeyUtils
import OefCore.OefFunctions.InitialSslHandshakeTaskFactory
import OefCore.Library.Interleaving
import OefCore.BasicComms.EndpointCalls
import OefCore.BasicComms.OneTransfer
import OefCore.Conversations.ProtoPathMessageSender
import OefCore.Conversations.PathReception
import OefCore.Tasks.UriRoundTrip
import OefCore.Library.PaddedReads
import OefCore.BasicComms.TypedValues
import OefCore.Library.PriorityQueue
import OefCore.Threading.DelayedTasks
import OefCore.Threading.SleepingWorkers
import OefCore.Tasks.StateMachineRun
import OefCore.Tasks.WorkLedger
import OefCore.Tasks.NonBlockingRun
import OefCore.Tasks.TWorkerTask
import OefCore.Threading.NotificationBuilders
import OefCore.Comms.Heartbeats
import OefCore.BasicComms.Listener
import OefCore.CppUtils.BucketIdentities
import OefCore.CppUtils.Uri
import OefCore.CppUtils.UriGrammar
import OefCore.Library.Ceiling
import OefCore.Library.Formula
import OefCore.Protos.Query
import OefCore.Schema.Builders
import OefCore.Schema.InstanceEquality
import OefCore.Schema.QueryMeaning
import OefCore.Schema.Schemas
import OefCore.Comms.MessageBatches
import OefCore.Comms.ReleasedFactory
import OefCore.SearchClient.OefSearchClient
import OefCore.Library.Segments
import OefCore.Library.Comparator
import OefCore.Tasks.Splitting
import OefCore.Threading.FutureTaskOrdering
import OefCore.Karma.Tokenise
import OefCore.CoreServer.CoreServer
import OefCore.CoreServer.LoginSafety
import OefCore.CoreServer.SessionTraffic
import OefCore.CoreServer.RequestAnswers
import OefCore.Library.ExactReads
import OefCore.CoreServer.AsioComm
import OefCore.CoreServer.SearchWire
import OefCore.Conversations.SearchConversationTask
import OefCore.Conversations.ConversationOutcomes
import OefCore.Status.PrometheusNames
import OefCore.Status.Monitoring
import OefCore.Library.Filling
import OefCore.Ledger.Encoders
import OefCore.Ledger.EncodedTexts
import OefCore.Library.HashTree
import OefCore.Ledger.MerkleTree
import OefCore.Library.SharedArrays
import OefCore.Ledger.ByteArrays
import OefCore.Ledger.ByteArrayMemory
import OefCore.Ledger.ByteArrayValues
