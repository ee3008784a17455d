import ClaudeProxy.Provider.NativeTermination
import ClaudeProxy.Conversion.Adjacency
import ClaudeProxy.Messaging.Busy
import ClaudeProxy.Messaging.Limiter
import ClaudeProxy.Messaging.SessionStore
import ClaudeProxy.Messaging.NodeProcessor
import ClaudeProxy.Service.RequestHash
import ClaudeProxy.Service.Dedup
import ClaudeProxy.Service.Caching
import ClaudeProxy.Messaging.Fifo
import ClaudeProxy.Provider.RateLimit
import ClaudeProxy.Reliability.CircuitBreaker
import ClaudeProxy.Reliability.KeyPool
import ClaudeProxy.Provider.OpenaiArguments
import ClaudeProxy.Provider.OpenaiWellFormed
import ClaudeProxy.WebTools.Outbound
import ClaudeProxy.Sse.NativeFraming
import ClaudeProxy.Sse.Overlap
import ClaudeProxy.Sse.RemovalExact
import ClaudeProxy.Sse.ReusedIndexes
import ClaudeProxy.Cli.SessionManager
import ClaudeProxy.Messaging.NodeIndex
import ClaudeProxy.Messaging.TreePersistence
import ClaudeProxy.Admin.EnvRoundTrip
import ClaudeProxy.Provider.OpenaiPlainText
import ClaudeProxy.Conversion.StringForm
import ClaudeProxy.Reliability.SlidingWindow
import ClaudeProxy.Messaging.LimiterShutdown
import ClaudeProxy.Provider.DeepseekThinking
import ClaudeProxy.Provider.DeepseekBlocks
import ClaudeProxy.Service.ModelRouter
import ClaudeProxy.Messaging.MarkdownTables
import ClaudeProxy.Messaging.TranscriptMarkup
import ClaudeProxy.Provider.NimFaithful
import ClaudeProxy.Recovery.Continuation
import ClaudeProxy.Messaging.SnapshotIndex
import ClaudeProxy.Parsers.HeuristicTermination
import ClaudeProxy.Recovery.HoldbackRuns
import ClaudeProxy.Messaging.MessageLog
import ClaudeProxy.Reliability.KeyRotation
import ClaudeProxy.Reliability.BreakerAutomaton
import ClaudeProxy.Service.LruCache
import ClaudeProxy.Messaging.SubagentNesting
import ClaudeProxy.Parsers.ChunkIndependence
import ClaudeProxy.Service.StickySessions
import ClaudeProxy.Service.AdvertisedModels
import ClaudeProxy.Cli.Session
import ClaudeProxy.Admin.Secrets
import ClaudeProxy.Provider.GeminiSignatures
import ClaudeProxy.Sse.Contract
import ClaudeProxy.WebTools.Streaming
import ClaudeProxy.Reliability.RequestQueue
import ClaudeProxy.Service.Eligibility
import ClaudeProxy.Service.WaitingRoom
