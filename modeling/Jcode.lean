import Jcode.Foundation.Run
import Jcode.Foundation.PrefixCursor
import Jcode.Foundation.LineLog
import Jcode.Message
import Jcode.Storage
import Jcode.Compaction.Core
import Jcode.Compaction.Manager
import Jcode.Compaction.Runs
import Jcode.Compaction.Coverage
import Jcode.Compaction.Rewind
import Jcode.Swarm.Mutation
import Jcode.Swarm.MutationRuns
import Jcode.Swarm.MutationOnce
import Jcode.Swarm.MutationWaiters
import Jcode.Swarm.Member
import Jcode.Swarm.Plan
import Jcode.Swarm.Assignment
import Jcode.Swarm.AssignNext
import Jcode.Swarm.AssignNextReady
import Jcode.Swarm.TaskControl
import Jcode.Swarm.TaskRuns
import Jcode.Swarm.TaskOwners
import Jcode.Swarm.TaskOwnership
import Jcode.Foundation.Codec
import Jcode.Swarm.Persistence
import Jcode.Swarm.PersistenceLatest
import Jcode.Session.Model
import Jcode.Session.Persistence
import Jcode.Session.Files
import Jcode.Session.Tracking
import Jcode.Session.RoundTrip
import Jcode.Session.Crash
import Jcode.Session.TornTail
import Jcode.Storage.Replace
import Jcode.Swarm.Coordinator
import Jcode.Swarm.PlanProposals
import Jcode.Swarm.PlanIds
import Jcode.Swarm.Approval
import Jcode.Swarm.AwaitMembers
import Jcode.Swarm.AwaitWaiters
import Jcode.Swarm.AwaitAnswers
import Jcode.Session.SoftInterrupts
import Jcode.Session.InterruptDelivery
import Jcode.Swarm.CompletedTasks
import Jcode.Swarm.DependencyGate
import Jcode.Compaction.ToolPairs
import Jcode.Compaction.ToolClosure
import Jcode.Foundation.EdgeIndex
import Jcode.Memory.Graph
import Jcode.Memory.Removal
import Jcode.Memory.Consistency
import Jcode.Memory.TagCounts
import Jcode.Memory.WellFormed
import Jcode.Memory.EdgeCalls
import Jcode.Memory.KeepsInStep
import Jcode.Swarm.PersistenceApart
import Jcode.Compaction.Accounting
import Jcode.Provider.OpenAiRequest
import Jcode.Provider.OpenAiCollect
import Jcode.Provider.OpenAiAnswers
import Jcode.Provider.OpenAiPairing
import Jcode.Provider.OpenAiConservation
import Jcode.Foundation.Channel
import Jcode.Foundation.Splice
import Jcode.Foundation.SplitFirst
import Jcode.Foundation.Frames
import Jcode.Foundation.PullStream
import Jcode.Foundation.Utf8
import Jcode.Provider.StreamEvent
import Jcode.Provider.Sse
import Jcode.Provider.OpenRouterSse
import Jcode.Provider.OpenAiSse
import Jcode.Provider.Retries
import Jcode.Provider.AnthropicSse
import Jcode.Provider.SseChunks
import Jcode.Agent.TurnStream
import Jcode.Agent.RetriedStream
import Jcode.Agent.OneAttempt
import Jcode.Agent.StreamingTurn
import Jcode.Agent.ClientText
import Jcode.Agent.ContextLimit
import Jcode.Agent.TurnLoops
import Jcode.Agent.ContextLimitAnswers
import Jcode.Foundation.MergeRuns
import Jcode.Provider.AnthropicRequest
import Jcode.Provider.AnthropicPairing
import Jcode.Provider.AnthropicCache
import Jcode.Foundation.LinkedFile
import Jcode.Ambient.Lock
import Jcode.Ambient.ScheduledQueue
import Jcode.Ambient.QueueRuns
import Jcode.Ambient.Status
import Jcode.Foundation.Records
import Jcode.Background.Task
import Jcode.Background.Manager
import Jcode.Background.Finished
import Jcode.Background.LiveTasks
import Jcode.Background.Announcements
import Jcode.SelfDev.BuildRequest
import Jcode.SelfDev.BuildQueue
import Jcode.SelfDev.Copies
import Jcode.SelfDev.KeepsPlace
import Jcode.SelfDev.OneBuild
import Jcode.Mcp.Protocol
import Jcode.Mcp.Requests
import Jcode.Mcp.Pairing
import Jcode.Mcp.Pool
import Jcode.Mcp.Attempts
import Jcode.Mcp.Waiters
import Jcode.Mcp.PoolViews
import Jcode.Safety.Permissions
import Jcode.Tool.ApplyPatch
import Jcode.Tool.Replacements
import Jcode.Tool.UntouchedText
import Jcode.Tool.ParseApplyPatch
import Jcode.Tool.UpdateSections
import Jcode.Tool.UnifiedDiff
import Jcode.Tool.DiffMismatch
import Jcode.Tool.DiffFormat
import Jcode.Tool.DiffApplied
import Jcode.Import.ClaudeCode
import Jcode.Import.External
import Jcode.Import.Resume
import Jcode.Provider.OpenRouterRequest
import Jcode.Provider.OpenRouterPasses
import Jcode.Provider.OpenRouterPairing
import Jcode.Compaction.Cutoff
import Jcode.Compaction.Restart
import Jcode.Compaction.EmergencyTruncation
import Jcode.Compaction.Prompt
import Jcode.Foundation.Occurrences
import Jcode.Tool.Edit
import Jcode.Agent.ToolRepair
import Jcode.Session.MemoryStats
import Jcode.Foundation.HashChain
import Jcode.Session.Caches
import Jcode.Session.ProviderCache
import Jcode.Session.MemoryProfile
import Jcode.Agent.CacheTracker
import Jcode.Foundation.Release
import Jcode.Swarm.PlanCycles
import Jcode.Swarm.PlanProgress
import Jcode.Foundation.PrunedMap
import Jcode.Swarm.ChannelIndex
import Jcode.Swarm.MemberRecovery
import Jcode.Foundation.CharBytes
import Jcode.Session.Search
import Jcode.Session.SearchSnippet
import Jcode.Session.SearchPrefilter
import Jcode.Foundation.EachAfter
import Jcode.Provider.OpenRouterCalls
import Jcode.Provider.OpenRouterReassembly
import Jcode.Foundation.Interleave
import Jcode.Provider.OpenAiCallPaths
import Jcode.Foundation.SortedMap
import Jcode.Foundation.BoundedHeap
import Jcode.Memory.Ranking
import Jcode.Tui.WorkspaceMap
import Jcode.Import.ParentOrder
import Jcode.Tool.Read
import Jcode.Agent.TruncatedCalls
import Jcode.Replay.Timeline
import Jcode.Replay.Export
import Jcode.Replay.Faithful
import Jcode.Import.ExternalFiles
import Jcode.Import.ExternalReaders
import Jcode.Import.ReadersAgree
import Jcode.Import.ReaderOrder
import Jcode.Foundation.Regex
import Jcode.Foundation.Pieces
import Jcode.Background.Notification
import Jcode.Background.NotificationText
import Jcode.Background.NotificationHeader
import Jcode.Background.NotificationFields
import Jcode.Background.NotificationSections
import Jcode.Background.NotificationRoundTrip
import Jcode.Foundation.ScoredSearch
import Jcode.Memory.Cascade
import Jcode.Agent.InterruptSignal
import Jcode.Replay.AutoEdit
import Jcode.Foundation.FanOut
import Jcode.Tool.Batch
import Jcode.SidePanel.Pages
import Jcode.Foundation.KeyedList
import Jcode.SidePanel.Documents
import Jcode.Provider.StrictEquivalence
import Jcode.Swarm.FileActivity
import Jcode.Swarm.FileAlerts
import Jcode.Provider.CompatibleSchema
