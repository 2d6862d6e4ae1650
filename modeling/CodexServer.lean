import CodexServer.Library.Transition
import CodexServer.Library.Versioned
import CodexServer.Library.Notices
import CodexServer.Library.EventLog
import CodexServer.Library.ExpiringStore
import CodexServer.Library.BoundedQueue
import CodexServer.Library.Program
import CodexServer.Library.ProgramRun
import CodexServer.Library.Fallible
import CodexServer.TurnRow
import CodexServer.TurnService
import CodexServer.ChatEvent
import CodexServer.TurnStream
import CodexServer.Interface
import CodexServer.Ownership
import CodexServer.StreamTurn
import CodexServer.StreamRun
import CodexServer.Runner
import CodexServer.Control
import CodexServer.World
import CodexServer.History
import CodexServer.Cluster
import CodexServer.RateLimit
import CodexServer.Notification
import CodexServer.Translate
import CodexServer.CodexTurn
import CodexServer.Transport
import CodexServer.Telegram
import CodexServer.ExecutionRun
import CodexServer.SessionStore
import CodexServer.TelegramHandler
import CodexServer.RunTurn
import CodexServer.DeliveryRun
import CodexServer.Slots
import CodexServer.Proof.TurnLifecycle
import CodexServer.Proof.TurnTail
import CodexServer.Proof.ClientStream
import CodexServer.Proof.Conduct
import CodexServer.Proof.StreamConduct
import CodexServer.Proof.ExecutionConduct
import CodexServer.Proof.ControlConduct
import CodexServer.Proof.Threads
import CodexServer.Proof.Rows
import CodexServer.Proof.Runs
import CodexServer.Proof.Tokens
import CodexServer.Proof.RowRuns
import CodexServer.Proof.RunningTurn
import CodexServer.Proof.Sole
import CodexServer.Proof.TerminalFrame
import CodexServer.Proof.HeldLease
import CodexServer.Proof.LiveLease
import CodexServer.Proof.PublishedDone
import CodexServer.Proof.PersistedOutcome
import CodexServer.Proof.DeadTurns
import CodexServer.Proof.Orphans
import CodexServer.LeaseListener
import CodexServer.Proof.LeaseListener
import CodexServer.Proof.RateLimit
import CodexServer.Proof.CodexTurn
import CodexServer.Proof.TurnIsolation
import CodexServer.Proof.AgentText
import CodexServer.Proof.Awaits
import CodexServer.Proof.DeliveryRun
import CodexServer.Proof.Slots
import CodexServer.Proof.StreamText
import CodexServer.Proof.Coalescing
import CodexServer.Proof.TelegramHandler
import CodexServer.Outcome
import CodexServer.Proof.Outcome
import CodexServer.Proof.Surfaces
import CodexServer.Proof.Transport
import CodexServer.Proof.Dispatch
import CodexServer.Proof.NotificationQueue
import CodexServer.Proof.Correlation
import CodexServer.Activity
import CodexServer.Proof.Activity
import CodexServer.SessionTasks
import CodexServer.Proof.SessionTasks
import CodexServer.Registration
import CodexServer.Proof.Registration
import CodexServer.TurnCreation
import CodexServer.Proof.TurnCreation
import CodexServer.Seeding
import CodexServer.Proof.Seeding
import CodexServer.Library.Noninterference
import CodexServer.Usage
import CodexServer.Proof.Usage
import CodexServer.Invites
import CodexServer.Proof.Invites
import CodexServer.Library.Markup
import CodexServer.Markdown
import CodexServer.Proof.Markdown
import CodexServer.Chunking
import CodexServer.Proof.Cuts
import CodexServer.Proof.Chunking
import CodexServer.Proof.ValidChunks
import CodexServer.Proof.KeptChunks
import CodexServer.Notes
import CodexServer.Proof.Notes
import CodexServer.Sidebar
import CodexServer.Proof.Sidebar
import CodexServer.Polling
import CodexServer.Proof.Polling
import CodexServer.Redaction
import CodexServer.Library.Splitting
import CodexServer.Library.SafeProgram
import CodexServer.Proof.Redaction
import CodexServer.Proof.ErrorTexts
import CodexServer.Proof.ErrorReplies
import CodexServer.Proof.RedactedRuns
import CodexServer.HourlyLimit
import CodexServer.Proof.HourlyLimit
import CodexServer.RuntimeLimits
import CodexServer.Proof.RuntimeLimits
import CodexServer.CodexPrefs
import CodexServer.Proof.CodexPrefs
import CodexServer.Throttle
import CodexServer.Proof.Throttle
import CodexServer.Uploads
import CodexServer.Proof.Uploads
import CodexServer.SteerCount
import CodexServer.Proof.SteerCount
import CodexServer.IdleBound
import CodexServer.Proof.IdleBound
import CodexServer.FinalPersist
import CodexServer.Proof.FinalPersist
import CodexServer.Library.Hexadecimal
import CodexServer.Library.PercentEncoding
import CodexServer.Library.JsonText
import CodexServer.Vault
import CodexServer.Proof.Vault
import CodexServer.Progress
import CodexServer.Proof.ShownChunks
import CodexServer.Proof.Progress
import CodexServer.WebChat
import CodexServer.Proof.WebChat
import CodexServer.AdminRoles
import CodexServer.Proof.AdminRoles
import CodexServer.Typewriter
import CodexServer.Proof.Typewriter
import CodexServer.MessageList
import CodexServer.Proof.MessageList
import CodexServer.Library.Dictionary
import CodexServer.JsonValue
import CodexServer.Scrub
import CodexServer.Proof.Scrub
import CodexServer.JsonTree
import CodexServer.Proof.JsonTree
import CodexServer.EventCodec
import CodexServer.Proof.EventCodec
import CodexServer.Preparation
import CodexServer.Proof.Preparation
import CodexServer.McpAuthz
import CodexServer.Proof.McpAuthz
import CodexServer.WebSession
import CodexServer.Proof.WebSession
import CodexServer.SettingsWatch
import CodexServer.Proof.SettingsWatch
import CodexServer.Composer
import CodexServer.Proof.Composer
