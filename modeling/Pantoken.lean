import Pantoken.Lib.PMap
import Pantoken.Lib.Coalesce
import Pantoken.Lib.ListEdit
import Pantoken.Lib.Run
import Pantoken.Connection.Stdio
import Pantoken.Protocol.Frame
import Pantoken.Protocol.Json
import Pantoken.Protocol.SessionDriver
import Pantoken.Protocol.State
import Pantoken.Protocol.StateTs
import Pantoken.Protocol.Agreement
import Pantoken.Protocol.Regular
import Pantoken.Protocol.OpenBubble
import Pantoken.Server.Journal
import Pantoken.Server.MetaSeed
import Pantoken.Server.Ledger
import Pantoken.Server.Hub
import Pantoken.Server.Applier
import Pantoken.Client.Store
import Pantoken.Client.Sync
import Pantoken.Client.Conversation
import Pantoken.Client.Served
import Pantoken.Client.Recovery
import Pantoken.Client.WsClient
import Pantoken.Client.Hosts
import Pantoken.Server.Ingest
import Pantoken.Server.Transcripts
import Pantoken.Server.Moves
import Pantoken.Server.Connect
import Pantoken.Server.Attention
import Pantoken.Server.Status
import Pantoken.Server.Listing
import Pantoken.Server.Prompts
import Pantoken.Polytoken.EventMap
import Pantoken.Lib.Channel
import Pantoken.Lib.Incremental
import Pantoken.Lib.Observe
import Pantoken.Lib.Register
import Pantoken.Polytoken.HistorySeed
import Pantoken.Protocol.Shown
import Pantoken.Polytoken.Replay
import Pantoken.Polytoken.WarmPool
import Pantoken.Polytoken.UiBridge
import Pantoken.Polytoken.LiveEvents
import Pantoken.Polytoken.WarmTurns
import Pantoken.Polytoken.PromptEcho
import Pantoken.Protocol.Turn
import Pantoken.Client.Turns
import Pantoken.Client.NewSession
import Pantoken.Client.OutboxSync
import Pantoken.Client.Composer
import Pantoken.Remote.Bootstrap
import Pantoken.Desktop.Bridge
import Pantoken.Lib.Borders
import Pantoken.Lib.Utf8
import Pantoken.Polytoken.Sse
import Pantoken.Server.OpQueue
import Pantoken.Server.Stops
import Pantoken.Client.OverlayHistory
import Pantoken.Desktop.Attempt
import Pantoken.Desktop.RemoteHost
import Pantoken.Client.HostConnect
import Pantoken.Client.PlainHost
import Pantoken.Lib.OpenClose
import Pantoken.Polytoken.Folded
import Pantoken.Polytoken.RoundTrip
import Pantoken.Polytoken.Settled
import Pantoken.Desktop.Updater
import Pantoken.Remote.Lifecycle
import Pantoken.Desktop.Install
import Pantoken.Desktop.Installing
import Pantoken.Desktop.DockerTarget
import Pantoken.Desktop.RemoteProfile
import Pantoken.Desktop.RemoteRoot
import Pantoken.Lib.Delimited
import Pantoken.Lib.KeptFile
import Pantoken.Server.IndexJson
import Pantoken.Server.Indices
import Pantoken.Client.HostViews
import Pantoken.Client.TranscriptView
import Pantoken.Client.TurnGrouper
import Pantoken.Polytoken.ClearQueue
import Pantoken.Polytoken.ListingCaches
import Pantoken.Server.Slicing
import Pantoken.Server.WorktreePlan
import Pantoken.Server.Worktrees
import Pantoken.Remote.TarValidate
import Pantoken.Server.UsageRefresh
import Pantoken.Server.BranchGate
import Pantoken.Client.SessionFilter
import Pantoken.Client.Unread
import Pantoken.Remote.Layout
import Pantoken.Desktop.ShellWords
import Pantoken.Client.FileMatch
import Pantoken.Desktop.Persistence
import Pantoken.Polytoken.ConfigWatcher
import Pantoken.Polytoken.ProcessIdentity
import Pantoken.Server.Lease
import Pantoken.Client.StaleFiles
import Pantoken.Client.DraftConfig
import Pantoken.Desktop.Reconcile
import Pantoken.Lib.Cut
import Pantoken.Polytoken.ModelListing
import Pantoken.Server.BackgroundModel
import Pantoken.Desktop.Supervisor
import Pantoken.Remote.Peek
import Pantoken.Desktop.SupervisorSignals
import Pantoken.Desktop.Preflight
import Pantoken.Desktop.ProfileStore
import Pantoken.Desktop.RiskGate
import Pantoken.Lib.StrSlice
import Pantoken.Lib.Pieces
import Pantoken.Desktop.Snapshot
import Pantoken.Lib.Gregorian
import Pantoken.Lib.Numeral
import Pantoken.Polytoken.Calendar
import Pantoken.Polytoken.Timestamps
import Pantoken.Desktop.VersionScan
import Pantoken.Lib.CommitGraph
import Pantoken.Lib.WorkTree
import Pantoken.Server.GitWorktree
import Pantoken.Server.JjWorkspace
import Pantoken.Polytoken.RowKeys
import Pantoken.Client.TranscriptRows
import Pantoken.Lib.Relocate
import Pantoken.Server.Migration
