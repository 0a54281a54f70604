import Pantoken.Protocol.Json

/-!
# The session driver's events

The normalized types of the wire contract: snapshots of a session, the requests an
extension makes of the operator, and the event stream a driver emits.

## Main definitions

* `SessionSnapshot` — what a driver knows of a session at one moment.
* `HostUiRequest`, `isDialogRequest`, `HostUiRequest.requestId` — the operator's
  dialogs and the ambient UI.
* `SessionDriverEvent` — the event stream; `base` is the part every event carries.
-/

namespace Pantoken

abbrev WorkspaceId := String
abbrev SessionId := String
abbrev RunId := String
abbrev Timestamp := String

/-! ### References, statuses and modes -/

structure WorkspaceRef where
  workspaceId : WorkspaceId
  path : String
  displayName : Option String

structure SessionRef where
  workspaceId : WorkspaceId
  sessionId : SessionId
  deriving DecidableEq

inductive SessionStatus where
  | idle | initializing | running | failed
  deriving DecidableEq

inductive PermissionMonitorMode where
  | standard | bypass | bypassPlus | autonomous
  deriving DecidableEq

inductive SessionMessageDeliveryMode where
  | steer | followUp
  deriving DecidableEq

/-! ### Payloads -/

/-- An image block: base64 data and its mime type. -/
structure ImageContent where
  data : String
  mimeType : String
  deriving DecidableEq

/-- One `@`-reference the daemon resolved out of a prompt. -/
structure ResolvedRef where
  kind : String
  name : String
  fileKind : Option String
  deriving DecidableEq

structure SessionQueuedMessage where
  id : String
  mode : SessionMessageDeliveryMode
  text : String
  createdAt : Timestamp
  updatedAt : Timestamp
  references : Option (List ResolvedRef)
  deriving DecidableEq

structure SessionConfig where
  modelId : Option String
  thinkingLevel : Option String
  availableThinkingLevels : Option (List String)
  deriving DecidableEq

/-- `SessionConfig::default()` -/
def SessionConfig.default : SessionConfig := ⟨none, none, none⟩

structure SessionUsage where
  tokens : Option Int
  contextWindow : Int
  percent : Option F64
  deriving DecidableEq

inductive McpServerStatus where
  | connected | disconnected | reconnecting | disabled
  deriving DecidableEq

structure McpServerInfo where
  serverName : String
  status : McpServerStatus
  toolCount : Int

structure GoalInfo where
  summary : String
  lifecycle : String
  deriving DecidableEq

inductive FlaggedFileMode where
  | included | referenced
  deriving DecidableEq

structure FlaggedFile where
  path : String
  mode : FlaggedFileMode

inductive TodoStatus where
  | pending | inProgress | done | blocked
  deriving DecidableEq

structure TodoItem where
  id : Int
  title : String
  description : String
  status : TodoStatus
  dependencies : List Int
  createdAt : Option String

/-! ### Snapshots

A snapshot omits what its sender does not know; the reducer keeps the known value
then.  `goal` has three cases: omitted, cleared (`some none`) and set. -/

structure SessionSnapshot where
  ref : SessionRef
  workspace : WorkspaceRef
  title : String
  status : SessionStatus
  updatedAt : Timestamp
  archivedAt : Option Timestamp
  preview : Option String
  config : Option SessionConfig
  usage : Option SessionUsage
  runningRunId : Option RunId
  queuedMessages : Option (List SessionQueuedMessage)
  facet : Option String
  permissionMonitor : Option PermissionMonitorMode
  adventurousHandoff : Option Bool
  notificationAutodrain : Option Bool
  activePlan : Option String
  goal : Option (Option GoalInfo)
  flags : Option (List FlaggedFile)
  todos : Option (List TodoItem)
  mcpServers : Option (List McpServerInfo)

/-! ### Host UI -/

structure QnaQuestionOption where
  label : String
  description : Option String

structure QnaQuestion where
  question : String
  context : Option String
  options : Option (List QnaQuestionOption)
  multiSelect : Option Bool

inductive NotifyLevel where
  | info | warning | error
  deriving DecidableEq

inductive WidgetPlacement where
  | aboveComposer | belowComposer
  deriving DecidableEq

/-- A request of the host UI.  The first eight are blocking dialogs, the rest is
ambient and expects no answer. -/
inductive HostUiRequest where
  | confirm (requestId title message : String) (defaultValue : Option Bool)
      (timeoutMs : Option Int)
  | unknown (requestId title message : String)
  | input (requestId title : String) (placeholder initialValue : Option String)
      (timeoutMs : Option Int)
  | select (requestId title : String) (options : List String) (allowMultiple : Option Bool)
      (timeoutMs : Option Int)
  | editor (requestId title : String) (initialValue : Option String)
  | qna (requestId : String) (title : Option String) (questions : List QnaQuestion)
      (timeoutMs : Option Int)
  | plan (requestId title planText : String) (displayPath targetFacet : Option String)
      (actionLabels : String × String × String) (timeoutMs : Option Int)
  | permission (requestId title : String) (toolName toolInput : Option String)
      (options : List String) (timeoutMs : Option Int)
  | notify (requestId message : String) (level : Option NotifyLevel)
  | status (requestId key : String) (text : Option String)
  | widget (requestId key : String) (lines : Option (List String))
      (placement : Option WidgetPlacement)
  | title (requestId title : String)
  | editorText (requestId text : String)
  | reset (requestId : String)

/-- `is_dialog_request` -/
def isDialogRequest : HostUiRequest → Bool
  | .confirm .. | .unknown .. | .input .. | .select .. | .editor .. | .qna .. | .plan ..
  | .permission .. => true
  | .notify .. | .status .. | .widget .. | .title .. | .editorText .. | .reset .. => false

/-- The request id, which every kind carries. -/
def HostUiRequest.requestId : HostUiRequest → String
  | .confirm r .. | .unknown r .. | .input r .. | .select r .. | .editor r .. | .qna r ..
  | .plan r .. | .permission r .. | .notify r .. | .status r .. | .widget r .. | .title r ..
  | .editorText r .. | .reset r => r

structure ExtensionCompatibilityIssue where
  capability : String
  message : String
  extensionPath : Option String
  eventName : Option String

inductive SessionClosedReason where
  | manual | ended | failed
  deriving DecidableEq

structure SessionErrorInfo where
  message : String
  code : Option String
  details : Option Json

/-! ### The event stream -/

/-- The fields every event carries. -/
structure SessionEventBase where
  sessionRef : SessionRef
  timestamp : Timestamp
  runId : Option RunId
  deriving DecidableEq

inductive AssistantDeltaChannel where
  | text | thinking
  deriving DecidableEq

inductive SessionDriverEvent where
  | sessionOpened (base : SessionEventBase) (snapshot : SessionSnapshot)
  | sessionUpdated (base : SessionEventBase) (snapshot : SessionSnapshot)
  | assistantDelta (base : SessionEventBase) (text : String)
      (channel : Option AssistantDeltaChannel) (entryId : Option String)
  | queuedMessageStarted (base : SessionEventBase) (message : SessionQueuedMessage)
  | queueUpdated (base : SessionEventBase) (messages : List SessionQueuedMessage)
  | userMessage (base : SessionEventBase) (id text : String) (images : Option (List ImageContent))
      (entryId : Option String) (references : Option (List ResolvedRef))
  | customMessage (base : SessionEventBase) (id customType text : String)
      (display turnBoundary : Bool)
  | toolStarted (base : SessionEventBase) (toolName callId : String) (input : Option Json)
      (label description : Option String)
  | toolUpdated (base : SessionEventBase) (callId : String) (text : Option String)
      (progress : Option F64)
  | toolFinished (base : SessionEventBase) (callId : String) (success : Bool)
      (output : Option Json) (images : Option (List ImageContent)) (interrupted : Option Bool)
  | runCompleted (base : SessionEventBase) (snapshot : SessionSnapshot)
      (userEntryId assistantEntryId : Option String)
  | usageUpdated (base : SessionEventBase) (usage : SessionUsage)
  | runFailed (base : SessionEventBase) (error : SessionErrorInfo)
  | hostUiRequest (base : SessionEventBase) (request : HostUiRequest)
  | hostUiResolved (base : SessionEventBase) (requestId : String)
  | extensionCompatibilityIssue (base : SessionEventBase) (issue : ExtensionCompatibilityIssue)
  | sessionClosed (base : SessionEventBase) (reason : SessionClosedReason)
  | sessionReset (base : SessionEventBase)

namespace SessionDriverEvent

/-- The base of an event. -/
def base : SessionDriverEvent → SessionEventBase
  | sessionOpened b .. | sessionUpdated b .. | assistantDelta b .. | queuedMessageStarted b ..
  | queueUpdated b .. | userMessage b .. | customMessage b .. | toolStarted b ..
  | toolUpdated b .. | toolFinished b .. | runCompleted b .. | usageUpdated b ..
  | runFailed b .. | hostUiRequest b .. | hostUiResolved b ..
  | extensionCompatibilityIssue b .. | sessionClosed b .. | sessionReset b => b

/-- `session_ref` -/
def sessionRef (ev : SessionDriverEvent) : SessionRef := ev.base.sessionRef

/-- `timestamp` -/
def timestamp (ev : SessionDriverEvent) : Timestamp := ev.base.timestamp

/-- The session an event belongs to. -/
def sid (ev : SessionDriverEvent) : SessionId := ev.sessionRef.sessionId

end SessionDriverEvent

end Pantoken
