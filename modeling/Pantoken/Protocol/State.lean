import Pantoken.Lib.ListEdit
import Pantoken.Lib.PMap
import Pantoken.Protocol.SessionDriver

/-!
# The folded session state and its reducer

The server keeps a session as a log of driver events and folds it into a
`SessionState` on demand.  `foldEvent` is that reducer; the state it mutates is
passed along.

## Main definitions

* `TranscriptItem`, `SessionState`, `initialSessionState` — the folded view.
* `openAssistant`, `closeOpenAssistant`, `stampLastEntryId`, `interruptRunningTools` —
  the edits of the transcript.
* `foldEvent`, `foldAllFrom`, `foldAll` — the reducer.
-/

namespace Pantoken

/-! ### Transcript items -/

structure UserItem where
  id : String
  text : String
  images : Option (List ImageContent)
  references : Option (List ResolvedRef)
  ts : Option String
  entryId : Option String
  delivery : Option String
  deliveryError : Option String
  deriving DecidableEq

structure AssistantItem where
  id : String
  text : String
  thinking : String
  streaming : Bool
  ts : Option String
  entryId : Option String
  completedAt : Option String
  deriving DecidableEq

inductive ToolStatus where
  | running | ok | error | interrupted
  deriving DecidableEq

structure ToolItem where
  id : String
  name : String
  label : Option String
  description : Option String
  input : Option Json
  output : Option Json
  images : Option (List ImageContent)
  text : Option String
  progress : Option F64
  status : ToolStatus
  startedAt : Option String
  finishedAt : Option String

inductive NoticeLevel where
  | info | warning | error
  deriving DecidableEq

structure NoticeItem where
  id : String
  level : NoticeLevel
  text : String
  deriving DecidableEq

structure InjectItem where
  id : String
  customType : String
  text : String
  display : Bool
  turnBoundary : Bool
  ts : Option String
  deriving DecidableEq

inductive TranscriptItem where
  | user (u : UserItem)
  | assistant (a : AssistantItem)
  | tool (t : ToolItem)
  | notice (n : NoticeItem)
  | inject (i : InjectItem)

/-! ### The state -/

inductive AmbientPlacement where
  | aboveComposer | belowComposer
  deriving DecidableEq

structure AmbientWidget where
  key : String
  lines : List String
  placement : AmbientPlacement
  deriving DecidableEq

structure AmbientState where
  statuses : PMap String String
  widgets : PMap String AmbientWidget
  title : Option String

/-- `AmbientState::default()` -/
def AmbientState.default : AmbientState := ⟨.empty, .empty, none⟩

structure SessionState where
  sessionRef : Option SessionRef
  title : String
  status : SessionStatus
  config : SessionConfig
  usage : Option SessionUsage
  facet : Option String
  permissionMonitor : Option PermissionMonitorMode
  adventurousHandoff : Option Bool
  notificationAutodrain : Option Bool
  activePlan : Option String
  goal : Option (Option GoalInfo)
  flags : List FlaggedFile
  todos : List TodoItem
  mcpServers : List McpServerInfo
  items : List TranscriptItem
  pendingApprovals : List HostUiRequest
  ambient : AmbientState
  queued : List SessionQueuedMessage

/-- `initial_session_state` -/
def initialSessionState : SessionState where
  sessionRef := none
  title := ""
  status := .idle
  config := .default
  usage := none
  facet := none
  permissionMonitor := none
  adventurousHandoff := none
  notificationAutodrain := none
  activePlan := none
  goal := none
  flags := []
  todos := []
  mcpServers := []
  items := []
  pendingApprovals := []
  ambient := .default
  queued := []

/-! ### Edits of the transcript -/

/-- `open_assistant`: the bubble still accumulating deltas, which is the last item. -/
def openAssistant (items : List TranscriptItem) : Option AssistantItem :=
  match items.getLast? with
  | some (.assistant a) => if a.streaming then some a else none
  | _ => none

/-- What closing does to the last item. -/
def closeItem (completedAt : Option String) : TranscriptItem → TranscriptItem
  | .assistant a =>
    if a.streaming then
      .assistant { a with streaming := false, completedAt := completedAt.or a.completedAt }
    else .assistant a
  | i => i

/-- `close_open_assistant` -/
def closeOpenAssistant (items : List TranscriptItem) (completedAt : Option String) :
    List TranscriptItem :=
  items.mapLast (closeItem completedAt)

inductive EntryIdKind where
  | user | assistant
  deriving DecidableEq

/-- Stamp an item, when it is of the kind. -/
def stampItem (kind : EntryIdKind) (entryId : String) : TranscriptItem → Option TranscriptItem
  | .user u => if kind = .user then some (.user { u with entryId := some entryId }) else none
  | .assistant a =>
    if kind = .assistant then some (.assistant { a with entryId := some entryId }) else none
  | _ => none

/-- `stamp_last_entry_id` -/
def stampLastEntryId (items : List TranscriptItem) (kind : EntryIdKind) (entryId : String) :
    List TranscriptItem :=
  items.modifyLastWhere (stampItem kind entryId)

/-- Interrupt an item, when it is a running tool. -/
def interruptItem (finishedAt : String) : TranscriptItem → TranscriptItem
  | .tool t =>
    if t.status = .running then
      .tool { t with status := .interrupted, finishedAt := some finishedAt }
    else .tool t
  | i => i

/-- `interrupt_running_tools` -/
def interruptRunningTools (items : List TranscriptItem) (finishedAt : String) :
    List TranscriptItem :=
  items.map (interruptItem finishedAt)

/-! ### The cases of the reducer -/

/-- Overwrite the fields a snapshot carries and keep the ones it omits. -/
def applySnapshot (state : SessionState) (snapshot : SessionSnapshot) : SessionState :=
  { state with
    sessionRef := some snapshot.ref
    title := snapshot.title
    status := snapshot.status
    config := snapshot.config.getD state.config
    usage := snapshot.usage.or state.usage
    facet := snapshot.facet.or state.facet
    permissionMonitor := snapshot.permissionMonitor.or state.permissionMonitor
    adventurousHandoff := snapshot.adventurousHandoff.or state.adventurousHandoff
    notificationAutodrain := snapshot.notificationAutodrain.or state.notificationAutodrain
    activePlan := snapshot.activePlan.or state.activePlan
    goal := match snapshot.goal with
      | none => state.goal
      | some none => none
      | some (some g) => some (some g)
    flags := snapshot.flags.getD state.flags
    todos := snapshot.todos.getD state.todos
    mcpServers := snapshot.mcpServers.getD state.mcpServers
    queued := snapshot.queuedMessages.getD state.queued }

/-- The part `sessionOpened`, `sessionUpdated` and `runCompleted` share: a snapshot
that is not running closes the open bubble. -/
def foldSnapshot (state : SessionState) (snapshot : SessionSnapshot) (timestamp : String) :
    SessionState :=
  let state := applySnapshot state snapshot
  if snapshot.status ≠ .running then
    { state with items := closeOpenAssistant state.items (some timestamp) }
  else state

/-- Stamp the branch handle, when the run carries one. -/
def stampEntryId (items : List TranscriptItem) (kind : EntryIdKind) :
    Option String → List TranscriptItem
  | some entryId => stampLastEntryId items kind entryId
  | none => items

/-- Close the open bubble and add an item after it. -/
def pushItem (items : List TranscriptItem) (i : TranscriptItem) : List TranscriptItem :=
  closeOpenAssistant items none ++ [i]

/-- Append delta text to an assistant item, on its channel. -/
def AssistantItem.append (a : AssistantItem) (channel : Option AssistantDeltaChannel)
    (text : String) : AssistantItem :=
  match channel with
  | some .thinking => { a with thinking := a.thinking ++ text }
  | _ => { a with text := a.text ++ text }

/-- Append delta text to the last item. -/
def appendDelta (channel : Option AssistantDeltaChannel) (text : String) :
    TranscriptItem → TranscriptItem
  | .assistant a => .assistant (a.append channel text)
  | i => i

/-- The bubble a delta opens. -/
def newAssistant (timestamp : String) (index : Nat) (entryId : Option String) : AssistantItem where
  id := s!"a-{timestamp}-{index}"
  text := ""
  thinking := ""
  streaming := true
  ts := some timestamp
  entryId := entryId
  completedAt := none

/-- The items after a delta: it joins the open bubble, or opens one. -/
def foldDelta (items : List TranscriptItem) (timestamp text : String)
    (channel : Option AssistantDeltaChannel) (entryId : Option String) : List TranscriptItem :=
  let items :=
    if (openAssistant items).isSome then items
    else items ++ [.assistant (newAssistant timestamp items.length entryId)]
  items.mapLast (appendDelta channel text)

/-- Update a tool item from `toolUpdated`. -/
def updateTool (text : Option String) (progress : Option F64) (t : ToolItem) : ToolItem :=
  { t with text := text.or t.text, progress := progress.or t.progress }

/-- The status a `toolFinished` settles a tool to. -/
def finishedStatus (success : Bool) (interrupted : Option Bool) : ToolStatus :=
  if interrupted = some true then .interrupted else if success then .ok else .error

/-- Settle a tool item from `toolFinished`. -/
def finishTool (success : Bool) (output : Option Json) (images : Option (List ImageContent))
    (interrupted : Option Bool) (timestamp : String) (t : ToolItem) : ToolItem :=
  { t with
    status := finishedStatus success interrupted
    output := output
    images := images.or t.images
    finishedAt := some timestamp }

/-- Edit every tool item with the call id. -/
def mapTools (callId : String) (f : ToolItem → ToolItem) (items : List TranscriptItem) :
    List TranscriptItem :=
  items.map fun i =>
    match i with
    | .tool t => if t.id = callId then .tool (f t) else .tool t
    | i => i

/-- `WidgetPlacement` as the folded state stores it. -/
def WidgetPlacement.toAmbient : WidgetPlacement → AmbientPlacement
  | .aboveComposer => .aboveComposer
  | .belowComposer => .belowComposer

/-- `NotifyLevel` as the folded state stores it. -/
def NotifyLevel.toNotice : NotifyLevel → NoticeLevel
  | .info => .info
  | .warning => .warning
  | .error => .error

/-- A status with a text is set, one without is removed. -/
def foldStatus (statuses : PMap String String) (key : String) : Option String → PMap String String
  | some t => statuses.insert key t
  | none => statuses.erase key

/-- A widget with lines is set, one with none or an empty list is removed. -/
def foldWidget (widgets : PMap String AmbientWidget) (key : String) (lines : Option (List String))
    (placement : Option WidgetPlacement) : PMap String AmbientWidget :=
  match lines with
  | some (l :: ls) =>
    widgets.insert key ⟨key, l :: ls, (placement.getD .aboveComposer).toAmbient⟩
  | _ => widgets.erase key

/-- The `hostUiRequest` case: a dialog is queued once, ambient UI is applied. -/
def foldHostUiRequest (state : SessionState) (request : HostUiRequest) : SessionState :=
  if isDialogRequest request then
    if state.pendingApprovals.any (·.requestId = request.requestId) then state
    else { state with pendingApprovals := state.pendingApprovals ++ [request] }
  else
    match request with
    | .status _ key text =>
      { state with
        ambient := { state.ambient with statuses := foldStatus state.ambient.statuses key text } }
    | .widget _ key lines placement =>
      { state with
        ambient := { state.ambient with
          widgets := foldWidget state.ambient.widgets key lines placement } }
    | .title _ title => { state with ambient := { state.ambient with title := some title } }
    | .notify rid message level =>
      { state with
        items := pushItem state.items (.notice ⟨rid, (level.getD .info).toNotice, message⟩) }
    | .reset _ => { state with ambient := .default }
    | _ => state

/-- The status a closed session is left in. -/
def closedStatus (reason : SessionClosedReason) : SessionStatus :=
  if reason = .failed then .failed else .idle

/-- `fold_event` -/
def foldEvent (state : SessionState) (ev : SessionDriverEvent) : SessionState :=
  match ev with
  | .sessionOpened base snapshot => foldSnapshot state snapshot base.timestamp
  | .sessionUpdated base snapshot => foldSnapshot state snapshot base.timestamp
  | .runCompleted base snapshot userEntryId assistantEntryId =>
    let state := foldSnapshot state snapshot base.timestamp
    let items := interruptRunningTools state.items base.timestamp
    let items := stampEntryId items .assistant assistantEntryId
    { state with items := stampEntryId items .user userEntryId }
  | .userMessage base id text images entryId references =>
    { state with
      items := pushItem state.items
        (.user ⟨id, text, images, references, some base.timestamp, entryId, none, none⟩) }
  | .customMessage base id customType text display turnBoundary =>
    { state with
      items := pushItem state.items
        (.inject ⟨id, customType, text, display, turnBoundary, some base.timestamp⟩) }
  | .queuedMessageStarted _ message =>
    { state with
      items := pushItem state.items
        (.user ⟨message.id, message.text, none, message.references, some message.createdAt,
          none, none, none⟩)
      queued := state.queued.filter (·.id ≠ message.id) }
  | .queueUpdated _ messages => { state with queued := messages }
  | .assistantDelta base text channel entryId =>
    { state with items := foldDelta state.items base.timestamp text channel entryId }
  | .toolStarted base toolName callId input label description =>
    { state with
      items := pushItem state.items
        (.tool ⟨callId, toolName, label, description, input, none, none, none, none, .running,
          some base.timestamp, none⟩) }
  | .toolUpdated _ callId text progress =>
    { state with items := mapTools callId (updateTool text progress) state.items }
  | .toolFinished base callId success output images interrupted =>
    { state with
      items :=
        mapTools callId (finishTool success output images interrupted base.timestamp)
          state.items }
  | .usageUpdated _ usage => { state with usage := some usage }
  | .runFailed base error =>
    let items := closeOpenAssistant state.items none
    let items := interruptRunningTools items base.timestamp
    { state with
      status := .failed
      items := items ++ [.notice ⟨s!"err-{base.timestamp}", .error, error.message⟩] }
  | .hostUiRequest _ request => foldHostUiRequest state request
  | .hostUiResolved _ requestId =>
    { state with
      pendingApprovals := state.pendingApprovals.filter (·.requestId ≠ requestId) }
  | .extensionCompatibilityIssue base issue =>
    { state with
      items := pushItem state.items
        (.notice ⟨s!"compat-{base.timestamp}", .warning,
          s!"Extension capability \"{issue.capability}\" is terminal-only: {issue.message}"⟩) }
  | .sessionClosed base reason =>
    let items := closeOpenAssistant state.items (some base.timestamp)
    { state with
      items := interruptRunningTools items base.timestamp
      status := closedStatus reason }
  | .sessionReset _ => { state with items := [] }

/-- `fold_all_from` -/
def foldAllFrom (state : SessionState) (events : List SessionDriverEvent) : SessionState :=
  events.foldl foldEvent state

/-- `fold_all` -/
def foldAll (events : List SessionDriverEvent) : SessionState :=
  foldAllFrom initialSessionState events

@[simp] theorem foldAllFrom_nil (s : SessionState) : foldAllFrom s [] = s := rfl

@[simp] theorem foldAllFrom_cons (s : SessionState) (e : SessionDriverEvent)
    (es : List SessionDriverEvent) :
    foldAllFrom s (e :: es) = foldAllFrom (foldEvent s e) es := rfl

theorem foldAllFrom_append (s : SessionState) (es fs : List SessionDriverEvent) :
    foldAllFrom s (es ++ fs) = foldAllFrom (foldAllFrom s es) fs := List.foldl_append

theorem foldAll_append (es fs : List SessionDriverEvent) :
    foldAll (es ++ fs) = foldAllFrom (foldAll es) fs := foldAllFrom_append _ es fs

theorem foldAll_concat (es : List SessionDriverEvent) (e : SessionDriverEvent) :
    foldAll (es ++ [e]) = foldEvent (foldAll es) e := foldAll_append es [e]

/-! ### Deltas -/

/-- Text appended in two steps on one channel is appended in one. -/
theorem AssistantItem.append_append (a : AssistantItem) {ch ch' : Option AssistantDeltaChannel}
    (h : ch.getD .text = ch'.getD .text) (t t' : String) :
    (a.append ch t).append ch' t' = a.append (some (ch.getD .text)) (t ++ t') := by
  rcases ch with _ | _ | _ <;> rcases ch' with _ | _ | _ <;>
    simp_all [AssistantItem.append, String.append_assoc]

theorem AssistantItem.append_streaming (a : AssistantItem) (ch : Option AssistantDeltaChannel)
    (t : String) : (a.append ch t).streaming = a.streaming := by
  unfold AssistantItem.append
  split <;> rfl

@[simp] theorem openAssistant_concat (xs : List TranscriptItem) (a : AssistantItem) :
    openAssistant (xs ++ [.assistant a]) = if a.streaming then some a else none := by
  simp [openAssistant]

/-- An open bubble is the last item. -/
theorem exists_of_openAssistant {items : List TranscriptItem} {a : AssistantItem}
    (h : openAssistant items = some a) :
    a.streaming = true ∧ ∃ xs, items = xs ++ [.assistant a] := by
  rcases List.eq_nil_or_concat' items with rfl | ⟨xs, x, rfl⟩
  · cases h
  · cases x with
    | assistant b =>
      rw [openAssistant_concat] at h
      split at h
      · next hs => cases h; exact ⟨hs, xs, rfl⟩
      · cases h
    | user _ | tool _ | notice _ | inject _ => simp [openAssistant] at h

/-- A delta joins the open bubble. -/
theorem foldDelta_of_open (xs : List TranscriptItem) {a : AssistantItem} (h : a.streaming = true)
    (ts text : String) (ch : Option AssistantDeltaChannel) (e : Option String) :
    foldDelta (xs ++ [.assistant a]) ts text ch e = xs ++ [.assistant (a.append ch text)] := by
  simp [foldDelta, h, appendDelta]

/-- A delta opens a bubble when none is open. -/
theorem foldDelta_of_closed {items : List TranscriptItem} (h : openAssistant items = none)
    (ts text : String) (ch : Option AssistantDeltaChannel) (e : Option String) :
    foldDelta items ts text ch e =
      items ++ [.assistant ((newAssistant ts items.length e).append ch text)] := by
  simp [foldDelta, h, appendDelta]

/-- Where a delta writes: one bubble at the end, which does not depend on the text. -/
theorem exists_foldDelta (items : List TranscriptItem) (ts : String) (e : Option String) :
    ∃ xs, ∃ a : AssistantItem, a.streaming = true ∧
      ∀ text ch, foldDelta items ts text ch e = xs ++ [.assistant (a.append ch text)] := by
  cases h : openAssistant items with
  | none =>
    exact ⟨items, newAssistant ts items.length e, rfl,
      fun text ch => foldDelta_of_closed h ts text ch e⟩
  | some a =>
    obtain ⟨hs, xs, rfl⟩ := exists_of_openAssistant h
    exact ⟨xs, a, hs, fun text ch => foldDelta_of_open xs hs ts text ch e⟩

/-- **Two deltas on one channel fold as the one that joins their texts**: after the
first a bubble is open, so the second appends to it whatever its timestamp and entry. -/
theorem foldDelta_foldDelta (items : List TranscriptItem) {ch ch' : Option AssistantDeltaChannel}
    (h : ch.getD .text = ch'.getD .text) (ts ts' t t' : String) (e e' : Option String) :
    foldDelta (foldDelta items ts t ch e) ts' t' ch' e' =
      foldDelta items ts (t ++ t') (some (ch.getD .text)) e := by
  obtain ⟨xs, a, hs, hfold⟩ := exists_foldDelta items ts e
  rw [hfold, hfold, foldDelta_of_open xs (by rw [AssistantItem.append_streaming, hs]),
    a.append_append h]

end Pantoken
