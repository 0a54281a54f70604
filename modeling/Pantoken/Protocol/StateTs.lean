import Pantoken.Protocol.State

/-!
# The client's reducer

Every client folds the events it receives with a second reducer, written in TypeScript.
It is modelled on the types of the server's, an absent field read as `none`; what the two
have in common (the open bubble, a delta, the entry-id walk, the snapshot's overwrite
guards) is shared, and what TypeScript says differently has its own definition here.

## Main definitions

* `Ts.truthy`, `Ts.setKey` — a condition on a string, and an assignment to a record.
* `Ts.modifyTool` — the edit of the first tool with a call id.
* `Ts.foldEvent`, `Ts.foldAll` — the reducer.
-/

namespace Pantoken.Ts

/-- What a condition `if (s)` on an optional string lets through: the empty string is
falsy. -/
def truthy (s : Option String) : Option String := s.filter (· ≠ "")

/-- `record[key] = value`.  On an object literal the key `__proto__` sets the prototype
and adds no entry. -/
def setKey {α : Type} (record : PMap String α) (key : String) (value : α) : PMap String α :=
  if key = "__proto__" then record else record.insert key value

/-- What closing does to the last item. -/
def closeItem (completedAt : Option String) : TranscriptItem → TranscriptItem
  | .assistant a =>
    if a.streaming then
      .assistant
        { a with
          streaming := false
          completedAt := (truthy completedAt).or a.completedAt }
    else .assistant a
  | i => i

/-- `closeOpenAssistant` -/
def closeOpenAssistant (items : List TranscriptItem) (completedAt : Option String) :
    List TranscriptItem :=
  items.mapLast (closeItem completedAt)

/-- Close the open bubble and push an item. -/
def pushItem (items : List TranscriptItem) (i : TranscriptItem) : List TranscriptItem :=
  closeOpenAssistant items none ++ [i]

/-- The part `sessionOpened`, `sessionUpdated` and `runCompleted` share. -/
def foldSnapshot (state : SessionState) (snapshot : SessionSnapshot) (timestamp : String) :
    SessionState :=
  let state := applySnapshot state snapshot
  if snapshot.status ≠ .running then
    { state with items := closeOpenAssistant state.items (some timestamp) }
  else state

/-- `if (entryId) stampLastEntryId(items, kind, entryId)` -/
def stampEntryId (items : List TranscriptItem) (kind : EntryIdKind) (entryId : Option String) :
    List TranscriptItem :=
  Pantoken.stampEntryId items kind (truthy entryId)

/-- Edit a tool item with the call id. -/
def toolEdit (callId : String) (f : ToolItem → ToolItem) : TranscriptItem → Option TranscriptItem
  | .tool t => if t.id = callId then some (.tool (f t)) else none
  | _ => none

/-- Edit the tool item that `find` returns for the call id, the first one. -/
def modifyTool (callId : String) (f : ToolItem → ToolItem) (items : List TranscriptItem) :
    List TranscriptItem :=
  items.modifyFirst (toolEdit callId f)

/-- `if (req.text) statuses[key] = text; else delete statuses[key]` -/
def foldStatus (statuses : PMap String String) (key : String) (text : Option String) :
    PMap String String :=
  match truthy text with
  | some t => setKey statuses key t
  | none => statuses.erase key

/-- The widget case, keyed like the statuses. -/
def foldWidget (widgets : PMap String AmbientWidget) (key : String) (lines : Option (List String))
    (placement : Option WidgetPlacement) : PMap String AmbientWidget :=
  match lines with
  | some (l :: ls) =>
    setKey widgets key ⟨key, l :: ls, (placement.getD .aboveComposer).toAmbient⟩
  | _ => widgets.erase key

/-- The `hostUiRequest` case. -/
def foldHostUiRequest (state : SessionState) (req : HostUiRequest) : SessionState :=
  if isDialogRequest req then
    if state.pendingApprovals.any (·.requestId = req.requestId) then state
    else { state with pendingApprovals := state.pendingApprovals ++ [req] }
  else
    match req with
    | .status _ key text =>
      { state with
        ambient := { state.ambient with statuses := foldStatus state.ambient.statuses key text } }
    | .widget _ key lines placement =>
      { state with
        ambient := { state.ambient with
          widgets := foldWidget state.ambient.widgets key lines placement } }
    | .title _ title => { state with ambient := { state.ambient with title := some title } }
    | .notify rid message level =>
      { state with
        items := pushItem state.items (.notice ⟨rid, (level.getD .info).toNotice, message⟩) }
    | .reset _ => { state with ambient := .default }
    | _ => state

/-- `foldEvent` -/
def foldEvent (state : SessionState) (ev : SessionDriverEvent) : SessionState :=
  match ev with
  | .sessionOpened base snapshot => foldSnapshot state snapshot base.timestamp
  | .sessionUpdated base snapshot => foldSnapshot state snapshot base.timestamp
  | .runCompleted base snapshot userEntryId assistantEntryId =>
    let state := foldSnapshot state snapshot base.timestamp
    let items := interruptRunningTools state.items base.timestamp
    let items := stampEntryId items .assistant assistantEntryId
    { state with items := stampEntryId items .user userEntryId }
  | .userMessage base id text images entryId references =>
    { state with
      items := pushItem state.items
        (.user ⟨id, text, images, references, some base.timestamp, entryId, none, none⟩) }
  | .customMessage base id customType text display turnBoundary =>
    { state with
      items := pushItem state.items
        (.inject ⟨id, customType, text, display, turnBoundary, some base.timestamp⟩) }
  | .queuedMessageStarted _ message =>
    { state with
      items := pushItem state.items
        (.user ⟨message.id, message.text, none, message.references, some message.createdAt,
          none, none, none⟩)
      queued := state.queued.filter (·.id ≠ message.id) }
  | .queueUpdated _ messages => { state with queued := messages }
  | .assistantDelta base text channel entryId =>
    { state with items := foldDelta state.items base.timestamp text channel entryId }
  | .toolStarted base toolName callId input label description =>
    { state with
      items := pushItem state.items
        (.tool ⟨callId, toolName, label, description, input, none, none, none, none, .running,
          some base.timestamp, none⟩) }
  | .toolUpdated _ callId text progress =>
    { state with items := modifyTool callId (updateTool text progress) state.items }
  | .toolFinished base callId success output images interrupted =>
    { state with
      items :=
        modifyTool callId (finishTool success output images interrupted base.timestamp)
          state.items }
  | .usageUpdated _ usage => { state with usage := some usage }
  | .runFailed base error =>
    let items := closeOpenAssistant state.items none
    let items := interruptRunningTools items base.timestamp
    { state with
      status := .failed
      items := items ++ [.notice ⟨s!"err-{base.timestamp}", .error, error.message⟩] }
  | .hostUiRequest _ request => foldHostUiRequest state request
  | .hostUiResolved _ requestId =>
    { state with
      pendingApprovals := state.pendingApprovals.filter (·.requestId ≠ requestId) }
  | .extensionCompatibilityIssue base issue =>
    { state with
      items := pushItem state.items
        (.notice ⟨s!"compat-{base.timestamp}", .warning,
          s!"Extension capability \"{issue.capability}\" is terminal-only: {issue.message}"⟩) }
  | .sessionClosed base reason =>
    let items := closeOpenAssistant state.items (some base.timestamp)
    { state with
      items := interruptRunningTools items base.timestamp
      status := closedStatus reason }
  | .sessionReset _ => { state with items := [] }

/-- `foldAll` -/
def foldAll (events : List SessionDriverEvent) : SessionState :=
  events.foldl foldEvent initialSessionState

/-! ### Deltas -/

/-- Closing on an interruption is the same in both reducers. -/
theorem closeItem_none : closeItem none = Pantoken.closeItem none := by
  funext i
  cases i <;> simp [closeItem, Pantoken.closeItem, truthy]

@[simp] theorem closeOpenAssistant_none (items : List TranscriptItem) :
    closeOpenAssistant items none = Pantoken.closeOpenAssistant items none := by
  rw [closeOpenAssistant, Pantoken.closeOpenAssistant, closeItem_none]

@[simp] theorem pushItem_eq (items : List TranscriptItem) (i : TranscriptItem) :
    pushItem items i = Pantoken.pushItem items i := by
  rw [pushItem, Pantoken.pushItem, closeOpenAssistant_none]

end Pantoken.Ts
