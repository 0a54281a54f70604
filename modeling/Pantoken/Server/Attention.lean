import Mathlib.Data.Finset.Basic
import Pantoken.Lib.StrSlice
import Pantoken.Lib.Register
import Pantoken.Lib.Run
import Pantoken.Server.Folds

/-!
# Attention

Beside the journals the hub keeps, for every session an event came in for, whether it runs
and what it asks of the operator: a phase, an activity and the dialogs that wait for an
answer.  It is kept event by event, whether or not the session has a journal, and a seed is
tracked like the events it consists of.  The same dialogs are the pending approvals of the
journal's fold.

The two are registers of the same stream, one pair for each session and request.  A dialog
sets both and its resolution clears both; a `runFailed` and a `sessionClosed` clear the one
of the attention table alone, and a journal that is begun anew begins with what its seed
leaves, whatever was tracked before.

## Main definitions

* `AttentionRecord`, `Tracking` — what is tracked.
* `Tracking.trackRunning`, `Tracking.trackAttention` — the effect of an event.
* `Tracked` — a server with its tracking; `Tracked.step` is one step of both.
* `Tracked.Agrees` — the dialogs in the attention table are those of the journals.
* `Tracked.KeepsDialogs` — the condition under which a step keeps the two the same.

## Main results

* `awaits_track`, `awaits_foldEvent` — what an event writes to either register.
* `agrees_step_iff` — what one step keeps, exactly.
* `attention_agrees_iff` — **when the attention table agrees with the journals in every
  state of a run.**
* `not_attention_agrees` — a run that fails with a dialog open.
-/

namespace Pantoken

open Register

/-! ### Texts -/

/-- `clipped`: white space runs become single spaces, and what is longer than `maxLen` bytes
is cut.  The code panics where the cut falls into a character, which here goes whole. -/
def clipped (value : String) (maxLen : ℕ) : String :=
  let words := (value.toList.splitOnP Cut.isWhitespace).filter (· ≠ [])
  let oneLine := [' '].intercalate words
  if maxLen < (String.ofList oneLine).utf8ByteSize then
    String.ofList (takeBytes (maxLen - 1) oneLine ++ ['…'])
  else String.ofList oneLine

/-- `input_string`: the first member under one of the keys that is a text and not blank. -/
def inputString (input : Option Json) (keys : List String) : Option String :=
  (input.bind Json.asObject).bind fun obj =>
    keys.findSome? fun key =>
      ((Json.getMember obj key).bind Json.asStr).bind fun s =>
        let trimmed := Server.trim s
        if trimmed = "" then none else some (clipped trimmed 72)

/-- `str::contains` -/
def containsStr (name part : String) : Bool := decide (part.toList <:+: name.toList)

/-- `tool_activity`, of a tool that has started. -/
def toolActivity (toolName : String) (input : Option Json) (label description : Option String) :
    String :=
  -- only ASCII letters lower to the letters that are looked for
  let name := toolName.toLower
  let path := inputString input ["path", "filePath", "file_path"]
  if containsStr name "read" then (path.map ("Reading " ++ ·)).getD "Reading files"
  else if containsStr name "edit" ∨ containsStr name "write" then
    (path.map ("Editing " ++ ·)).getD "Editing files"
  else if containsStr name "search" ∨ containsStr name "grep" ∨ name = "rg" then
    "Searching the workspace"
  else if name = "bash" ∨ name = "shell" ∨ name = "exec" then
    ((inputString input ["command", "cmd"]).map ("Running " ++ ·)).getD "Running a command"
  else clipped ((label.or description).getD toolName) 72

/-- `title` of a request. -/
def HostUiRequest.titleText : HostUiRequest → Option String
  | .confirm _ t .. | .unknown _ t .. | .input _ t .. | .select _ t .. | .editor _ t ..
  | .permission _ t .. | .plan _ t .. | .title _ t => some t
  | .qna _ t .. => t
  | .notify .. | .status .. | .widget .. | .editorText .. | .reset .. => none

/-- `message` of a request. -/
def HostUiRequest.messageText : HostUiRequest → Option String
  | .confirm _ _ m _ _ | .unknown _ _ m | .notify _ m _ => some m
  | _ => none

/-- `request_title` -/
def requestTitle (request : HostUiRequest) : String :=
  match request.titleText.filter (· ≠ ""), request.messageText.filter (· ≠ "") with
  | some title, _ => clipped title 72
  | none, some msg => clipped msg 72
  | none, none =>
    match request with
    | .qna .. => "Questions need answers"
    | _ => "Waiting on you"

/-! ### What is tracked -/

/-- `AttentionPhase` -/
inductive AttentionPhase
  | running | failed | done
  deriving DecidableEq

/-- `AttentionRecord`; the pending dialogs are listed with their titles. -/
structure AttentionRecord where
  phase : AttentionPhase
  activity : Option String
  updatedAt : Timestamp
  pending : List (String × String)
  deriving DecidableEq

/-- Whether a request is pending. -/
def AttentionRecord.isPending (r : AttentionRecord) (id : String) : Bool :=
  r.pending.any (·.1 = id)

/-- `HashMap::insert` on the pending dialogs. -/
def insertPending (pending : List (String × String)) (id title : String) :
    List (String × String) :=
  if pending.any (·.1 = id) then pending.map fun p => if p.1 = id then (id, title) else p
  else pending ++ [(id, title)]

/-- The part of the hub that tracks sessions: which run, which initialize, and what each
asks of the operator. -/
structure Tracking where
  running : Finset SessionId
  initializing : Finset SessionId
  attention : PMap SessionId AttentionRecord

namespace Tracking

/-- Nothing is tracked. -/
def empty : Tracking := ⟨∅, ∅, .empty⟩

/-- `set_running` -/
def setRunning (tr : Tracking) (sid : SessionId) (on : Bool) : Tracking :=
  if on then
    { tr with running := insert sid tr.running, initializing := tr.initializing.erase sid }
  else { tr with running := tr.running.erase sid }

/-- `set_initializing` -/
def setInitializing (tr : Tracking) (sid : SessionId) (on : Bool) : Tracking :=
  if on then
    { tr with initializing := insert sid tr.initializing, running := tr.running.erase sid }
  else { tr with initializing := tr.initializing.erase sid }

/-- `track_running` -/
def trackRunning (tr : Tracking) (ev : SessionDriverEvent) : Tracking :=
  match ev with
  | .sessionOpened _ snapshot | .sessionUpdated _ snapshot | .runCompleted _ snapshot _ _ =>
    (tr.setRunning ev.sid (snapshot.status = .running)).setInitializing ev.sid
      (snapshot.status = .initializing)
  | .assistantDelta .. | .toolStarted .. | .toolUpdated .. | .userMessage ..
  | .queuedMessageStarted .. => tr.setRunning ev.sid true
  | .runFailed .. | .sessionClosed .. =>
    (tr.setRunning ev.sid false).setInitializing ev.sid false
  | _ => tr

/-- `ensure_attention` -/
def ensureAttention (tr : Tracking) (sid : SessionId) (timestamp : Timestamp) : Tracking :=
  match tr.attention sid with
  | some _ => tr
  | none =>
    { tr with attention := tr.attention.insert sid ⟨.running, some "Working", timestamp, []⟩ }

/-- `attention.get_mut` -/
def updateAttention (tr : Tracking) (sid : SessionId) (f : AttentionRecord → AttentionRecord) :
    Tracking :=
  match tr.attention sid with
  | some r => { tr with attention := tr.attention.insert sid (f r) }
  | none => tr

/-- What `set_attention_base` does to a record. -/
def baseRecord (phase : AttentionPhase) (activity : Option String) (timestamp : Timestamp)
    (r : AttentionRecord) : AttentionRecord :=
  { r with
    phase := phase
    activity := activity
    updatedAt := if r.phase ≠ phase ∨ r.activity ≠ activity then timestamp else r.updatedAt }

/-- `set_attention_base` -/
def setAttentionBase (tr : Tracking) (sid : SessionId) (phase : AttentionPhase)
    (activity : Option String) (timestamp : Timestamp) : Tracking :=
  (tr.ensureAttention sid timestamp).updateAttention sid (baseRecord phase activity timestamp)

/-- Whether there is a record in the phase `Running`. -/
def isRunningPhase (tr : Tracking) (sid : SessionId) : Bool :=
  (tr.attention sid).any (·.phase = .running)

/-- What a snapshot's status makes of the attention. -/
def trackStatus (tr : Tracking) (sid : SessionId) (timestamp : Timestamp) :
    SessionStatus → Tracking
  | .running => tr.setAttentionBase sid .running (some "Working") timestamp
  | .initializing => tr.setAttentionBase sid .running (some "Starting session") timestamp
  | .failed => tr.setAttentionBase sid .failed (some "Run failed") timestamp
  | .idle =>
    -- an idle snapshot settles a stuck run, and nothing else
    if (tr.attention sid).any fun r => r.phase = .running ∧ r.pending = [] then
      tr.setAttentionBase sid .done (some "Done") timestamp
    else tr

/-- The `hostUiRequest` case of `track_attention`. -/
def trackRequest (tr : Tracking) (sid : SessionId) (timestamp : Timestamp)
    (request : HostUiRequest) : Tracking :=
  if isDialogRequest request then
    (tr.ensureAttention sid timestamp).updateAttention sid fun r =>
      { r with
        pending := insertPending r.pending request.requestId (requestTitle request)
        updatedAt := timestamp }
  else
    match request with
    | .status _ _ (some t) =>
      if tr.isRunningPhase sid then
        tr.setAttentionBase sid .running (some (clipped t 72)) timestamp
      else tr
    | _ => tr

/-- `track_attention`, less the session titles. -/
def trackAttention (tr : Tracking) (ev : SessionDriverEvent) : Tracking :=
  let sid := ev.sid
  let timestamp := ev.timestamp
  match ev with
  | .sessionOpened _ snapshot | .sessionUpdated _ snapshot =>
    tr.trackStatus sid timestamp snapshot.status
  | .userMessage .. => tr.setAttentionBase sid .running (some "Starting") timestamp
  | .queuedMessageStarted .. =>
    tr.setAttentionBase sid .running (some "Queued a follow-up") timestamp
  | .assistantDelta _ _ channel _ =>
    tr.setAttentionBase sid .running
      (some (if channel = some .thinking then "Thinking" else "Responding")) timestamp
  | .toolStarted _ toolName _ input label description =>
    tr.setAttentionBase sid .running (some (toolActivity toolName input label description))
      timestamp
  | .toolFinished .. =>
    if tr.isRunningPhase sid then tr.setAttentionBase sid .running (some "Working") timestamp
    else tr
  | .runCompleted .. => tr.setAttentionBase sid .done (some "Done") timestamp
  | .runFailed _ error =>
    ((tr.ensureAttention sid timestamp).updateAttention sid fun r => { r with pending := [] })
      |>.setAttentionBase sid .failed (some (clipped error.message 72)) timestamp
  | .hostUiRequest _ request => tr.trackRequest sid timestamp request
  | .hostUiResolved _ requestId =>
    tr.updateAttention sid fun r =>
      if r.isPending requestId then
        { r with
          pending := r.pending.filter (·.1 ≠ requestId)
          updatedAt := timestamp }
      else r
  | .sessionClosed .. => { tr with attention := tr.attention.erase sid }
  | _ => tr

/-- What `on_event` and the folding of a seed do for one event. -/
def track (tr : Tracking) (ev : SessionDriverEvent) : Tracking :=
  (tr.trackRunning ev).trackAttention ev

/-- Whether a dialog of a session is pending in the attention table. -/
def awaits (tr : Tracking) (sid : SessionId) (id : String) : Bool :=
  (tr.attention sid).any (·.isPending id)

end Tracking

/-- Whether a dialog is among the pending approvals of a folded state. -/
def SessionState.awaits (s : SessionState) (id : String) : Bool :=
  s.pendingApprovals.any (·.requestId = id)

/-! ### The server and its tracking -/

/-- A server with what its hub tracks. -/
structure Tracked where
  server : Server
  tracking : Tracking

/-- The events an action tracks: one that comes in, and those of a seed that
`fold_swap_seed` folds. -/
def Server.tracks (s : Server) : Server.Action → List SessionDriverEvent
  | .input (.event _ ev) => [ev]
  | .input _ => []
  | .tick _ _ =>
    match s.phase with
    | .switching _ _ (.landed (.ok seed)) _ => seed.events
    | _ => []

namespace Tracked

/-- One step of the server, and of what its hub tracks. -/
def step (serde : Serde) (t : Tracked) (a : Server.Action) : Tracked :=
  ⟨t.server.step serde a, (t.server.tracks a).foldl Tracking.track t.tracking⟩

/-- A run. -/
def run (serde : Serde) (t : Tracked) (acts : List Server.Action) : Tracked :=
  acts.foldl (step serde) t

/-- The server at boot, which has tracked its default seed. -/
def boot (deltaFlushMs nowMs : ℕ) (defaultSeed : Option SwapSeed) : Tracked :=
  ⟨Server.boot deltaFlushMs nowMs defaultSeed,
    ((defaultSeed.map (·.events)).getD []).foldl Tracking.track .empty⟩

/-! ### What is claimed -/

/-- For every session with a journal, the dialogs pending in the attention table are the
pending approvals of the journal's fold. -/
def Agrees (t : Tracked) : Prop :=
  ∀ sid j, t.server.hub.journals sid = some j →
    ∀ id, t.tracking.awaits sid id = (foldAll (buildSeed j).2.2).awaits id

/-- What an event writes to a dialog of a session in the attention table. -/
def attentionWrite (sid : SessionId) (id : String) (ev : SessionDriverEvent) : Option Bool :=
  if ev.sid = sid then
    match ev with
    | .hostUiRequest _ request =>
      if isDialogRequest request ∧ request.requestId = id then some true else none
    | .hostUiResolved _ requestId => if requestId = id then some false else none
    | .runFailed .. | .sessionClosed .. => some false
    | _ => none
  else none

/-- What an event writes to a pending approval. -/
def approvalWrite (id : String) : SessionDriverEvent → Option Bool
  | .hostUiRequest _ request =>
    if isDialogRequest request ∧ request.requestId = id then some true else none
  | .hostUiResolved _ requestId => if requestId = id then some false else none
  | _ => none

/-- No dialog of a session is pending. -/
def NonePending (tr : Tracking) (sid : SessionId) : Prop := ∀ id, tr.awaits sid id = false

/-- The dialogs a seed leaves open are those that are pending for the session. -/
def SeedLeaves (tr : Tracking) (sid : SessionId) (seed : SwapSeed) : Prop :=
  ∀ id, tr.awaits sid id = (lastWrite (approvalWrite id) seed.events).getD false

/-- What a seed last says of a dialog of a session is what is pending already. -/
def SeedRepeats (tr : Tracking) (sid : SessionId) (seed : SwapSeed) : Prop :=
  ∀ id b, lastWrite (attentionWrite sid id) seed.events = some b → tr.awaits sid id = b

/-- The step leaves the dialogs of either side the same: no run fails, and no session that
is viewed or the default one closes, with a dialog pending; a seed that is folded says
nothing new of a session with a journal; and a journal begins anew only from a seed that
leaves open the dialogs that are pending by then. -/
def KeepsDialogs (t : Tracked) : Server.Action → Prop
  | .input (.event _ ev) =>
    match ev with
    | .runFailed .. => t.server.hub.hasJournal ev.sid = true → NonePending t.tracking ev.sid
    | .sessionClosed .. =>
      t.server.hub.hasJournal ev.sid = true →
        t.server.hub.defaultFocusId = some ev.sid ∨ t.server.hub.hasViewer ev.sid = true →
        NonePending t.tracking ev.sid
    | _ => True
  | .input _ => True
  | .tick _ _ =>
    match t.server.phase with
    | .switching _ _ (.landed (.ok seed)) _ =>
      ∀ sid, t.server.hub.hasJournal sid = true → SeedRepeats t.tracking sid seed
    | .switching _ sw (.folded seed sid) _ =>
      sw.reseed = true ∨ t.server.hub.hasJournal sid = false → SeedLeaves t.tracking sid seed
    | _ => True

/-- The dialogs the default seed leaves open are those it leaves pending. -/
def BootsAgreed (defaultSeed : Option SwapSeed) : Prop :=
  ∀ seed ev evs, defaultSeed = some seed → seed.events = ev :: evs → ∀ id,
    (lastWrite (attentionWrite ev.sid id) seed.events).getD false =
      (lastWrite (approvalWrite id) seed.events).getD false

end Tracked

/-! ### What an event writes -/

section Write

variable {tr : Tracking} {sid : SessionId} {id : String}

open Tracking Tracked

theorem awaits_ensureAttention (s : SessionId) (ts : Timestamp) :
    (tr.ensureAttention s ts).awaits sid id = tr.awaits sid id := by
  unfold ensureAttention awaits
  cases hs : tr.attention s with
  | some r => rfl
  | none =>
    by_cases hsid : sid = s
    · subst hsid
      simp [hs, AttentionRecord.isPending]
    · simp [hsid]

theorem awaits_updateAttention (s : SessionId) (f : AttentionRecord → AttentionRecord) :
    (tr.updateAttention s f).awaits sid id =
      if sid = s then (tr.attention sid).any fun r => (f r).isPending id
      else tr.awaits sid id := by
  unfold updateAttention awaits
  by_cases hsid : sid = s
  · subst hsid
    cases hs : tr.attention sid with
    | some r => simp
    | none => simp [hs]
  · cases tr.attention s with
    | some r => simp [hsid]
    | none => simp [hsid]

/-- An update that keeps the pending dialogs. -/
theorem awaits_updateAttention_of_pending (s : SessionId) {f : AttentionRecord → AttentionRecord}
    (hf : ∀ r, (f r).pending = r.pending) :
    (tr.updateAttention s f).awaits sid id = tr.awaits sid id := by
  rw [awaits_updateAttention]
  split_ifs
  · simp only [AttentionRecord.isPending, hf]
    rfl
  · rfl

theorem awaits_setAttentionBase (s : SessionId) (phase : AttentionPhase)
    (activity : Option String) (ts : Timestamp) :
    (tr.setAttentionBase s phase activity ts).awaits sid id = tr.awaits sid id := by
  have hbase : ∀ r, (baseRecord phase activity ts r).pending = r.pending := fun _ => rfl
  exact (awaits_updateAttention_of_pending s hbase).trans (awaits_ensureAttention s ts)

theorem awaits_trackStatus (s : SessionId) (ts : Timestamp) (status : SessionStatus) :
    (tr.trackStatus s ts status).awaits sid id = tr.awaits sid id := by
  cases status with
  | running | initializing | failed => exact awaits_setAttentionBase s _ _ ts
  | idle =>
    unfold trackStatus
    split_ifs
    · exact awaits_setAttentionBase s _ _ ts
    · rfl

theorem any_insertPending (pending : List (String × String)) (rid title : String) :
    (insertPending pending rid title).any (·.1 = id) =
      (decide (rid = id) || pending.any (·.1 = id)) := by
  unfold insertPending
  split_ifs with hany
  · rw [List.any_map]
    by_cases hid : rid = id
    · subst hid
      simp only [decide_true, Bool.true_or]
      obtain ⟨p, hp, hpid⟩ := List.any_eq_true.mp hany
      refine List.any_eq_true.mpr ⟨p, hp, ?_⟩
      simp [of_decide_eq_true hpid]
    · simp only [hid, decide_false, Bool.false_or]
      congr 1
      funext p
      by_cases hp : p.1 = rid
      · simp [hp, hid]
      · simp [hp]
  · rw [List.any_append, Bool.or_comm]
    simp

theorem isPending_resolved (r : AttentionRecord) (rid : String) (ts : Timestamp) :
    AttentionRecord.isPending
        (if r.isPending rid then
          { r with pending := r.pending.filter (·.1 ≠ rid), updatedAt := ts } else r) id =
      (decide (rid ≠ id) && r.isPending id) := by
  by_cases hid : rid = id
  · subst hid
    split_ifs with hp
    · simp [AttentionRecord.isPending]
    · simpa using hp
  · have hkeep : (r.pending.filter (·.1 ≠ rid)).any (·.1 = id) = r.pending.any (·.1 = id) := by
      rw [List.any_filter]
      congr 1
      funext p
      by_cases hp : p.1 = id
      · simp [hp, Ne.symm hid]
      · simp [hp]
    split_ifs
    · simpa [AttentionRecord.isPending, hid] using hkeep
    · simp [hid]

theorem awaits_ensured (s : SessionId) (ts : Timestamp) (f : AttentionRecord → AttentionRecord)
    (w : Bool → Bool) (hf : ∀ r, (f r).isPending id = w (r.isPending id)) :
    ((tr.ensureAttention s ts).updateAttention s f).awaits sid id =
      if sid = s then w (tr.awaits sid id) else tr.awaits sid id := by
  rw [awaits_updateAttention, awaits_ensureAttention]
  split_ifs with hsid
  · subst hsid
    simp only [hf]
    unfold ensureAttention awaits
    cases hs : tr.attention sid with
    | some r => simp [hs]
    | none => simp [AttentionRecord.isPending]
  · rfl

theorem awaits_trackRequest (s : SessionId) (ts : Timestamp) (request : HostUiRequest) :
    (tr.trackRequest s ts request).awaits sid id =
      if s = sid ∧ isDialogRequest request = true ∧ request.requestId = id then true
      else tr.awaits sid id := by
  unfold trackRequest
  by_cases hdialog : isDialogRequest request = true
  · have hins : ∀ r : AttentionRecord,
        ({ r with
            pending := insertPending r.pending request.requestId (requestTitle request)
            updatedAt := ts } : AttentionRecord).isPending id =
          (decide (request.requestId = id) || r.isPending id) :=
      fun r => any_insertPending r.pending _ _
    rw [if_pos hdialog, awaits_ensured s ts _ _ hins]
    by_cases hsid : sid = s
    · by_cases hid : request.requestId = id
      · simp [hsid, hid, hdialog]
      · simp [hsid, hid]
    · rw [if_neg hsid, if_neg fun h => hsid h.1.symm]
  · rw [if_neg hdialog, if_neg fun h => hdialog h.2.1]
    split
    · split_ifs
      · exact awaits_setAttentionBase s _ _ ts
      · rfl
    · rfl

/-- What an event writes to a dialog of the attention table. -/
theorem awaits_trackAttention (ev : SessionDriverEvent) :
    (tr.trackAttention ev).awaits sid id =
      write (attentionWrite sid id) (tr.awaits sid id) ev := by
  unfold write attentionWrite trackAttention
  cases ev with
  | sessionOpened | sessionUpdated => simp [awaits_trackStatus]
  | toolFinished =>
    dsimp only
    split_ifs <;> simp [awaits_setAttentionBase]
  | hostUiRequest base request =>
    simp only [awaits_trackRequest]
    split_ifs with hall hsid hreq hsid hreq
    · rfl
    · exact absurd hall.2 hreq
    · exact absurd hall.1 hsid
    · exact absurd ⟨hsid, hreq⟩ hall
    · rfl
    · rfl
  | hostUiResolved base requestId =>
    simp only [awaits_updateAttention, isPending_resolved]
    by_cases hsid : sid = (SessionDriverEvent.hostUiResolved base requestId).sid
    · rw [if_pos hsid, if_pos hsid.symm]
      by_cases hid : requestId = id
      · simp [hid]
      · simp [hid, awaits]
    · rw [if_neg hsid, if_neg (Ne.symm hsid)]
      rfl
  | runFailed base error =>
    rw [awaits_setAttentionBase, awaits_ensured _ _ _ (fun _ => false) fun r => rfl]
    by_cases hsid : sid = (SessionDriverEvent.runFailed base error).sid
    · rw [if_pos hsid, if_pos hsid.symm]
      rfl
    · rw [if_neg hsid, if_neg (Ne.symm hsid)]
      rfl
  | sessionClosed base reason =>
    by_cases hsid : sid = (SessionDriverEvent.sessionClosed base reason).sid
    · rw [if_pos hsid.symm, ← hsid]
      simp [awaits]
    · rw [if_neg (Ne.symm hsid)]
      simp [awaits, hsid]
  | userMessage | queuedMessageStarted | assistantDelta | toolStarted | runCompleted =>
    simp [awaits_setAttentionBase]
  | queueUpdated | customMessage | toolUpdated | usageUpdated | extensionCompatibilityIssue
  | sessionReset => simp

/-- Which sessions run has no part in it. -/
theorem awaits_trackRunning (ev : SessionDriverEvent) :
    (tr.trackRunning ev).awaits sid id = tr.awaits sid id := by
  have hrun : ∀ (tr : Tracking) s on, (tr.setRunning s on).awaits sid id = tr.awaits sid id := by
    intro tr s on
    cases on <;> rfl
  have hinit : ∀ (tr : Tracking) s on,
      (tr.setInitializing s on).awaits sid id = tr.awaits sid id := by
    intro tr s on
    cases on <;> rfl
  unfold trackRunning
  cases ev <;> simp only [hrun, hinit]

/-- **What an event writes to the attention table.** -/
theorem awaits_track (ev : SessionDriverEvent) :
    (tr.track ev).awaits sid id = write (attentionWrite sid id) (tr.awaits sid id) ev := by
  rw [track, awaits_trackAttention, awaits_trackRunning]

theorem awaits_foldl_track (evs : List SessionDriverEvent) :
    (evs.foldl track tr).awaits sid id =
      (lastWrite (attentionWrite sid id) evs).getD (tr.awaits sid id) := by
  rw [← foldl_write]
  induction evs generalizing tr with
  | nil => rfl
  | cons ev evs ih => rw [List.foldl_cons, List.foldl_cons, ih, awaits_track]

/-- **What an event writes to the pending approvals.** -/
theorem awaits_foldEvent (st : SessionState) (ev : SessionDriverEvent) :
    (foldEvent st ev).awaits id = write (approvalWrite id) (st.awaits id) ev := by
  unfold write approvalWrite SessionState.awaits
  cases ev with
  | sessionOpened base snapshot | sessionUpdated base snapshot =>
    simp only [foldEvent, foldSnapshot_pendingApprovals]
    rfl
  | runCompleted base snapshot =>
    simp only [foldEvent, foldSnapshot_pendingApprovals]
    rfl
  | hostUiRequest base request =>
    simp only [foldEvent, foldHostUiRequest]
    split_ifs with hdialog hany hw hw hw
    · rw [← hw.2]
      exact hany
    · rfl
    · simp [hw.2]
    · have hid : request.requestId ≠ id := fun hid => hw ⟨hdialog, hid⟩
      simp [hid]
    · exact absurd hw.1 hdialog
    · split <;> rfl
  | hostUiResolved base requestId =>
    simp only [foldEvent, List.any_filter]
    by_cases hid : requestId = id
    · subst hid
      simp
    · rw [if_neg hid]
      simp only [Option.getD_none]
      congr 1
      funext r
      by_cases hr : r.requestId = id
      · simp [hr, Ne.symm hid]
      · simp [hr]
  | _ => rfl

theorem awaits_foldAll (evs : List SessionDriverEvent) :
    (foldAll evs).awaits id = (lastWrite (approvalWrite id) evs).getD false := by
  rw [← foldl_write]
  induction evs using List.reverseRecOn with
  | nil => rfl
  | append_singleton evs ev ih =>
    rw [foldAll_concat, awaits_foldEvent, ih, List.foldl_append, List.foldl_cons, List.foldl_nil]

end Write

/-! ### Who views a session -/

section Viewers

variable {serde : Serde} {h : SessionHub}

/-- Ingesting moves no focus. -/
theorem hasViewer_ingest (m : Moment) (ev : SessionDriverEvent) (sid : SessionId) :
    (h.ingest serde m ev).hasViewer sid = h.hasViewer sid :=
  (SessionHub.Moves.sameSeats (moves_ingest m ev)).hasViewer sid

theorem closeJournal_hasJournal (ev : SessionDriverEvent) (hclosed : isClosed ev = true) :
    (h.closeJournal ev).hasJournal ev.sid = true ↔ h.hasJournal ev.sid = true ∧
      (h.defaultFocusId = some ev.sid ∨ h.hasViewer ev.sid = true) := by
  cases ev with
  | sessionClosed base reason =>
    simp only [SessionHub.closeJournal]
    split_ifs with hgone
    · refine iff_of_false (by simp [SessionHub.hasJournal]) ?_
      rintro ⟨-, hd | hv⟩
      · exact hgone.1 hd
      · rw [hgone.2] at hv
        cases hv
    · refine (and_iff_left ?_).symm
      by_contra hnot
      rw [not_or, Bool.not_eq_true] at hnot
      exact hgone hnot
  | _ => cases hclosed

/-- A session that closes keeps its journal while it is viewed or the default one. -/
theorem onEvent_hasJournal_closed (m : Moment) (ev : SessionDriverEvent)
    (hclosed : isClosed ev = true) :
    (h.onEvent serde m ev).hasJournal ev.sid = true ↔ h.hasJournal ev.sid = true ∧
      (h.defaultFocusId = some ev.sid ∨ h.hasViewer ev.sid = true) := by
  unfold SessionHub.onEvent
  rw [closeJournal_hasJournal ev hclosed, ingest_hasJournal, (frame_ingest m _).defaultFocusId,
    hasViewer_ingest]
  split_ifs <;> exact Iff.rfl

end Viewers

/-! ### Approvals of the journals -/

section Approvals

variable {serde : Serde} {h h' : SessionHub} {s : Server}

/-- The pending approvals of a session's journal. -/
def SessionHub.approvals (h : SessionHub) (sid : SessionId) : Option (String → Bool) :=
  (h.journals sid).map fun j => (foldAll (buildSeed j).2.2).awaits

theorem approvalWrite_of_isDelta {ev : SessionDriverEvent} (hdelta : SessionHub.isDelta ev = true)
    (id : String) : Tracked.approvalWrite id ev = none := by
  cases ev <;> first | rfl | cases hdelta

/-- The pending approvals, as a view. -/
def approvalsView : FoldView (String → Bool) where
  view := SessionState.awaits
  step f ev := fun id => Register.write (Tracked.approvalWrite id) (f id) ev
  view_foldEvent st ev := funext fun _ => awaits_foldEvent st ev
  step_delta f ev hdelta := by
    funext id
    rw [Register.write, approvalWrite_of_isDelta hdelta, Option.getD_none]

theorem ignoresUsage_approvalsView : approvalsView.IgnoresUsage := fun _ _ _ => rfl

theorem SessionHub.isSome_approvals (h : SessionHub) (sid : SessionId) :
    (h.approvals sid).isSome = h.hasJournal sid := h.isSome_folded approvalsView sid

/-- The approvals after events that were carried. -/
theorem approvals_of_carries {evs : List SessionDriverEvent} (hs : h.Sound serde)
    (hs' : h'.Sound serde) (hc : Carries h h' evs) {sid : SessionId}
    (hj : h'.hasJournal sid = true) :
    ∃ f, h.approvals sid = some f ∧ h'.approvals sid = some fun id =>
      (evs.filter (·.sid = sid)).foldl (Register.write (Tracked.approvalWrite id)) (f id) := by
  have hfold : ∀ (evs : List SessionDriverEvent) (f : String → Bool) (id : String),
      evs.foldl approvalsView.step f id =
        evs.foldl (Register.write (Tracked.approvalWrite id)) (f id) := by
    intro evs
    induction evs with
    | nil => exact fun _ _ => rfl
    | cons ev evs ih => exact fun f id => ih (approvalsView.step f ev) id
  obtain ⟨f, hf, hf'⟩ := folded_of_carries (v := approvalsView) hs hs' hc hj
  refine ⟨f, hf, hf'.trans (congrArg some ?_)⟩
  funext id
  exact hfold _ f id

theorem approvals_sameStore (hstore : h.SameStore h') : h'.approvals = h.approvals :=
  folded_sameStore (v := approvalsView) hstore

/-- A journal begun anew has the approvals of its seed, the others keep theirs. -/
theorem approvals_startJournal (sid : SessionId) (seed : List SessionDriverEvent)
    (s : SessionId) : (h.startJournal sid seed).approvals s =
      if s = sid then some (foldAll seed).awaits else h.approvals s :=
  folded_startJournal (v := approvalsView) sid seed s

theorem approvals_install (key : Nat) (sw : Switch) (seed : SwapSeed) (sid : SessionId)
    (first : Option FirstPrompt) (s' : SessionId) :
    (s.install key sw seed sid first).hub.approvals s' =
      if s' = sid ∧ (sw.reseed = true ∨ s.hub.hasJournal sid = false) then
        some (foldAll seed.events).awaits
      else s.hub.approvals s' :=
  folded_install (v := approvalsView) key sw seed sid first s'

end Approvals

/-! ### What a step keeps -/

namespace Tracked

section Step

variable {serde : Serde} {t : Tracked}

/-- The event clears the dialogs of its session in the attention table alone. -/
def clears : SessionDriverEvent → Bool
  | .runFailed .. | .sessionClosed .. => true
  | _ => false

theorem attentionWrite_of_clears {ev : SessionDriverEvent} (hc : clears ev = true)
    (id : String) : attentionWrite ev.sid id ev = some false ∧ approvalWrite id ev = none := by
  cases ev <;> first | exact ⟨if_pos rfl, rfl⟩ | cases hc

theorem attentionWrite_of_not_clears {ev : SessionDriverEvent} (hc : clears ev = false)
    (id : String) : attentionWrite ev.sid id ev = approvalWrite id ev := by
  cases ev <;> first | exact if_pos rfl | cases hc

theorem attentionWrite_of_ne {ev : SessionDriverEvent} {sid : SessionId} (hsid : ev.sid ≠ sid)
    (id : String) : attentionWrite sid id ev = none := if_neg hsid

theorem agrees_iff_approvals (t : Tracked) : t.Agrees ↔ ∀ sid f,
    t.server.hub.approvals sid = some f → ∀ id, t.tracking.awaits sid id = f id := by
  unfold Agrees SessionHub.approvals
  constructor
  · intro hag sid f hf id
    obtain ⟨j, hj, rfl⟩ := Option.map_eq_some_iff.mp hf
    exact hag sid j hj id
  · intro hag sid j hj id
    exact hag sid _ (by rw [hj, Option.map_some]) id

/-- An event keeps the agreement unless it clears dialogs of a session whose journal stays. -/
theorem agrees_event_iff (hs : t.server.Sound serde) (hag : t.Agrees) (m : Moment)
    (ev : SessionDriverEvent) : (t.step serde (.input (.event m ev))).Agrees ↔
      (clears ev = true → (t.server.hub.onEvent serde m ev).hasJournal ev.sid = true →
        NonePending t.tracking ev.sid) := by
  obtain ⟨hs', hc⟩ := hs.hub.onEvent m ev
  have hawaits : ∀ sid id, (t.step serde (.input (.event m ev))).tracking.awaits sid id =
      write (attentionWrite sid id) (t.tracking.awaits sid id) ev :=
    fun sid id => awaits_track ev
  have hself : [ev].filter (·.sid = ev.sid) = [ev] := by simp
  rw [agrees_iff_approvals] at hag ⊢
  constructor
  · intro hag' hclears hj id
    obtain ⟨f, hf, hf'⟩ := approvals_of_carries hs.hub hs' hc hj
    have heq := hag' ev.sid _ hf' id
    obtain ⟨hatt, happ⟩ := attentionWrite_of_clears hclears id
    rw [hawaits, write, hatt, hself, List.foldl_cons, List.foldl_nil, write, happ,
      ← hag ev.sid f hf id] at heq
    exact heq.symm
  · intro hcond sid f' hf' id
    have hj : (t.server.hub.onEvent serde m ev).hasJournal sid = true := by
      rw [← SessionHub.isSome_approvals]
      exact Option.isSome_iff_exists.mpr ⟨f', hf'⟩
    obtain ⟨f, hf, hf''⟩ := approvals_of_carries hs.hub hs' hc hj
    obtain rfl := Option.some.inj (hf'.symm.trans hf'')
    have hold := hag sid f hf id
    rw [hawaits]
    by_cases hsid : ev.sid = sid
    · subst hsid
      rw [hself]
      dsimp only
      rw [List.foldl_cons, List.foldl_nil, ← hold]
      cases hclears : clears ev with
      | true =>
        obtain ⟨hatt, happ⟩ := attentionWrite_of_clears hclears id
        have hnone := hcond hclears hj id
        rw [write, write, hatt, happ, hnone]
        rfl
      | false => rw [write, write, attentionWrite_of_not_clears hclears]
    · have hother : [ev].filter (·.sid = sid) = [] := by simp [hsid]
      rw [hother, write, attentionWrite_of_ne hsid]
      exact hold

/-- A step that changes no approval keeps the agreement when what it tracks repeats what
is pending for the sessions with a journal. -/
theorem agrees_of_approvals_iff {t' : Tracked} {evs : List SessionDriverEvent}
    (hag : t.Agrees) (hhub : t'.server.hub.approvals = t.server.hub.approvals)
    (htrack : t'.tracking = evs.foldl Tracking.track t.tracking) :
    t'.Agrees ↔ ∀ sid, t.server.hub.hasJournal sid = true → ∀ id b,
      lastWrite (attentionWrite sid id) evs = some b → t.tracking.awaits sid id = b := by
  rw [agrees_iff_approvals] at hag ⊢
  rw [hhub, htrack]
  constructor
  · intro hag' sid hj id b hb
    rw [← SessionHub.isSome_approvals] at hj
    obtain ⟨f, hf⟩ := Option.isSome_iff_exists.mp hj
    have heq := hag' sid f hf id
    rw [awaits_foldl_track, hb, Option.getD_some] at heq
    rw [hag sid f hf id, heq]
  · intro hrepeat sid f hf id
    have hj : t.server.hub.hasJournal sid = true := by
      rw [← SessionHub.isSome_approvals, hf]
      rfl
    rw [awaits_foldl_track, ← hag sid f hf id]
    cases hb : lastWrite (attentionWrite sid id) evs with
    | none => rfl
    | some b => exact (hrepeat sid hj id b hb).symm

theorem agrees_of_approvals_eq {t' : Tracked} (hag : t.Agrees)
    (hhub : t'.server.hub.approvals = t.server.hub.approvals)
    (htrack : t'.tracking = t.tracking) : t'.Agrees := by
  refine (@agrees_of_approvals_iff t t' [] hag hhub htrack).mpr ?_
  intro sid _ id b hb
  cases hb

/-- Short of an install, a section of the applier leaves every approval as it is. -/
theorem approvals_tick {s : Server} (hs : s.Sound serde)
    (hphase : ∀ key sw seed sid first, s.phase ≠ .switching key sw (.folded seed sid) first)
    (m : Moment) (answer : Answer) :
    (s.tick serde m answer).hub.approvals = s.hub.approvals :=
  folded_tick (v := approvalsView) hs hphase m (.inl ignoresUsage_approvalsView)

/-- The install of a switch keeps the agreement exactly when the journal is kept, or the
seed leaves open what is pending. -/
theorem agrees_install_iff (hag : t.Agrees) {key : Nat} {sw : Switch} {seed : SwapSeed}
    {sid : SessionId} {first : Option FirstPrompt}
    (hphase : t.server.phase = .switching key sw (.folded seed sid) first) (m : Moment)
    (answer : Answer) : (t.step serde (.tick m answer)).Agrees ↔
      (sw.reseed = true ∨ t.server.hub.hasJournal sid = false →
        SeedLeaves t.tracking sid seed) := by
  have htick : (t.step serde (.tick m answer)).server = t.server.install key sw seed sid first :=
    tick_folded hphase m answer
  have htrack : (t.step serde (.tick m answer)).tracking = t.tracking := by
    simp only [step, Server.tracks, hphase, List.foldl_nil]
  rw [agrees_iff_approvals] at hag ⊢
  rw [htick, htrack]
  constructor
  · intro hag' hfresh id
    rw [← awaits_foldAll]
    apply hag' sid
    rw [approvals_install, if_pos ⟨rfl, hfresh⟩]
  · intro hleaves s f hf id
    rw [approvals_install] at hf
    split_ifs at hf with hs
    · obtain ⟨rfl, hfresh⟩ := hs
      obtain rfl := Option.some.inj hf
      rw [awaits_foldAll]
      exact hleaves hfresh id
    · exact hag s f hf id

theorem agrees_event_iff_keepsDialogs (hs : t.server.Sound serde) (hag : t.Agrees) (m : Moment)
    (ev : SessionDriverEvent) : t.KeepsDialogs (.input (.event m ev)) ↔
      (t.step serde (.input (.event m ev))).Agrees := by
  rw [agrees_event_iff hs hag]
  cases hclears : clears ev with
  | false =>
    refine iff_of_true ?_ fun h => absurd h Bool.false_ne_true
    cases ev <;> trivial
  | true =>
    rw [eq_self, true_imp_iff]
    cases ev with
    | runFailed base error =>
      have hj : (t.server.hub.onEvent serde m (.runFailed base error)).hasJournal
          (SessionDriverEvent.runFailed base error).sid =
          t.server.hub.hasJournal (SessionDriverEvent.runFailed base error).sid :=
        (onEvent_hasJournal m _ _).resolve_right fun h => Bool.false_ne_true h.1
      rw [hj]
      exact Iff.rfl
    | sessionClosed base reason =>
      rw [onEvent_hasJournal_closed m _ rfl, and_imp]
      exact Iff.rfl
    | _ => cases hclears

/-- A section of the applier that neither folds a seed nor installs one. -/
theorem agrees_tick_of_silent (hs : t.server.Sound serde) (hag : t.Agrees) (m : Moment)
    (answer : Answer)
    (hfolded : ∀ key sw seed sid first,
      t.server.phase ≠ .switching key sw (.folded seed sid) first)
    (hlanded : ∀ key sw seed first,
      t.server.phase ≠ .switching key sw (.landed (.ok seed)) first) :
    t.KeepsDialogs (.tick m answer) ↔ (t.step serde (.tick m answer)).Agrees := by
  refine iff_of_true ?_ (agrees_of_approvals_eq hag (approvals_tick hs hfolded m answer) ?_)
  · simp only [KeepsDialogs]
  · unfold step Server.tracks
    dsimp only
    split
    · next hphase => exact absurd hphase (hlanded _ _ _ _)
    · rfl

/-- **What one step keeps**: the agreement holds after a step exactly when the step leaves
the dialogs of either side the same. -/
theorem agrees_step_iff (hs : t.server.Sound serde) (hag : t.Agrees) (a : Server.Action) :
    t.KeepsDialogs a ↔ (t.step serde a).Agrees := by
  cases a with
  | input i =>
    cases i with
    | event m ev => exact agrees_event_iff_keepsDialogs hs hag m ev
    | receive key msg =>
      refine iff_of_true trivial (agrees_of_approvals_eq hag ?_ rfl)
      exact approvals_sameStore (sameStore_receive t.server key msg).1
    | connect | disconnect | timer | liveTimer | evict | disposeIdle =>
      exact iff_of_true trivial (agrees_of_approvals_eq hag rfl rfl)
  | tick m answer =>
    rcases tick_install_or serde t.server m answer with
      ⟨key, sw, seed, sid, first, hphase, -⟩ | hfolded
    · rw [agrees_install_iff hag hphase]
      simp only [KeepsDialogs, hphase]
    · by_cases hlanded : ∃ key sw seed first,
          t.server.phase = .switching key sw (.landed (.ok seed)) first
      · obtain ⟨key, sw, seed, first, hphase⟩ := hlanded
        have htrack : (t.step serde (.tick m answer)).tracking =
            seed.events.foldl Tracking.track t.tracking := by
          simp only [step, Server.tracks, hphase]
        rw [agrees_of_approvals_iff hag (approvals_tick hs hfolded m answer) htrack]
        simp only [KeepsDialogs, hphase]
        rfl
      · apply agrees_tick_of_silent hs hag m answer hfolded
        intro key sw seed first hphase
        exact hlanded ⟨key, sw, seed, first, hphase⟩

end Step

/-! ### Runs -/

/-- The agreement at boot is that of the default seed. -/
theorem agrees_boot_iff (deltaFlushMs nowMs : ℕ) (defaultSeed : Option SwapSeed) :
    (boot deltaFlushMs nowMs defaultSeed).Agrees ↔ BootsAgreed defaultSeed := by
  rw [agrees_iff_approvals]
  have hnone : (SessionHub.new deltaFlushMs nowMs none).approvals = fun _ => none := rfl
  rcases defaultSeed with _ | ⟨events, hopened⟩
  · refine iff_of_true ?_ ?_
    · intro sid f hf
      cases hf
    · intro seed ev evs hseed
      cases hseed
  · cases events with
    | nil =>
      refine iff_of_true ?_ ?_
      · intro sid f hf
        cases hf
      · intro seed ev evs hseed hevs
        obtain rfl := Option.some.inj hseed
        cases hevs
    | cons ev evs =>
      have happ : ∀ sid, (boot deltaFlushMs nowMs (some ⟨ev :: evs, hopened⟩)).server.hub.approvals
          sid = if sid = ev.sid then some (foldAll (ev :: evs)).awaits else none := by
        intro sid
        have hstart := approvals_startJournal (h := SessionHub.new deltaFlushMs nowMs none) ev.sid
          (ev :: evs) sid
        rw [hnone] at hstart
        exact hstart
      have htrack : ∀ sid id,
          (boot deltaFlushMs nowMs (some ⟨ev :: evs, hopened⟩)).tracking.awaits sid id =
            (lastWrite (attentionWrite sid id) (ev :: evs)).getD false :=
        fun sid id => awaits_foldl_track (ev :: evs)
      simp only [happ, htrack]
      constructor
      · intro hag seed ev' evs' hseed hevs id
        obtain rfl := Option.some.inj hseed
        obtain ⟨rfl, rfl⟩ := List.cons.inj hevs
        rw [← awaits_foldAll]
        exact hag ev.sid _ (if_pos rfl) id
      · intro hboot sid f hf id
        split_ifs at hf with hsid
        obtain rfl := Option.some.inj hf
        rw [awaits_foldAll, hsid]
        exact hboot _ ev evs rfl rfl id

/-- **When the attention table agrees with the journals in every state of a run**: exactly
when the default seed begins so, and every step of the run leaves the dialogs of either
side the same. -/
theorem attention_agrees_iff (serde : Serde) (deltaFlushMs nowMs : ℕ)
    (defaultSeed : Option SwapSeed) (acts : List Server.Action) :
    (∀ pre, pre <+: acts → ((boot deltaFlushMs nowMs defaultSeed).run serde pre).Agrees) ↔
      BootsAgreed defaultSeed ∧
        Along (step serde) KeepsDialogs (boot deltaFlushMs nowMs defaultSeed) acts := by
  rw [← agrees_boot_iff deltaFlushMs nowMs]
  have hserver : ∀ (t : Tracked) acts, (t.run serde acts).server = t.server.run serde acts := by
    intro t acts
    induction acts generalizing t with
    | nil => rfl
    | cons a acts ih => exact ih (t.step serde a)
  have hstep : ∀ (t : Tracked) a, t.server.Sound serde ∧ t.Agrees →
      (t.KeepsDialogs a ↔ (t.step serde a).server.Sound serde ∧ (t.step serde a).Agrees) := by
    rintro t a ⟨hs, hag⟩
    rw [agrees_step_iff hs hag, and_iff_right]
    exact hs.step a
  have hboot := Server.sound_boot serde deltaFlushMs nowMs defaultSeed
  constructor
  · intro hall
    have hag := hall [] (List.nil_prefix)
    refine ⟨hag, (along_iff_forall_part hstep ⟨hboot, hag⟩ acts).mpr ?_⟩
    intro pre hpre
    refine ⟨?_, hall pre hpre⟩
    have hs := hboot.run pre
    rwa [← hserver ⟨Server.boot deltaFlushMs nowMs defaultSeed, _⟩ pre] at hs
  · rintro ⟨hag, hsteps⟩ pre hpre
    exact ((along_iff_forall_part hstep ⟨hboot, hag⟩ acts).mp hsteps pre hpre).2

/-! ### The divergence -/

/-- A confirmation is asked in the session of `titledSeed`. -/
private def asks : SessionDriverEvent :=
  .hostUiRequest ⟨⟨"w", "s"⟩, "t", none⟩ (.confirm "d" "title" "message" none none)

/-- The run of that session fails. -/
private def fails : SessionDriverEvent :=
  .runFailed ⟨⟨"w", "s"⟩, "u", none⟩ ⟨"out of tokens", none, none⟩

/-- **A run that fails clears its dialogs in the attention table alone**: the journal's
fold still has them pending.  A reload leaves a dialog in the table that is not in the new
journal. -/
theorem not_attention_agrees :
    let serde : Serde := ⟨fun _ => 0, fun _ => none⟩
    let m : Moment := ⟨default, 0, true⟩
    let t := boot 0 0 (some (titledSeed "title"))
    let asked : List Server.Action := [.input (.event m asks)]
    let failed := t.run serde (asked ++ [.input (.event m fails)])
    let reloaded := t.run serde (asked ++ connectAndSend m 0 (.reloadSession "p") ++
      .tick m (.seed (titledSeed "title")) :: ticks m 4)
    (¬failed.Agrees ∧ failed.tracking.awaits "s" "d" = false ∧
      (failed.server.hub.approvals "s").map (· "d") = some true) ∧
    (¬reloaded.Agrees ∧ reloaded.tracking.awaits "s" "d" = true ∧
      (reloaded.server.hub.approvals "s").map (· "d") = some false) := by
  intro serde m t asked failed reloaded
  have hdiverges : ∀ (t : Tracked) b, t.tracking.awaits "s" "d" = !b →
      (t.server.hub.approvals "s").map (· "d") = some b → ¬t.Agrees := by
    intro t b htracked happ hag
    obtain ⟨f, hf, hb⟩ := Option.map_eq_some_iff.mp happ
    have heq := (agrees_iff_approvals t).mp hag "s" f hf "d"
    rw [htracked, hb] at heq
    cases b <;> cases heq
  have hfailed : failed.tracking.awaits "s" "d" = false ∧
      (failed.server.hub.approvals "s").map (· "d") = some true := by decide
  have hreloaded : reloaded.tracking.awaits "s" "d" = true ∧
      (reloaded.server.hub.approvals "s").map (· "d") = some false := by decide
  exact ⟨⟨hdiverges failed true hfailed.1 hfailed.2, hfailed⟩,
    hdiverges reloaded false hreloaded.1 hreloaded.2, hreloaded⟩

end Tracked

end Pantoken
