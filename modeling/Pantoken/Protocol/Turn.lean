import Mathlib.Data.Finset.Basic
import Pantoken.Lib.Register
import Pantoken.Protocol.StateTs

/-!
# The turn a transcript shows

The client tells from the folded state of the session on screen whether a turn is in flight:
from its status, an open bubble and the tools that run, and from the set of the running
sessions the hub keeps.  The hub tells it from the kinds of the events.  The two are not the
same reading of the stream: a failed status hides a turn that has begun after it, and a
snapshot that is idle ends a turn for the hub while a tool runs on.

## Main definitions

* `turnActive` — whether a turn is in flight, as the client has it.
* `SessionDriverEvent.writesRunning` — what an event makes of the hub's running set.
* `ShowsTurn` — the folded state shows what the running set has.
* `KeepsTurn` — the condition under which an event keeps the two the same.

## Main results

* `turnActive_eq_iff` — what a state has to show for the two to agree.
* `showsTurn_foldEvent_iff` — **what one event keeps, exactly.**
* `sameTurn_sessionReset` — the two reducers show the same turn after a reset.
-/

namespace Pantoken

/-! ### What the client reads -/

/-- The item is a bubble that streams. -/
def TranscriptItem.isStreaming : TranscriptItem → Bool
  | .assistant a => a.streaming
  | _ => false

/-- The item is a tool that runs. -/
def TranscriptItem.isRunningTool : TranscriptItem → Bool
  | .tool t => decide (t.status = .running)
  | _ => false

/-- `turnActive`, of a store with or without a draft. -/
def turnActive (draft : Bool) (runningIds : Finset SessionId) (session : SessionState) : Bool :=
  if draft then false
  else if session.status = .running then true
  else if session.status = .failed then false
  -- a reference with an empty id is no focus
  else if session.sessionRef.any fun r => r.sessionId ≠ "" ∧ r.sessionId ∈ runningIds then true
  else if session.items.getLast?.any (·.isStreaming) then true
  else session.items.any (·.isRunningTool)

/-- What `track_running` writes to the running set for the session of an event. -/
def SessionDriverEvent.writesRunning : SessionDriverEvent → Option Bool
  | .sessionOpened _ snapshot | .sessionUpdated _ snapshot | .runCompleted _ snapshot _ _ =>
    some (snapshot.status = .running)
  | .assistantDelta .. | .toolStarted .. | .toolUpdated .. | .userMessage ..
  | .queuedMessageStarted .. => some true
  | .runFailed .. | .sessionClosed .. => some false
  | _ => none

/-! ### What is shown -/

/-- Two states the client reads the same turn from. -/
structure SameTurn (s s' : SessionState) : Prop where
  status : s.status = s'.status
  ref : s.sessionRef = s'.sessionRef
  streaming : s.items.map (·.isStreaming) = s'.items.map (·.isStreaming)
  tools : s.items.map (·.isRunningTool) = s'.items.map (·.isRunningTool)

/-- No bubble is open and no tool runs. -/
structure Settled (items : List TranscriptItem) : Prop where
  bubble : items.getLast?.any (·.isStreaming) = false
  tools : items.any (·.isRunningTool) = false

/-- The state is that of a session, and shows its turn: a session that runs is not shown as
failed, one that does not run is shown as failed, or with nothing in flight. -/
structure ShowsTurn (sid : SessionId) (running : Bool) (s : SessionState) : Prop where
  named : sid ≠ ""
  ref : s.sessionRef.map (·.sessionId) = some sid
  live : running = true → s.status ≠ .failed
  ended : running = false → s.status ≠ .running ∧ (s.status = .failed ∨ Settled s.items)

/-- An event keeps what is shown of a session: no snapshot is of another session, none that
is not running comes while a tool runs, and nothing of a turn comes after a failure that no
snapshot has followed. -/
def KeepsTurn (sid : SessionId) (s : SessionState) : SessionDriverEvent → Prop
  | .sessionOpened _ snapshot | .sessionUpdated _ snapshot =>
    snapshot.ref.sessionId = sid ∧
      (snapshot.status = .idle ∨ snapshot.status = .initializing →
        s.items.any (·.isRunningTool) = false)
  | .runCompleted _ snapshot _ _ => snapshot.ref.sessionId = sid
  | .assistantDelta .. | .toolStarted .. | .toolUpdated .. | .userMessage ..
  | .queuedMessageStarted .. => s.status ≠ .failed
  | _ => True

section Shows

variable {sid : SessionId} {r : Bool} {s s' : SessionState}

/-- **What a state has to show**: the client's answer is that of the running set exactly
when the status does not deny it, and nothing is in flight of a session that is over. -/
theorem turnActive_eq_iff {ids : Finset SessionId} (hne : sid ≠ "")
    (href : s.sessionRef.map (·.sessionId) = some sid) (hids : sid ∈ ids ↔ r = true) :
    turnActive false ids s = r ↔ (r = true → s.status ≠ .failed) ∧
      (r = false → s.status ≠ .running ∧ (s.status = .failed ∨ Settled s.items)) := by
  have hfocus : (s.sessionRef.any fun r => r.sessionId ≠ "" ∧ r.sessionId ∈ ids) = r := by
    obtain ⟨ref, heq, rfl⟩ := Option.map_eq_some_iff.mp href
    rw [heq, Option.any_some, Bool.decide_and, Bool.decide_congr hids]
    simp [hne]
  unfold turnActive
  rw [hfocus]
  cases r with
  | true =>
    cases hstatus : s.status <;> simp
  | false =>
    have hsettled : Settled s.items ↔ s.items.getLast?.any (·.isStreaming) = false ∧
        s.items.any (·.isRunningTool) = false := ⟨fun h => ⟨h.1, h.2⟩, fun h => ⟨h.1, h.2⟩⟩
    rw [hsettled]
    cases hstatus : s.status with
    | running | failed => simp
    | idle | initializing =>
      cases hbubble : s.items.getLast?.any (·.isStreaming) <;> simp

theorem ShowsTurn.turnActive_eq (h : ShowsTurn sid r s) {ids : Finset SessionId}
    (hids : sid ∈ ids ↔ r = true) : turnActive false ids s = r :=
  (turnActive_eq_iff h.named h.ref hids).mpr ⟨h.live, h.ended⟩

/-- Whether a bubble is open is read off the items that stream. -/
theorem bubble_congr {xs ys : List TranscriptItem}
    (h : xs.map (·.isStreaming) = ys.map (·.isStreaming)) :
    xs.getLast?.any (·.isStreaming) = ys.getLast?.any (·.isStreaming) := by
  have hread : ∀ items : List TranscriptItem, items.getLast?.any (·.isStreaming) =
      ((items.map (·.isStreaming)).getLast?.any id) := by
    intro items
    rw [List.getLast?_map, Option.any_map]
    rfl
  rw [hread, h, ← hread]

/-- Whether a tool runs is read off the items that do. -/
theorem tools_congr {xs ys : List TranscriptItem}
    (h : xs.map (·.isRunningTool) = ys.map (·.isRunningTool)) :
    xs.any (·.isRunningTool) = ys.any (·.isRunningTool) := by
  have hread : ∀ items : List TranscriptItem, items.any (·.isRunningTool) =
      (items.map (·.isRunningTool)).any id := by
    intro items
    rw [List.any_map]
    rfl
  rw [hread, h, ← hread]

theorem Settled.congr {xs ys : List TranscriptItem}
    (hstream : xs.map (·.isStreaming) = ys.map (·.isStreaming))
    (htools : xs.map (·.isRunningTool) = ys.map (·.isRunningTool)) (h : Settled xs) :
    Settled ys :=
  ⟨(bubble_congr hstream).symm.trans h.bubble, (tools_congr htools).symm.trans h.tools⟩

theorem ShowsTurn.congr (h : ShowsTurn sid r s) (hsame : SameTurn s s') : ShowsTurn sid r s' where
  named := h.named
  ref := hsame.ref ▸ h.ref
  live := hsame.status ▸ h.live
  ended := fun hr => by
    obtain ⟨hrun, hrest⟩ := h.ended hr
    rw [← hsame.status]
    exact ⟨hrun, hrest.imp id fun hs => hs.congr hsame.streaming hsame.tools⟩

theorem SameTurn.refl (s : SessionState) : SameTurn s s := ⟨rfl, rfl, rfl, rfl⟩

theorem SameTurn.symm (h : SameTurn s s') : SameTurn s' s :=
  ⟨h.status.symm, h.ref.symm, h.streaming.symm, h.tools.symm⟩

end Shows

/-! ### The edits -/

section Edits

variable {items : List TranscriptItem}

/-- An edit that leaves of an item whether it streams, and whether it is a running tool. -/
structure Unseen (i j : TranscriptItem) : Prop where
  streaming : j.isStreaming = i.isStreaming
  tools : j.isRunningTool = i.isRunningTool

theorem unseen_stampItem (kind : EntryIdKind) (e : String) (i j : TranscriptItem)
    (h : stampItem kind e i = some j) : Unseen i j := by
  cases i with
  | user u | assistant a =>
    simp only [stampItem] at h
    split_ifs at h
    cases h
    exact ⟨rfl, rfl⟩
  | tool t | notice n | inject n => cases h

/-- The client closes a bubble at a time that is no empty string. -/
theorem ts_closeOpenAssistant (c : Option String) :
    Ts.closeOpenAssistant items c = closeOpenAssistant items (Ts.truthy c) := rfl

theorem isStreaming_closeItem (c : Option String) (i : TranscriptItem) :
    (closeItem c i).isStreaming = false := by
  cases i with
  | assistant a =>
    simp only [closeItem]
    split_ifs with h
    · rfl
    · simpa [TranscriptItem.isStreaming] using h
  | user u | tool t | notice n | inject n => rfl

theorem isRunningTool_closeItem (c : Option String) (i : TranscriptItem) :
    (closeItem c i).isRunningTool = i.isRunningTool := by
  cases i with
  | assistant a =>
    simp only [closeItem]
    split_ifs <;> rfl
  | user u | tool t | notice n | inject n => rfl

/-- Closing ends the stream of the last item. -/
theorem streaming_closeOpenAssistant (c : Option String) :
    (closeOpenAssistant items c).map (·.isStreaming) =
      (items.map (·.isStreaming)).mapLast fun _ => false :=
  List.map_mapLast_of_comm (isStreaming_closeItem c) items

theorem tools_closeOpenAssistant (c : Option String) :
    (closeOpenAssistant items c).map (·.isRunningTool) = items.map (·.isRunningTool) :=
  List.map_mapLast (isRunningTool_closeItem c) items

theorem streaming_pushItem (i : TranscriptItem) :
    (pushItem items i).map (·.isStreaming) =
      ((items.map (·.isStreaming)).mapLast fun _ => false) ++ [i.isStreaming] := by
  rw [pushItem, List.map_append, streaming_closeOpenAssistant]
  rfl

/-- An open bubble is a last item that streams. -/
theorem isSome_openAssistant : (openAssistant items).isSome = true ↔
    (items.map (·.isStreaming)).getLast? = some true := by
  rcases List.eq_nil_or_concat' items with rfl | ⟨xs, x, rfl⟩
  · exact iff_of_false Bool.false_ne_true (by simp)
  · cases x with
    | assistant a =>
      rw [openAssistant_concat]
      cases h : a.streaming <;> simp [TranscriptItem.isStreaming, h]
    | user u | tool t | notice n | inject n => simp [openAssistant, TranscriptItem.isStreaming]

/-- A delta leaves a bubble open at the end. -/
theorem streaming_foldDelta (ts text : String) (ch : Option AssistantDeltaChannel)
    (e : Option String) : (foldDelta items ts text ch e).map (·.isStreaming) =
      if (items.map (·.isStreaming)).getLast? = some true then items.map (·.isStreaming)
      else items.map (·.isStreaming) ++ [true] := by
  have happend : ∀ xs : List TranscriptItem,
      (xs.mapLast (appendDelta ch text)).map (·.isStreaming) = xs.map (·.isStreaming) := by
    apply List.map_mapLast
    intro i
    cases i with
    | assistant a => exact AssistantItem.append_streaming a ch text
    | user u | tool t | notice n | inject n => rfl
  rw [foldDelta, happend]
  by_cases hopen : (openAssistant items).isSome = true
  · rw [if_pos hopen, if_pos (isSome_openAssistant.mp hopen)]
  · rw [if_neg hopen, if_neg fun h => hopen (isSome_openAssistant.mpr h), List.map_append]
    rfl

theorem streaming_interruptRunningTools (ts : String) :
    (interruptRunningTools items ts).map (·.isStreaming) = items.map (·.isStreaming) := by
  rw [interruptRunningTools, List.map_map]
  apply List.map_congr_left
  intro i _
  cases i with
  | tool t =>
    simp only [Function.comp, interruptItem]
    split_ifs <;> rfl
  | user u | assistant a | notice n | inject n => rfl

/-- What is interrupted does not run. -/
theorem tools_interruptRunningTools (ts : String) :
    (interruptRunningTools items ts).any (·.isRunningTool) = false := by
  rw [interruptRunningTools, List.any_map, List.any_eq_false]
  intro i _
  cases i with
  | tool t =>
    simp only [Function.comp, interruptItem]
    split_ifs with h
    · simp [TranscriptItem.isRunningTool]
    · simpa [TranscriptItem.isRunningTool] using h
  | user u | assistant a | notice n | inject n => simp [interruptItem, TranscriptItem.isRunningTool]

theorem streaming_stampEntryId (kind : EntryIdKind) (e : Option String) :
    (stampEntryId items kind e).map (·.isStreaming) = items.map (·.isStreaming) := by
  cases e with
  | none => rfl
  | some e =>
    exact List.map_modifyLastWhere (fun i j h => (unseen_stampItem kind e i j h).streaming) items

theorem tools_stampEntryId (kind : EntryIdKind) (e : Option String) :
    (stampEntryId items kind e).map (·.isRunningTool) = items.map (·.isRunningTool) := by
  cases e with
  | none => rfl
  | some e =>
    exact List.map_modifyLastWhere (fun i j h => (unseen_stampItem kind e i j h).tools) items

theorem streaming_mapTools (callId : String) (f : ToolItem → ToolItem) :
    (mapTools callId f items).map (·.isStreaming) = items.map (·.isStreaming) := by
  rw [mapTools, List.map_map]
  apply List.map_congr_left
  intro i _
  cases i with
  | tool t =>
    simp only [Function.comp]
    split_ifs <;> rfl
  | user u | assistant a | notice n | inject n => rfl

theorem streaming_modifyTool (callId : String) (f : ToolItem → ToolItem) :
    (Ts.modifyTool callId f items).map (·.isStreaming) = items.map (·.isStreaming) := by
  apply List.map_modifyFirst
  intro i j h
  cases i with
  | tool t =>
    simp only [Ts.toolEdit] at h
    split_ifs at h
    cases h
    rfl
  | user u | assistant a | notice n | inject n => cases h

/-- A tool whose edit does not run it leaves none running when none was. -/
theorem tools_modifyTool (callId : String) {f : ToolItem → ToolItem}
    (hf : ∀ t, (f t).status = .running → t.status = .running)
    (h : items.any (·.isRunningTool) = false) :
    (Ts.modifyTool callId f items).any (·.isRunningTool) = false := by
  have hnone : ∀ xs : List TranscriptItem, xs.any (·.isRunningTool) = false ↔
      ∀ i ∈ xs, i.isRunningTool = false := by
    intro xs
    simp only [List.any_eq_false, Bool.not_eq_true]
  rw [hnone] at h ⊢
  refine List.forall_modifyFirst ?_ h
  intro i j hedit hi
  cases i with
  | tool t =>
    simp only [Ts.toolEdit] at hedit
    split_ifs at hedit
    cases hedit
    simp only [TranscriptItem.isRunningTool, decide_eq_false_iff_not] at hi ⊢
    exact fun hrun => hi (hf t hrun)
  | user u | assistant a | notice n | inject n => cases hedit

end Edits

/-! ### An event -/

section Event

variable {sid : SessionId} {r : Bool} {s s' : SessionState}

/-- What `foldSnapshot` leaves of a state, as far as the turn goes. -/
theorem foldSnapshot_turn (snapshot : SessionSnapshot) (ts : String) :
    (Ts.foldSnapshot s snapshot ts).status = snapshot.status ∧
      (Ts.foldSnapshot s snapshot ts).sessionRef = some snapshot.ref ∧
      (Ts.foldSnapshot s snapshot ts).items =
        if snapshot.status ≠ .running then Ts.closeOpenAssistant s.items (some ts)
        else s.items := by
  unfold Ts.foldSnapshot
  dsimp only
  split_ifs
  · exact ⟨rfl, rfl, rfl⟩
  · exact ⟨rfl, rfl, rfl⟩

/-- Nothing streams at the end of a transcript that was closed. -/
theorem bubble_closeOpenAssistant (items : List TranscriptItem) (c : Option String) :
    (closeOpenAssistant items c).getLast?.any (·.isStreaming) = false := by
  rcases List.eq_nil_or_concat' items with rfl | ⟨xs, x, rfl⟩
  · rfl
  · rw [closeOpenAssistant, List.mapLast_concat, List.getLast?_append]
    exact isStreaming_closeItem c x

/-- A transcript with an item at its end that neither streams nor runs. -/
theorem Settled.pushItem {items : List TranscriptItem} (h : items.any (·.isRunningTool) = false)
    {i : TranscriptItem} (hi : i.isStreaming = false) (hi' : i.isRunningTool = false) :
    Settled (pushItem items i) := by
  constructor
  · rw [Pantoken.pushItem, List.getLast?_append]
    exact hi
  · rw [Pantoken.pushItem, List.any_append, tools_congr (tools_closeOpenAssistant none), h]
    simpa using hi'

/-- An event that keeps the status, the reference and what is settled of a transcript. -/
theorem ShowsTurn.of_settled (h : ShowsTurn sid r s) (hstatus : s'.status = s.status)
    (href : s'.sessionRef = s.sessionRef) (hitems : Settled s.items → Settled s'.items) :
    ShowsTurn sid r s' where
  named := h.named
  ref := href ▸ h.ref
  live := hstatus ▸ h.live
  ended := fun hr => by
    rw [hstatus]
    exact (h.ended hr).imp id fun hs => hs.imp id hitems

/-- A snapshot shows the turn when it is of the session, and no tool runs unless it runs. -/
theorem showsTurn_foldSnapshot_iff (hne : sid ≠ "") (snapshot : SessionSnapshot) (ts : String) :
    ShowsTurn sid (snapshot.status = .running) (Ts.foldSnapshot s snapshot ts) ↔
      snapshot.ref.sessionId = sid ∧ (snapshot.status = .idle ∨ snapshot.status = .initializing →
        s.items.any (·.isRunningTool) = false) := by
  obtain ⟨hstatus, href, hitems⟩ := @foldSnapshot_turn s snapshot ts
  have htools : (Ts.closeOpenAssistant s.items (some ts)).any (·.isRunningTool) =
      s.items.any (·.isRunningTool) := tools_congr (tools_closeOpenAssistant _)
  constructor
  · intro h
    have hsid := h.ref
    rw [href] at hsid
    refine ⟨Option.some.inj hsid, fun hquiet => ?_⟩
    have hnot : snapshot.status ≠ .running ∧ snapshot.status ≠ .failed := by
      rcases hquiet with hq | hq <;> rw [hq] <;> decide
    obtain ⟨-, hover⟩ := h.ended (decide_eq_false hnot.1)
    have hs := hover.resolve_left fun hf => hnot.2 (hstatus ▸ hf)
    rw [hitems, if_pos hnot.1] at hs
    exact htools ▸ hs.tools
  · rintro ⟨hsid, hquiet⟩
    refine ⟨hne, by rw [href]; exact congrArg some hsid, fun hr hf => ?_, fun hr => ?_⟩
    · rw [hstatus, of_decide_eq_true hr] at hf
      cases hf
    · have hnot := of_decide_eq_false hr
      rw [hstatus, hitems, if_pos hnot]
      refine ⟨hnot, ?_⟩
      cases hst : snapshot.status with
      | running => exact absurd hst hnot
      | failed => exact .inl rfl
      | idle =>
        exact .inr ⟨bubble_closeOpenAssistant _ _, htools.trans (hquiet (.inl hst))⟩
      | initializing =>
        exact .inr ⟨bubble_closeOpenAssistant _ _, htools.trans (hquiet (.inr hst))⟩

/-- A run that completes is shown as over, unless its snapshot runs on. -/
theorem showsTurn_runCompleted_iff (hne : sid ≠ "") (base : SessionEventBase)
    (snapshot : SessionSnapshot) (u a : Option String) :
    ShowsTurn sid (snapshot.status = .running)
        (Ts.foldEvent s (.runCompleted base snapshot u a)) ↔
      snapshot.ref.sessionId = sid := by
  obtain ⟨hstatus, href, hitems⟩ := @foldSnapshot_turn s snapshot base.timestamp
  have htools : (Ts.foldEvent s (.runCompleted base snapshot u a)).items.any (·.isRunningTool) =
      false := by
    simp only [Ts.foldEvent, Ts.stampEntryId]
    rw [tools_congr (tools_stampEntryId _ _),
      tools_congr (tools_stampEntryId _ _), tools_interruptRunningTools]
  have hstream : (Ts.foldEvent s (.runCompleted base snapshot u a)).items.map (·.isStreaming) =
      (Ts.foldSnapshot s snapshot base.timestamp).items.map (·.isStreaming) := by
    simp only [Ts.foldEvent, Ts.stampEntryId]
    rw [streaming_stampEntryId, streaming_stampEntryId, streaming_interruptRunningTools]
  constructor
  · intro h
    have hsid : (Ts.foldSnapshot s snapshot base.timestamp).sessionRef.map _ = _ := h.ref
    rw [href] at hsid
    exact Option.some.inj hsid
  · intro hsid
    refine ⟨hne, ?_, fun hr hf => ?_, fun hr => ?_⟩
    · show (Ts.foldSnapshot s snapshot base.timestamp).sessionRef.map _ = _
      rw [href]
      exact congrArg some hsid
    · have hf : (Ts.foldSnapshot s snapshot base.timestamp).status = .failed := hf
      rw [hstatus, of_decide_eq_true hr] at hf
      cases hf
    · have hnot := of_decide_eq_false hr
      refine ⟨fun hrun => hnot (hstatus ▸ hrun), .inr ⟨?_, htools⟩⟩
      rw [bubble_congr hstream, hitems, if_pos hnot]
      exact bubble_closeOpenAssistant _ _

/-- **What one event keeps**: after an event of the session its turn is shown as the running
set has it exactly when the event keeps it. -/
theorem showsTurn_foldEvent_iff (h : ShowsTurn sid r s) (ev : SessionDriverEvent) :
    KeepsTurn sid s ev ↔
      ShowsTurn sid (Register.write (·.writesRunning) r ev) (Ts.foldEvent s ev) := by
  -- what begins a turn, or goes on with it, leaves the status as it is
  have hlive : ∀ s' : SessionState, s'.status = s.status → s'.sessionRef = s.sessionRef →
      (s.status ≠ .failed ↔ ShowsTurn sid true s') := by
    intro s' hstatus href
    constructor
    · intro hnot
      exact ⟨h.named, href ▸ h.ref, fun _ => hstatus ▸ hnot, fun hr => by cases hr⟩
    · intro h'
      exact hstatus ▸ h'.live rfl
  have hpush : ∀ i : TranscriptItem, i.isStreaming = false → i.isRunningTool = false →
      ShowsTurn sid r { s with items := Ts.pushItem s.items i } := by
    intro i hi hi'
    refine h.of_settled rfl rfl fun hs => ?_
    rw [Ts.pushItem_eq]
    exact Settled.pushItem hs.tools hi hi'
  cases ev with
  | sessionOpened base snapshot | sessionUpdated base snapshot =>
    exact (showsTurn_foldSnapshot_iff h.named snapshot base.timestamp).symm
  | runCompleted base snapshot u a =>
    exact (showsTurn_runCompleted_iff h.named base snapshot u a).symm
  | assistantDelta | toolStarted | toolUpdated | userMessage | queuedMessageStarted =>
    exact hlive _ rfl rfl
  | runFailed base error =>
    refine iff_of_true trivial ⟨h.named, h.ref, fun hr => ?_, fun _ => ⟨?_, .inl rfl⟩⟩
    · cases hr
    · rintro ⟨⟩
  | sessionClosed base reason =>
    refine iff_of_true trivial ⟨h.named, h.ref, fun hr => ?_, fun _ => ⟨?_, .inr ⟨?_, ?_⟩⟩⟩
    · cases hr
    · cases reason <;> rintro ⟨⟩
    · exact (bubble_congr (streaming_interruptRunningTools _)).trans (bubble_closeOpenAssistant _ _)
    · exact tools_interruptRunningTools _
  | sessionReset base =>
    exact iff_of_true trivial (h.of_settled rfl rfl fun _ => ⟨rfl, rfl⟩)
  | toolFinished base callId success output images interrupted =>
    refine iff_of_true trivial (h.of_settled rfl rfl fun hs => ⟨?_, ?_⟩)
    · exact (bubble_congr (streaming_modifyTool callId _)).trans hs.bubble
    · refine tools_modifyTool callId (fun t hrun => ?_) hs.tools
      have hnot : finishedStatus success interrupted ≠ .running := by
        unfold finishedStatus
        split_ifs <;> decide
      exact absurd hrun hnot
  | hostUiRequest base request =>
    refine iff_of_true trivial ?_
    simp only [Ts.foldEvent, Ts.foldHostUiRequest]
    split_ifs
    · exact h
    · exact h.of_settled rfl rfl id
    · cases request with
      | notify => exact hpush _ rfl rfl
      | _ => exact h.of_settled rfl rfl id
  | customMessage | extensionCompatibilityIssue => exact iff_of_true trivial (hpush _ rfl rfl)
  | queueUpdated | usageUpdated | hostUiResolved =>
    exact iff_of_true trivial (h.of_settled rfl rfl id)

end Event

/-! ### The server's reducer -/

/-- Two states of one status, one session, and with the same items that stream. -/
structure SameOutline (s s' : SessionState) : Prop where
  status : s.status = s'.status
  ref : s.sessionRef = s'.sessionRef
  streaming : s.items.map (·.isStreaming) = s'.items.map (·.isStreaming)

section Outline

variable {s s' : SessionState}

theorem sameOutline_foldSnapshot (h : SameOutline s s') (snapshot : SessionSnapshot)
    (ts : String) :
    SameOutline (Ts.foldSnapshot s snapshot ts) (foldSnapshot s' snapshot ts) := by
  unfold Ts.foldSnapshot foldSnapshot
  dsimp only
  split_ifs
  · refine ⟨rfl, rfl, ?_⟩
    show (Ts.closeOpenAssistant s.items _).map _ = (closeOpenAssistant s'.items _).map _
    rw [ts_closeOpenAssistant, streaming_closeOpenAssistant, streaming_closeOpenAssistant,
      h.streaming]
  · exact ⟨rfl, rfl, h.streaming⟩

theorem sameOutline_foldHostUiRequest (h : SameOutline s s') (request : HostUiRequest) :
    SameOutline (Ts.foldHostUiRequest s request) (foldHostUiRequest s' request) := by
  have hkeep : ∀ t t' : SessionState, t.status = s.status → t.sessionRef = s.sessionRef →
      t.items = s.items → t'.status = s'.status → t'.sessionRef = s'.sessionRef →
      t'.items = s'.items → SameOutline t t' := by
    intro t t' h₁ h₂ h₃ h₁' h₂' h₃'
    refine ⟨?_, ?_, ?_⟩
    · rw [h₁, h₁', h.status]
    · rw [h₂, h₂', h.ref]
    · rw [h₃, h₃', h.streaming]
  unfold Ts.foldHostUiRequest foldHostUiRequest
  by_cases hdialog : isDialogRequest request = true
  · rw [if_pos hdialog, if_pos hdialog]
    split_ifs <;> exact hkeep _ _ rfl rfl rfl rfl rfl rfl
  · rw [if_neg hdialog, if_neg hdialog]
    cases request with
    | notify rid msg level =>
      refine ⟨h.status, h.ref, ?_⟩
      dsimp only
      rw [Ts.pushItem_eq, streaming_pushItem, streaming_pushItem, h.streaming]
    | _ => exact hkeep _ _ rfl rfl rfl rfl rfl rfl

/-- **The two reducers keep one outline.** -/
theorem sameOutline_foldEvent (h : SameOutline s s') (ev : SessionDriverEvent) :
    SameOutline (Ts.foldEvent s ev) (foldEvent s' ev) := by
  have hpush : ∀ i j : TranscriptItem, i.isStreaming = j.isStreaming →
      (Ts.pushItem s.items i).map (·.isStreaming) =
        (pushItem s'.items j).map (·.isStreaming) := by
    intro i j hij
    rw [Ts.pushItem_eq, streaming_pushItem, streaming_pushItem, h.streaming, hij]
  cases ev with
  | sessionOpened base snapshot | sessionUpdated base snapshot =>
    exact sameOutline_foldSnapshot h snapshot base.timestamp
  | runCompleted base snapshot u a =>
    obtain ⟨hstatus, href, hstream⟩ := sameOutline_foldSnapshot h snapshot base.timestamp
    refine ⟨hstatus, href, ?_⟩
    simp only [Ts.foldEvent, foldEvent, Ts.stampEntryId]
    rw [streaming_stampEntryId, streaming_stampEntryId, streaming_stampEntryId,
      streaming_stampEntryId, streaming_interruptRunningTools, streaming_interruptRunningTools,
      hstream]
  | assistantDelta base text ch e =>
    refine ⟨h.status, h.ref, ?_⟩
    simp only [Ts.foldEvent, foldEvent, streaming_foldDelta, h.streaming]
  | userMessage | customMessage | queuedMessageStarted | toolStarted
  | extensionCompatibilityIssue => exact ⟨h.status, h.ref, hpush _ _ rfl⟩
  | toolUpdated base callId text progress =>
    refine ⟨h.status, h.ref, ?_⟩
    simp only [Ts.foldEvent, foldEvent, streaming_modifyTool, streaming_mapTools, h.streaming]
  | toolFinished base callId success output images interrupted =>
    refine ⟨h.status, h.ref, ?_⟩
    simp only [Ts.foldEvent, foldEvent, streaming_modifyTool, streaming_mapTools, h.streaming]
  | runFailed base error =>
    refine ⟨rfl, h.ref, ?_⟩
    simp only [Ts.foldEvent, foldEvent, ts_closeOpenAssistant, List.map_append,
      streaming_interruptRunningTools, streaming_closeOpenAssistant, h.streaming]
  | sessionClosed base reason =>
    refine ⟨rfl, h.ref, ?_⟩
    simp only [Ts.foldEvent, foldEvent, ts_closeOpenAssistant, streaming_interruptRunningTools,
      streaming_closeOpenAssistant, h.streaming]
  | sessionReset base => exact ⟨h.status, h.ref, rfl⟩
  | hostUiRequest base request => exact sameOutline_foldHostUiRequest h request
  | queueUpdated | usageUpdated | hostUiResolved => exact ⟨h.status, h.ref, h.streaming⟩

theorem sameOutline_foldl (h : SameOutline s s') (evs : List SessionDriverEvent) :
    SameOutline (evs.foldl Ts.foldEvent s) (foldAllFrom s' evs) := by
  induction evs generalizing s s' with
  | nil => exact h
  | cons ev evs ih => exact ih (sameOutline_foldEvent h ev)

theorem sameOutline_foldAll (evs : List SessionDriverEvent) :
    SameOutline (Ts.foldAll evs) (foldAll evs) := sameOutline_foldl ⟨rfl, rfl, rfl⟩ evs

/-- **After a reset both show the same turn**: nothing is left of the transcript that could
stream or run. -/
theorem sameTurn_sessionReset {t : SessionState} (base : SessionEventBase)
    (h : SameOutline s s') (ht : SameOutline t (foldEvent s' (.sessionReset base))) :
    SameTurn t (Ts.foldEvent s (.sessionReset base)) := by
  have hempty : t.items = [] := List.map_eq_nil_iff.mp ht.streaming
  refine ⟨?_, ?_, ?_, ?_⟩
  · exact ht.status.trans h.status.symm
  · exact ht.ref.trans h.ref.symm
  · rw [hempty]
    rfl
  · rw [hempty]
    rfl

end Outline

end Pantoken
