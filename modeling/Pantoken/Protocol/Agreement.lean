import Pantoken.Lib.Run
import Pantoken.Protocol.StateTs

/-!
# Where the two reducers agree

The server and the clients fold one event stream with two reducers.  They differ on
degenerate input only: an empty string where one tests for presence and the other for
truth, a call id that two tool items share, a record key that is no record key.
`SameFold` says that an event brings none of these to a state.

## Main definitions

* `lastEntryId`, `repeatedTools` — what the conditions read off a transcript.
* `SameFold` — the two reducers treat an event alike.

## Main results

* `sameFold_iff` — **one step of both is the same exactly under this condition.**
* `sameFold_along_iff` — **they agree after every part of a stream exactly when every
  event of it meets the condition.**
-/

namespace Pantoken

/-! ### The conditions -/

/-- The entry id of an item of the kind. -/
def entryIdOf (kind : EntryIdKind) : TranscriptItem → Option (Option String)
  | .user u => if kind = .user then some u.entryId else none
  | .assistant a => if kind = .assistant then some a.entryId else none
  | _ => none

/-- The entry id of the last item of the kind. -/
def lastEntryId (kind : EntryIdKind) (items : List TranscriptItem) : Option (Option String) :=
  items.reverse.findSome? (entryIdOf kind)

/-- The tool, when the item is one with the call id. -/
def toolWith (callId : String) : TranscriptItem → Option ToolItem
  | .tool t => if t.id = callId then some t else none
  | _ => none

/-- The tool items that share a call id with an earlier one. -/
def repeatedTools (callId : String) (items : List TranscriptItem) : List ToolItem :=
  (items.filterMap (toolWith callId)).tail

/-- Closing the open bubble at a time is the same: the time is no empty string, or no
bubble is open. -/
def SameClose (items : List TranscriptItem) (timestamp : String) : Prop :=
  timestamp ≠ "" ∨ openAssistant items = none

/-- Stamping an entry id is the same: it is no empty string, or the item that would be
stamped has it already, or there is none. -/
def SameStamp (items : List TranscriptItem) (kind : EntryIdKind) (entryId : Option String) :
    Prop :=
  entryId ≠ some "" ∨ ∀ e, lastEntryId kind items = some e → e = some ""

/-- The two reducers treat an event alike in a state. -/
def SameFold (s : SessionState) : SessionDriverEvent → Prop
  | .sessionOpened base snapshot | .sessionUpdated base snapshot =>
    snapshot.status = .running ∨ SameClose s.items base.timestamp
  | .runCompleted base snapshot userEntryId assistantEntryId =>
    (snapshot.status = .running ∨ SameClose s.items base.timestamp) ∧
      SameStamp s.items .assistant assistantEntryId ∧ SameStamp s.items .user userEntryId
  | .sessionClosed base _ => SameClose s.items base.timestamp
  | .toolUpdated _ callId text progress =>
    ∀ t ∈ repeatedTools callId s.items, updateTool text progress t = t
  | .toolFinished base callId success output images interrupted =>
    ∀ t ∈ repeatedTools callId s.items,
      finishTool success output images interrupted base.timestamp t = t
  | .hostUiRequest _ (.status _ key text) => text ≠ some "" ∧ (key = "__proto__" → text = none)
  | .hostUiRequest _ (.widget _ key lines _) => key = "__proto__" → lines.getD [] = []
  | _ => True

/-! ### What both reducers keep -/

/-- An open bubble has no completion time. -/
def TranscriptItem.Unstamped : TranscriptItem → Prop
  | .assistant a => a.streaming = true → a.completedAt = none
  | _ => True

/-- What holds of a state as long as the reducers agree. -/
structure Untouched (s : SessionState) : Prop where
  items : ∀ i ∈ s.items, i.Unstamped
  statuses : s.ambient.statuses "__proto__" = none
  widgets : s.ambient.widgets "__proto__" = none

section Unstamped

variable {items : List TranscriptItem}

theorem unstamped_closeItem (c : Option String) (i : TranscriptItem) (h : i.Unstamped) :
    (closeItem c i).Unstamped := by
  cases i with
  | assistant a =>
    simp only [closeItem]
    split
    · intro hs
      cases hs
    · exact h
  | user | tool | notice | inject => trivial

theorem unstamped_stampItem (kind : EntryIdKind) (e : String) (i j : TranscriptItem)
    (hij : stampItem kind e i = some j) (h : i.Unstamped) : j.Unstamped := by
  cases i with
  | assistant a =>
    simp only [stampItem, Option.ite_none_right_eq_some, Option.some.injEq] at hij
    rw [← hij.2]
    exact h
  | user u =>
    simp only [stampItem, Option.ite_none_right_eq_some, Option.some.injEq] at hij
    rw [← hij.2]
    trivial
  | tool | notice | inject => cases hij

theorem unstamped_closeOpenAssistant (h : ∀ i ∈ items, i.Unstamped) (c : Option String) :
    ∀ i ∈ closeOpenAssistant items c, i.Unstamped :=
  List.forall_mapLast (unstamped_closeItem c) h

theorem unstamped_stampEntryId (h : ∀ i ∈ items, i.Unstamped) (kind : EntryIdKind)
    (e : Option String) : ∀ i ∈ stampEntryId items kind e, i.Unstamped := by
  cases e with
  | none => exact h
  | some e => exact List.forall_modifyLastWhere (unstamped_stampItem kind e) h

theorem unstamped_pushItem (h : ∀ i ∈ items, i.Unstamped) {i : TranscriptItem}
    (hi : i.Unstamped) : ∀ j ∈ pushItem items i, j.Unstamped := by
  intro j hj
  rcases List.mem_append.mp hj with hj | hj
  · exact unstamped_closeOpenAssistant h none j hj
  · rw [List.mem_singleton.mp hj]
    exact hi

theorem unstamped_interruptRunningTools (h : ∀ i ∈ items, i.Unstamped) (ts : String) :
    ∀ i ∈ interruptRunningTools items ts, i.Unstamped := by
  intro i hi
  obtain ⟨j, hj, rfl⟩ := List.mem_map.mp hi
  have := h j hj
  cases j with
  | tool t =>
    simp only [interruptItem]
    split <;> trivial
  | user | assistant | notice | inject => exact this

theorem unstamped_mapTools (h : ∀ i ∈ items, i.Unstamped) (callId : String)
    (f : ToolItem → ToolItem) : ∀ i ∈ mapTools callId f items, i.Unstamped := by
  intro i hi
  obtain ⟨j, hj, rfl⟩ := List.mem_map.mp hi
  have := h j hj
  cases j with
  | tool t =>
    dsimp only
    split <;> trivial
  | user | assistant | notice | inject => exact this

theorem unstamped_foldDelta (h : ∀ i ∈ items, i.Unstamped) (ts text : String)
    (ch : Option AssistantDeltaChannel) (e : Option String) :
    ∀ i ∈ foldDelta items ts text ch e, i.Unstamped := by
  refine List.forall_mapLast (fun i hi => ?_) ?_
  · cases i with
    | assistant a => rcases ch with _ | _ | _ <;> exact hi
    | user | tool | notice | inject => trivial
  · intro i hi
    split at hi
    · exact h i hi
    · rcases List.mem_append.mp hi with hi | hi
      · exact h i hi
      · rw [List.mem_singleton.mp hi]
        exact fun _ => rfl

end Unstamped

theorem untouched_initialSessionState : Untouched initialSessionState where
  items := by simp [initialSessionState]
  statuses := rfl
  widgets := rfl

theorem Untouched.foldSnapshot {s : SessionState} (h : Untouched s) (snapshot : SessionSnapshot)
    (ts : String) : Untouched (foldSnapshot s snapshot ts) := by
  unfold Pantoken.foldSnapshot
  dsimp only
  split
  · exact ⟨unstamped_closeOpenAssistant h.items _, h.statuses, h.widgets⟩
  · exact ⟨h.items, h.statuses, h.widgets⟩

theorem Untouched.foldHostUiRequest {s : SessionState} (h : Untouched s)
    {base : SessionEventBase} {request : HostUiRequest}
    (hsame : SameFold s (.hostUiRequest base request)) :
    Untouched (foldHostUiRequest s request) := by
  unfold Pantoken.foldHostUiRequest
  split
  · split
    · exact h
    · exact ⟨h.items, h.statuses, h.widgets⟩
  · split
    · next key text _ =>
      have hkey : ∀ t, text = some t → "__proto__" ≠ key := by
        rintro t rfl hk
        cases hsame.2 hk.symm
      refine ⟨h.items, ?_, h.widgets⟩
      cases text with
      | none => simp [foldStatus, PMap.erase_apply, h.statuses]
      | some t => simp [foldStatus, hkey t rfl, h.statuses]
    · next key lines placement _ =>
      refine ⟨h.items, h.statuses, ?_⟩
      rcases lines with _ | _ | ⟨l, ls⟩
      · simp [foldWidget, PMap.erase_apply, h.widgets]
      · simp [foldWidget, PMap.erase_apply, h.widgets]
      · have hkey : "__proto__" ≠ key := fun hk => by cases hsame hk.symm
        simp [foldWidget, hkey, h.widgets]
    · exact ⟨h.items, h.statuses, h.widgets⟩
    · exact ⟨unstamped_pushItem h.items trivial, h.statuses, h.widgets⟩
    · exact ⟨h.items, rfl, rfl⟩
    · exact h

/-- A step on which the reducers agree keeps what holds as long as they do. -/
theorem Untouched.foldEvent {s : SessionState} (h : Untouched s) (ev : SessionDriverEvent)
    (hsame : SameFold s ev) : Untouched (foldEvent s ev) := by
  cases ev with
  | sessionOpened base snapshot => exact h.foldSnapshot snapshot _
  | sessionUpdated base snapshot => exact h.foldSnapshot snapshot _
  | runCompleted base snapshot u a =>
    have h' := h.foldSnapshot snapshot base.timestamp
    exact
      ⟨unstamped_stampEntryId
        (unstamped_stampEntryId (unstamped_interruptRunningTools h'.items _) _ _) _ _,
        h'.statuses, h'.widgets⟩
  | hostUiRequest base request => exact h.foldHostUiRequest hsame
  | assistantDelta => exact ⟨unstamped_foldDelta h.items _ _ _ _, h.statuses, h.widgets⟩
  | toolUpdated => exact ⟨unstamped_mapTools h.items _ _, h.statuses, h.widgets⟩
  | toolFinished => exact ⟨unstamped_mapTools h.items _ _, h.statuses, h.widgets⟩
  | runFailed base error =>
    refine ⟨fun i hi => ?_, h.statuses, h.widgets⟩
    rcases List.mem_append.mp hi with hi | hi
    · exact unstamped_interruptRunningTools (unstamped_closeOpenAssistant h.items _) _ i hi
    · rw [List.mem_singleton.mp hi]
      trivial
  | sessionClosed =>
    exact ⟨unstamped_interruptRunningTools (unstamped_closeOpenAssistant h.items _) _,
      h.statuses, h.widgets⟩
  | sessionReset => exact ⟨by simp [Pantoken.foldEvent], h.statuses, h.widgets⟩
  | userMessage | customMessage | queuedMessageStarted | toolStarted
  | extensionCompatibilityIssue =>
    exact ⟨unstamped_pushItem h.items trivial, h.statuses, h.widgets⟩
  | queueUpdated | usageUpdated | hostUiResolved => exact ⟨h.items, h.statuses, h.widgets⟩

/-! ### Closing a bubble -/

/-- The completion time of an assistant item. -/
def completionOf : TranscriptItem → Option (Option String)
  | .assistant a => some a.completedAt
  | _ => none

section Close

variable {items : List TranscriptItem} {ts : String}

theorem closeItem_of_closed (h : openAssistant items = none) (c : Option String) :
    closeOpenAssistant items c = items ∧ Ts.closeOpenAssistant items c = items := by
  have hlast : ∀ x, items.getLast? = some x → closeItem c x = x ∧ Ts.closeItem c x = x := by
    intro x hx
    cases x with
    | assistant a =>
      have hs : a.streaming = false := by simpa [openAssistant, hx] using h
      simp [closeItem, Ts.closeItem, hs]
    | user | tool | notice | inject => exact ⟨rfl, rfl⟩
  exact ⟨List.mapLast_eq_self fun x hx => (hlast x hx).1,
    List.mapLast_eq_self fun x hx => (hlast x hx).2⟩

theorem SameClose.eq (h : SameClose items ts) :
    closeOpenAssistant items (some ts) = Ts.closeOpenAssistant items (some ts) := by
  rcases h with hts | hopen
  · have hitem : closeItem (some ts) = Ts.closeItem (some ts) := by
      funext i
      cases i <;> simp [closeItem, Ts.closeItem, Ts.truthy, Option.filter, hts]
    rw [closeOpenAssistant, Ts.closeOpenAssistant, hitem]
  · rw [(closeItem_of_closed hopen _).1, (closeItem_of_closed hopen _).2]

/-- An empty time is stored by one reducer only, which shows in the completion times. -/
theorem sameClose_of_completionOf (hU : ∀ i ∈ items, i.Unstamped)
    (h : (closeOpenAssistant items (some ts)).map completionOf =
      (Ts.closeOpenAssistant items (some ts)).map completionOf) : SameClose items ts := by
  by_contra hno
  simp only [SameClose, not_or, not_not] at hno
  obtain ⟨rfl, hopen⟩ := hno
  obtain ⟨a, ha⟩ := Option.ne_none_iff_exists'.mp hopen
  obtain ⟨hs, xs, rfl⟩ := exists_of_openAssistant ha
  have hc : a.completedAt = none := hU (.assistant a) (by simp) hs
  simp [closeOpenAssistant, Ts.closeOpenAssistant, closeItem, Ts.closeItem, hs, hc, completionOf,
    Ts.truthy, Option.filter] at h

end Close

/-! ### Stamping an entry id -/

section Stamp

variable {items : List TranscriptItem} {kind : EntryIdKind}

/-- An item is stamped exactly when it is of the kind, and then carries the id. -/
theorem stampItem_cases (kind : EntryIdKind) (e : String) (i : TranscriptItem) :
    (stampItem kind e i = none ∧ entryIdOf kind i = none) ∨
      ∃ j x, stampItem kind e i = some j ∧ entryIdOf kind i = some x ∧
        entryIdOf kind j = some (some e) ∧ (x = some e → j = i) := by
  cases i with
  | user u =>
    cases kind with
    | user => exact .inr ⟨_, _, rfl, rfl, rfl, fun h => by rw [← h]⟩
    | assistant => exact .inl ⟨rfl, rfl⟩
  | assistant a =>
    cases kind with
    | user => exact .inl ⟨rfl, rfl⟩
    | assistant => exact .inr ⟨_, _, rfl, rfl, rfl, fun h => by rw [← h]⟩
  | tool | notice | inject => exact .inl ⟨rfl, rfl⟩

theorem modifyFirst_stampItem {e : String} {xs : List TranscriptItem}
    (h : ∀ x, xs.findSome? (entryIdOf kind) = some x → x = some e) :
    xs.modifyFirst (stampItem kind e) = xs := by
  induction xs with
  | nil => rfl
  | cons i xs ih =>
    unfold List.modifyFirst
    rcases stampItem_cases kind e i with ⟨hs, hi⟩ | ⟨j, x, hs, hi, -, hj⟩
    · rw [List.findSome?_cons, hi] at h
      simp [hs, ih h]
    · rw [List.findSome?_cons, hi] at h
      simp [hs, hj (h x rfl)]

theorem findSome?_of_map_modifyFirst {e : String} {xs : List TranscriptItem}
    (h : (xs.modifyFirst (stampItem kind e)).map (entryIdOf kind) = xs.map (entryIdOf kind)) :
    ∀ x, xs.findSome? (entryIdOf kind) = some x → x = some e := by
  induction xs with
  | nil => simp
  | cons i xs ih =>
    unfold List.modifyFirst at h
    rw [List.findSome?_cons]
    rcases stampItem_cases kind e i with ⟨hs, hi⟩ | ⟨j, x, hs, hi, hj, -⟩
    · rw [hi]
      exact ih (by simpa [hs] using h)
    · rw [hi]
      rintro y hy
      cases hy
      simpa [hs, hi, hj, eq_comm] using h

theorem SameStamp.eq {entryId : Option String} (h : SameStamp items kind entryId) :
    stampEntryId items kind entryId = Ts.stampEntryId items kind entryId := by
  rcases entryId with _ | e
  · rfl
  · by_cases he : e = ""
    · subst he
      have hlast := h.resolve_left (not_not.mpr rfl)
      simp [Ts.stampEntryId, Ts.truthy, Option.filter, stampEntryId, stampLastEntryId,
        List.modifyLastWhere, modifyFirst_stampItem hlast]
    · simp [Ts.stampEntryId, Ts.truthy, Option.filter, he]

/-- An empty id is stored by one reducer only, which shows in the entry ids. -/
theorem sameStamp_of_entryIdOf {entryId : Option String}
    (h : (stampEntryId items kind entryId).map (entryIdOf kind) =
      (Ts.stampEntryId items kind entryId).map (entryIdOf kind)) :
    SameStamp items kind entryId := by
  by_cases he : entryId = some ""
  · subst he
    refine .inr (findSome?_of_map_modifyFirst ?_)
    have := congrArg List.reverse h
    simpa [Ts.stampEntryId, Ts.truthy, Option.filter, stampEntryId, stampLastEntryId,
      List.modifyLastWhere, ← List.map_reverse] using this
  · exact .inl he

end Stamp

/-! ### What the other edits leave alone -/

section Frame

variable (items : List TranscriptItem) (kind : EntryIdKind)

theorem entryIdOf_closeOpenAssistant (c : Option String) :
    (closeOpenAssistant items c).map (entryIdOf kind) = items.map (entryIdOf kind) := by
  refine List.map_mapLast (fun i => ?_) items
  cases i with
  | assistant a =>
    simp only [closeItem]
    split <;> rfl
  | user | tool | notice | inject => rfl

theorem entryIdOf_interruptRunningTools (ts : String) :
    (interruptRunningTools items ts).map (entryIdOf kind) = items.map (entryIdOf kind) := by
  rw [interruptRunningTools, List.map_map]
  refine List.map_congr_left fun i _ => ?_
  cases i with
  | tool t =>
    simp only [Function.comp_apply, interruptItem]
    split <;> rfl
  | user | assistant | notice | inject => rfl

theorem completionOf_interruptRunningTools (ts : String) :
    (interruptRunningTools items ts).map completionOf = items.map completionOf := by
  rw [interruptRunningTools, List.map_map]
  refine List.map_congr_left fun i _ => ?_
  cases i with
  | tool t =>
    simp only [Function.comp_apply, interruptItem]
    split <;> rfl
  | user | assistant | notice | inject => rfl

theorem completionOf_stampEntryId (e : Option String) :
    (stampEntryId items kind e).map completionOf = items.map completionOf := by
  cases e with
  | none => rfl
  | some e =>
    refine List.map_modifyLastWhere (fun i j hij => ?_) items
    cases i <;> cases kind <;> cases hij <;> rfl

/-- Stamping the items of one kind leaves those of the other alone. -/
theorem entryIdOf_stampEntryId {kind' : EntryIdKind} (hk : kind' ≠ kind) (e : Option String) :
    (stampEntryId items kind' e).map (entryIdOf kind) = items.map (entryIdOf kind) := by
  cases e with
  | none => rfl
  | some e =>
    refine List.map_modifyLastWhere (fun i j hij => ?_) items
    cases i <;> cases kind' <;> cases kind <;> cases hij <;> first | rfl | exact absurd rfl hk

variable {items kind}

theorem lastEntryId_congr {items' : List TranscriptItem}
    (h : items'.map (entryIdOf kind) = items.map (entryIdOf kind)) :
    lastEntryId kind items' = lastEntryId kind items := by
  have hread : ∀ xs : List TranscriptItem,
      lastEntryId kind xs = (xs.map (entryIdOf kind)).reverse.findSome? id := by
    intro xs
    rw [← List.map_reverse, List.findSome?_map]
    rfl
  rw [hread, hread, h]

theorem sameStamp_congr {items' : List TranscriptItem} {e : Option String}
    (h : items'.map (entryIdOf kind) = items.map (entryIdOf kind)) :
    SameStamp items' kind e ↔ SameStamp items kind e := by
  rw [SameStamp, SameStamp, lastEntryId_congr h]

end Frame

/-! ### Tools -/

section Tools

variable {callId : String} {f : ToolItem → ToolItem}

theorem mapTools_cons (i : TranscriptItem) (items : List TranscriptItem) :
    mapTools callId f (i :: items) =
      (match i with
        | .tool t => if t.id = callId then .tool (f t) else .tool t
        | i => i) :: mapTools callId f items := rfl

theorem mapTools_eq_self_iff (items : List TranscriptItem) :
    mapTools callId f items = items ↔ ∀ t ∈ items.filterMap (toolWith callId), f t = t := by
  induction items with
  | nil => simp [mapTools]
  | cons i items ih =>
    rw [mapTools_cons, List.cons.injEq, ih]
    cases i with
    | tool t => by_cases ht : t.id = callId <;> simp [toolWith, ht]
    | user | assistant | notice | inject => simp [toolWith]

/-- Editing all the tools with a call id is editing the first one exactly when the edit
fixes the others. -/
theorem mapTools_eq_modifyTool_iff (items : List TranscriptItem) :
    mapTools callId f items = Ts.modifyTool callId f items ↔
      ∀ t ∈ repeatedTools callId items, f t = t := by
  induction items with
  | nil => simp [mapTools, Ts.modifyTool, repeatedTools]
  | cons i items ih =>
    rw [mapTools_cons, Ts.modifyTool, List.modifyFirst, repeatedTools]
    rw [Ts.modifyTool, repeatedTools] at ih
    cases i with
    | tool t =>
      by_cases ht : t.id = callId
      · simp [Ts.toolEdit, toolWith, ht, mapTools_eq_self_iff]
      · simp [Ts.toolEdit, toolWith, ht, ih]
    | user | assistant | notice | inject =>
      simp [Ts.toolEdit, List.filterMap_cons, toolWith, ih]

end Tools

/-! ### One step and whole streams -/

section Step

variable {s : SessionState}

theorem items_inj {s : SessionState} {xs ys : List TranscriptItem} :
    ({ s with items := xs } : SessionState) = { s with items := ys } ↔ xs = ys :=
  ⟨congrArg SessionState.items, fun h => by rw [h]⟩

/-- Both reducers apply a snapshot alike, and differ in its completion times only. -/
theorem sameClose_of_foldSnapshot (h : Untouched s) (snapshot : SessionSnapshot) (ts : String)
    (heq : (foldSnapshot s snapshot ts).items.map completionOf =
      (Ts.foldSnapshot s snapshot ts).items.map completionOf) :
    snapshot.status = .running ∨ SameClose s.items ts := by
  by_cases hrun : snapshot.status = .running
  · exact .inl hrun
  · unfold foldSnapshot Ts.foldSnapshot at heq
    rw [if_pos hrun, if_pos hrun] at heq
    exact .inr (sameClose_of_completionOf h.items heq)

theorem foldSnapshot_eq_iff (h : Untouched s) (snapshot : SessionSnapshot) (ts : String) :
    snapshot.status = .running ∨ SameClose s.items ts ↔
      foldSnapshot s snapshot ts = Ts.foldSnapshot s snapshot ts := by
  constructor
  · rintro (hrun | hclose)
    · simp [foldSnapshot, Ts.foldSnapshot, hrun]
    · have hitems : (applySnapshot s snapshot).items = s.items := rfl
      simp only [foldSnapshot, Ts.foldSnapshot, hitems, hclose.eq]
  · intro heq
    exact sameClose_of_foldSnapshot h snapshot ts (by rw [heq])

/-- Both reducers stamp the assistant's id, then the user's. -/
theorem stampEntryId_eq_iff (items : List TranscriptItem) (u a : Option String) :
    SameStamp items .assistant a ∧ SameStamp items .user u ↔
      stampEntryId (stampEntryId items .assistant a) .user u =
        Ts.stampEntryId (Ts.stampEntryId items .assistant a) .user u := by
  constructor
  · rintro ⟨ha, hu⟩
    have hu' := (sameStamp_congr (e := u)
      (entryIdOf_stampEntryId items .user (show EntryIdKind.assistant ≠ .user by decide) a)).mpr hu
    rw [hu'.eq, ha.eq]
  · intro heq
    have ha : SameStamp items .assistant a := by
      refine sameStamp_of_entryIdOf ?_
      have hframe : ∀ (xs : List TranscriptItem) (e : Option String),
          (stampEntryId xs .user e).map (entryIdOf .assistant) = xs.map (entryIdOf .assistant) :=
        fun xs e => entryIdOf_stampEntryId xs .assistant (by decide) e
      have hmap := congrArg (List.map (entryIdOf .assistant)) heq
      rwa [Ts.stampEntryId, hframe, hframe] at hmap
    refine ⟨ha, ?_⟩
    rw [← ha.eq] at heq
    have hu := sameStamp_of_entryIdOf (congrArg (List.map (entryIdOf .user)) heq)
    exact (sameStamp_congr (entryIdOf_stampEntryId items .user (by decide) a)).mp hu

theorem foldRunCompleted_eq_iff (h : Untouched s) (base : SessionEventBase)
    (snapshot : SessionSnapshot) (u a : Option String) :
    SameFold s (.runCompleted base snapshot u a) ↔
      foldEvent s (.runCompleted base snapshot u a) =
        Ts.foldEvent s (.runCompleted base snapshot u a) := by
  have hids : ∀ kind, (foldSnapshot s snapshot base.timestamp).items.map (entryIdOf kind) =
      s.items.map (entryIdOf kind) := by
    intro kind
    unfold foldSnapshot
    split
    · exact entryIdOf_closeOpenAssistant _ _ _
    · rfl
  have hstamps : ∀ items : List TranscriptItem,
      (∀ kind, items.map (entryIdOf kind) = s.items.map (entryIdOf kind)) →
      (SameStamp s.items .assistant a ∧ SameStamp s.items .user u ↔
        SameStamp items .assistant a ∧ SameStamp items .user u) := fun items hi => by
    rw [sameStamp_congr (hi .assistant), sameStamp_congr (hi .user)]
  simp only [SameFold, foldEvent, Ts.foldEvent]
  constructor
  · rintro ⟨hclose, hstamp⟩
    rw [← (foldSnapshot_eq_iff h snapshot base.timestamp).mp hclose, items_inj,
      ← stampEntryId_eq_iff, ← hstamps]
    · exact hstamp
    · intro kind
      rw [entryIdOf_interruptRunningTools, hids]
  · -- the completion times show the close, the entry ids then the stamps
    intro heq
    have hitems := congrArg SessionState.items heq
    have hcompletion := congrArg (List.map completionOf) hitems
    simp only [Ts.stampEntryId, completionOf_stampEntryId, completionOf_interruptRunningTools]
      at hcompletion
    have hclose := sameClose_of_foldSnapshot h snapshot base.timestamp hcompletion
    rw [← (foldSnapshot_eq_iff h snapshot base.timestamp).mp hclose] at hitems
    have hstamp := (stampEntryId_eq_iff _ u a).mpr hitems
    refine ⟨hclose, (hstamps _ fun kind => ?_).mpr hstamp⟩
    rw [entryIdOf_interruptRunningTools, hids]

theorem foldStatus_eq_iff {m : PMap String String} (h : m "__proto__" = none) (key : String)
    (text : Option String) :
    (text ≠ some "" ∧ (key = "__proto__" → text = none)) ↔
      foldStatus m key text = Ts.foldStatus m key text := by
  cases text with
  | none => simp [foldStatus, Ts.foldStatus, Ts.truthy]
  | some t =>
    by_cases ht : t = ""
    · -- the server stores the empty text, the client removes the key
      subst ht
      have hne : foldStatus m key (some "") ≠ Ts.foldStatus m key (some "") := fun heq => by
        simpa [foldStatus, Ts.foldStatus, Ts.truthy, Option.filter] using congrFun heq key
      simp [hne]
    · by_cases hk : key = "__proto__"
      · -- the server stores the text, the client has nowhere to
        subst hk
        have hne : foldStatus m "__proto__" (some t) ≠ Ts.foldStatus m "__proto__" (some t) :=
          fun heq => by
            simpa [foldStatus, Ts.foldStatus, Ts.truthy, Option.filter, ht, Ts.setKey, h]
              using congrFun heq "__proto__"
        simp [hne]
      · simp [foldStatus, Ts.foldStatus, Ts.truthy, Option.filter, ht, Ts.setKey, hk]

theorem foldWidget_eq_iff {m : PMap String AmbientWidget} (h : m "__proto__" = none)
    (key : String) (lines : Option (List String)) (placement : Option WidgetPlacement) :
    (key = "__proto__" → lines.getD [] = []) ↔
      foldWidget m key lines placement = Ts.foldWidget m key lines placement := by
  rcases lines with _ | _ | ⟨l, ls⟩
  · simp [foldWidget, Ts.foldWidget]
  · simp [foldWidget, Ts.foldWidget]
  · by_cases hk : key = "__proto__"
    · subst hk
      have hne : foldWidget m "__proto__" (some (l :: ls)) placement ≠
          Ts.foldWidget m "__proto__" (some (l :: ls)) placement := fun heq => by
        simpa [foldWidget, Ts.foldWidget, Ts.setKey, h] using congrFun heq "__proto__"
      simp [hne]
    · simp [foldWidget, Ts.foldWidget, Ts.setKey, hk]

theorem foldHostUiRequest_eq_iff (h : Untouched s) (base : SessionEventBase)
    (request : HostUiRequest) :
    SameFold s (.hostUiRequest base request) ↔
      foldHostUiRequest s request = Ts.foldHostUiRequest s request := by
  cases request with
  | status rid key text =>
    refine (foldStatus_eq_iff h.statuses key text).trans ⟨fun heq => ?_, fun heq => ?_⟩
    · simp [foldHostUiRequest, Ts.foldHostUiRequest, isDialogRequest, heq]
    · exact congrArg (fun s => s.ambient.statuses) heq
  | widget rid key lines placement =>
    refine (foldWidget_eq_iff h.widgets key lines placement).trans ⟨fun heq => ?_, fun heq => ?_⟩
    · simp [foldHostUiRequest, Ts.foldHostUiRequest, isDialogRequest, heq]
    · exact congrArg (fun s => s.ambient.widgets) heq
  | notify rid message level =>
    simp [SameFold, foldHostUiRequest, Ts.foldHostUiRequest, isDialogRequest]
  | confirm | unknown | input | select | editor | qna | plan | permission | title | editorText
  | reset => exact ⟨fun _ => rfl, fun _ => trivial⟩

/-- **One step of both reducers is the same exactly when `SameFold` holds.** -/
theorem sameFold_iff (h : Untouched s) (ev : SessionDriverEvent) :
    SameFold s ev ↔ foldEvent s ev = Ts.foldEvent s ev := by
  cases ev with
  | sessionOpened base snapshot => exact foldSnapshot_eq_iff h snapshot base.timestamp
  | sessionUpdated base snapshot => exact foldSnapshot_eq_iff h snapshot base.timestamp
  | runCompleted base snapshot u a => exact foldRunCompleted_eq_iff h base snapshot u a
  | hostUiRequest base request => exact foldHostUiRequest_eq_iff h base request
  | toolUpdated base callId text progress =>
    exact (mapTools_eq_modifyTool_iff s.items).symm.trans items_inj.symm
  | toolFinished base callId success output images interrupted =>
    exact (mapTools_eq_modifyTool_iff s.items).symm.trans items_inj.symm
  | sessionClosed base reason =>
    refine ⟨fun hclose => ?_, fun heq => ?_⟩
    · simp only [foldEvent, Ts.foldEvent, SameClose.eq hclose]
    · have hitems := congrArg (fun s => s.items.map completionOf) heq
      simp only [foldEvent, Ts.foldEvent, completionOf_interruptRunningTools] at hitems
      exact sameClose_of_completionOf h.items hitems
  | userMessage | customMessage | queuedMessageStarted | toolStarted | runFailed
  | extensionCompatibilityIssue => simp [SameFold, foldEvent, Ts.foldEvent]
  | assistantDelta | queueUpdated | usageUpdated | hostUiResolved | sessionReset =>
    exact ⟨fun _ => rfl, fun _ => trivial⟩

end Step

/-- **The reducers agree after every part of a stream exactly when every event of it meets
the condition** in the state it is folded into. -/
theorem sameFold_along_iff (evs : List SessionDriverEvent) :
    (∀ pre, pre <+: evs → foldAll pre = Ts.foldAll pre) ↔
      Along foldEvent SameFold initialSessionState evs :=
  (along_iff_foldl_eq (I := Untouched) (fun _ ev h hsame => h.foldEvent ev hsame)
    (fun _ ev h => sameFold_iff h ev) untouched_initialSessionState evs).symm

/-- Two tools under one call id, the first of them settled again: the server settles both
items, the client the first.  And a status with an empty text: the server stores it, the
client removes it. -/
theorem foldAll_ne_ts :
    let base : SessionEventBase := ⟨⟨"w", "s"⟩, "t", none⟩
    let tools : List SessionDriverEvent :=
      [.toolStarted base "bash" "call" none none none,
        .toolStarted base "bash" "call" none none none,
        .toolFinished base "call" true none none none]
    let status : List SessionDriverEvent := [.hostUiRequest base (.status "r" "key" (some ""))]
    foldAll tools ≠ Ts.foldAll tools ∧ foldAll status ≠ Ts.foldAll status := by
  intro base tools status
  have hstatuses : ∀ evs : List SessionDriverEvent,
      ((foldAll evs).items.map fun i => match i with | .tool t => some t.status | _ => none) ≠
          ((Ts.foldAll evs).items.map
            fun i => match i with | .tool t => some t.status | _ => none) →
        foldAll evs ≠ Ts.foldAll evs := fun evs hne heq => hne (by rw [heq])
  refine ⟨hstatuses tools (by decide), fun heq => ?_⟩
  have hkey := congrArg (fun s => s.ambient.statuses "key") heq
  simp [status, foldAll, Ts.foldAll, foldEvent, Ts.foldEvent, foldHostUiRequest,
    Ts.foldHostUiRequest, isDialogRequest, foldStatus, Ts.foldStatus, Ts.truthy,
    Option.filter] at hkey

end Pantoken
