import Pantoken.Protocol.Regular
import Pantoken.Protocol.Turn

/-!
# The open bubble

A delta joins the bubble that is still open, and the merge of deltas rests on where that one
is: whatever adds an item closes the bubble first, so that only the last item ever streams.
With what the reducer keeps of its dialogs and widgets this is the structure of a folded state.

## Main definitions

* `LastStreams` — only the last item may stream.
* `SessionState.Structured` — the structure of a folded state.

## Main results

* `LastStreams.foldEvent` — every event keeps the bubble at the end.
* `structured_foldAll` — **every folded state is structured, and no event breaks that.**
-/

namespace Pantoken

section Bubble

variable {items : List TranscriptItem}

/-- Only the last item may stream. -/
def LastStreams (items : List TranscriptItem) : Prop :=
  ∀ b ∈ (items.map (·.isStreaming)).dropLast, b = false

theorem lastStreams_of_mapLast {bs : List Bool} (h : ∀ b ∈ bs.dropLast, b = false) :
    ∀ b ∈ bs.mapLast fun _ => false, b = false := by
  rcases List.eq_nil_or_concat' bs with rfl | ⟨cs, c, rfl⟩
  · simp
  · rw [List.dropLast_concat] at h
    rw [List.mapLast_concat]
    intro b hb
    rcases List.mem_append.mp hb with hb | hb
    · exact h b hb
    · exact List.mem_singleton.mp hb

theorem LastStreams.congr {items' : List TranscriptItem} (h : LastStreams items)
    (hmap : items'.map (·.isStreaming) = items.map (·.isStreaming)) : LastStreams items' := by
  unfold LastStreams
  rw [hmap]
  exact h

/-- A closed transcript streams nowhere. -/
theorem LastStreams.closed (h : LastStreams items) (c : Option String) :
    ∀ i ∈ closeOpenAssistant items c, i.isStreaming = false := by
  intro i hi
  have hmem := List.mem_map_of_mem (f := (·.isStreaming)) hi
  rw [streaming_closeOpenAssistant] at hmem
  exact lastStreams_of_mapLast h _ hmem

/-- What comes after items that do not stream may. -/
theorem lastStreams_concat (h : ∀ i ∈ items, i.isStreaming = false) (i : TranscriptItem) :
    LastStreams (items ++ [i]) := by
  unfold LastStreams
  rw [List.map_append, List.map_singleton, List.dropLast_concat]
  intro b hb
  obtain ⟨j, hj, rfl⟩ := List.mem_map.mp hb
  exact h j hj

theorem lastStreams_of_forall (h : ∀ i ∈ items, i.isStreaming = false) : LastStreams items := by
  intro b hb
  obtain ⟨i, hi, rfl⟩ := List.mem_map.mp (List.mem_of_mem_dropLast hb)
  exact h i hi

theorem LastStreams.closeOpenAssistant (h : LastStreams items) (c : Option String) :
    LastStreams (closeOpenAssistant items c) := lastStreams_of_forall (h.closed c)

theorem LastStreams.pushItem (h : LastStreams items) (i : TranscriptItem) :
    LastStreams (pushItem items i) := lastStreams_concat (h.closed none) i

theorem LastStreams.foldDelta (h : LastStreams items) (ts text : String)
    (ch : Option AssistantDeltaChannel) (e : Option String) :
    LastStreams (foldDelta items ts text ch e) := by
  unfold LastStreams at h ⊢
  rw [streaming_foldDelta]
  split_ifs with hlast
  · exact h
  · -- the last item does not stream either, so that none does
    rw [List.dropLast_concat]
    rcases List.eq_nil_or_concat' (items.map (·.isStreaming)) with hnil | ⟨bs, b, hbs⟩
    · simp [hnil]
    · rw [hbs, List.dropLast_concat] at h
      rw [hbs, List.getLast?_append] at hlast
      rw [hbs]
      intro b' hb'
      rcases List.mem_append.mp hb' with hb' | hb'
      · exact h b' hb'
      · rw [List.mem_singleton.mp hb']
        simpa using hlast

end Bubble

section Events

variable {s : SessionState}

theorem LastStreams.foldSnapshot (h : LastStreams s.items) (snapshot : SessionSnapshot)
    (ts : String) : LastStreams (foldSnapshot s snapshot ts).items := by
  unfold Pantoken.foldSnapshot
  dsimp only
  split
  · exact h.closeOpenAssistant _
  · exact h

theorem LastStreams.foldHostUiRequest (h : LastStreams s.items) (request : HostUiRequest) :
    LastStreams (foldHostUiRequest s request).items := by
  unfold Pantoken.foldHostUiRequest
  split
  · split <;> exact h
  · split
    · exact h
    · exact h
    · exact h
    · exact h.pushItem _
    · exact h
    · exact h

/-- **Every event keeps the bubble at the end**: what adds an item closes the bubble first, and
no edit opens one. -/
theorem LastStreams.foldEvent (h : LastStreams s.items) (ev : SessionDriverEvent) :
    LastStreams (foldEvent s ev).items := by
  cases ev with
  | sessionOpened base snapshot => exact h.foldSnapshot snapshot base.timestamp
  | sessionUpdated base snapshot => exact h.foldSnapshot snapshot base.timestamp
  | runCompleted base snapshot u a =>
    refine (h.foldSnapshot snapshot base.timestamp).congr ?_
    dsimp only [Pantoken.foldEvent]
    rw [streaming_stampEntryId, streaming_stampEntryId, streaming_interruptRunningTools]
  | userMessage => exact h.pushItem _
  | customMessage => exact h.pushItem _
  | queuedMessageStarted => exact h.pushItem _
  | toolStarted => exact h.pushItem _
  | extensionCompatibilityIssue => exact h.pushItem _
  | assistantDelta => exact h.foldDelta _ _ _ _
  | toolUpdated => exact h.congr (streaming_mapTools _ _)
  | toolFinished => exact h.congr (streaming_mapTools _ _)
  | runFailed base error =>
    refine lastStreams_concat (fun i hi => ?_) _
    -- an interrupted tool was none that streams
    have hmem := List.mem_map_of_mem (f := (·.isStreaming)) hi
    rw [streaming_interruptRunningTools] at hmem
    obtain ⟨j, hj, hji⟩ := List.mem_map.mp hmem
    exact hji ▸ h.closed none j hj
  | hostUiRequest base request => exact h.foldHostUiRequest request
  | sessionClosed base reason =>
    exact (h.closeOpenAssistant (some base.timestamp)).congr (streaming_interruptRunningTools _)
  | sessionReset => exact fun b hb => absurd hb List.not_mem_nil
  | queueUpdated | usageUpdated | hostUiResolved => exact h

theorem LastStreams.foldAllFrom (evs : List SessionDriverEvent) :
    ∀ {s : SessionState}, LastStreams s.items → LastStreams (foldAllFrom s evs).items := by
  induction evs with
  | nil => exact fun h => h
  | cons ev evs ih => exact fun h => ih (h.foldEvent ev)

end Events

/-! ### The structure of a state -/

/-- The structure of a folded state. -/
structure SessionState.Structured (s : SessionState) : Prop extends SessionState.Regular s where
  /-- At most one item streams. -/
  single : s.items.countP (·.isStreaming) ≤ 1
  /-- An item that streams is the last. -/
  last : ∀ pre i post, s.items = pre ++ i :: post → i.isStreaming = true → post = []

section Structured

variable {s : SessionState}

theorem LastStreams.eq_nil_of_append {items pre post : List TranscriptItem} {i : TranscriptItem}
    (h : LastStreams items) (hitems : items = pre ++ i :: post) (hi : i.isStreaming = true) :
    post = [] := by
  by_contra hpost
  have hfalse : i.isStreaming = false := by
    apply h
    rw [hitems, List.map_append, List.map_cons, List.dropLast_append_of_ne_nil (by simp),
      List.dropLast_cons_of_ne_nil (by simpa using hpost)]
    exact List.mem_append_right _ List.mem_cons_self
  rw [hi] at hfalse
  cases hfalse

/-- What is not last does not stream. -/
theorem LastStreams.countP_le {items : List TranscriptItem} (h : LastStreams items) :
    items.countP (·.isStreaming) ≤ 1 := by
  rcases List.eq_nil_or_concat' items with rfl | ⟨xs, x, rfl⟩
  · simp
  · have hxs : xs.countP (·.isStreaming) = 0 := by
      apply List.countP_eq_zero.mpr
      intro i hi hstream
      have hfalse : i.isStreaming = false := by
        apply h
        rw [List.map_append, List.map_singleton, List.dropLast_concat]
        exact List.mem_map_of_mem hi
      rw [hstream] at hfalse
      cases hfalse
    have hx : [x].countP (·.isStreaming) ≤ [x].length := List.countP_le_length
    rw [List.countP_append, hxs]
    simpa using hx

theorem structured_iff : s.Structured ↔ s.Regular ∧ LastStreams s.items := by
  constructor
  · intro h
    refine ⟨h.toRegular, ?_⟩
    rcases List.eq_nil_or_concat' s.items with hnil | ⟨xs, x, hxs⟩
    · rw [hnil]
      exact fun b hb => absurd hb List.not_mem_nil
    · rw [hxs]
      refine lastStreams_concat (fun i hi => ?_) x
      obtain ⟨pre, post, rfl⟩ := List.append_of_mem hi
      rw [Bool.eq_false_iff]
      intro hstream
      have hnil := h.last pre i (post ++ [x]) (by simp [hxs]) hstream
      simp at hnil
  · rintro ⟨hregular, hlast⟩
    exact ⟨hregular, hlast.countP_le, fun pre i post => hlast.eq_nil_of_append⟩

theorem SessionState.Structured.foldEvent (h : s.Structured) (ev : SessionDriverEvent) :
    (foldEvent s ev).Structured := by
  obtain ⟨hregular, hlast⟩ := structured_iff.mp h
  exact structured_iff.mpr ⟨regular_foldEvent hregular ev, hlast.foldEvent ev⟩

/-- **Every folded state is structured, and no event breaks that.** -/
theorem structured_foldAll :
    (∀ evs, (foldAll evs).Structured) ∧
      ∀ s : SessionState, s.Structured → ∀ ev, (foldEvent s ev).Structured := by
  refine ⟨fun evs => ?_, fun s h ev => h.foldEvent ev⟩
  have hinit : LastStreams initialSessionState.items := fun b hb => absurd hb List.not_mem_nil
  exact structured_iff.mpr ⟨regular_foldAll evs, hinit.foldAllFrom evs⟩

end Structured

end Pantoken
