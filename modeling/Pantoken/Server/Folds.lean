import Pantoken.Server.Moves

/-!
# What the journals fold to

A part of the folded state that an event changes by itself, and a delta not at all, is a view
of it.  The journal of a session shows a view the events it was sent, whether or not a delta
of it is still held back, and short of the install of a seed every step of the server leaves
the view to the events it delivers.

## Main definitions

* `FoldView` — a part of the folded state, and what an event does to it.
* `SessionHub.folded` — what a session's journal folds to there.
* `Server.refreshes` — the usages a section of the applier emits.

## Main results

* `folded_of_carries`, `folded_onEvent` — the view after events that were carried, and after
  one.
* `folded_startJournal`, `folded_install` — the view of a journal that is begun anew.
* `folded_tick` — **short of an install and a refresh of the usage, a section of the applier
  leaves every view as it is.**
-/

namespace Pantoken

/-- A part of the folded state, and what an event does to it. -/
structure FoldView (β : Type*) where
  view : SessionState → β
  step : β → SessionDriverEvent → β
  view_foldEvent : ∀ st ev, view (foldEvent st ev) = step (view st) ev
  /-- A delta leaves it alone. -/
  step_delta : ∀ b ev, SessionHub.isDelta ev = true → step b ev = b

/-- What a session's journal folds to. -/
def SessionHub.folded {β : Type*} (h : SessionHub) (v : FoldView β) (sid : SessionId) : Option β :=
  (h.journals sid).map fun j => v.view (foldAll (buildSeed j).2.2)

/-- The usages that a section of the applier emits, if it is a refresh of them. -/
def Server.refreshes (s : Server) : Answer → Option (Timestamp × List (SessionId × SessionUsage))
  | .usages nowIso usages =>
    match s.phase, s.queue with
    | .idle, .liveRefresh :: _ => some (nowIso, usages)
    | _, _ => none
  | _ => none

section Folds

variable {β : Type*} {v : FoldView β} {serde : Serde} {h h' : SessionHub} {s : Server}

theorem FoldView.view_foldAllFrom (v : FoldView β) (st : SessionState)
    (evs : List SessionDriverEvent) :
    v.view (foldAllFrom st evs) = evs.foldl v.step (v.view st) := by
  induction evs generalizing st with
  | nil => rfl
  | cons ev evs ih => rw [foldAllFrom_cons, ih, v.view_foldEvent, List.foldl_cons]

theorem FoldView.foldl_of_forall (v : FoldView β) {evs : List SessionDriverEvent}
    (hevs : ∀ ev ∈ evs, ∀ b, v.step b ev = b) (b : β) : evs.foldl v.step b = b := by
  induction evs with
  | nil => rfl
  | cons ev evs ih =>
    rw [List.foldl_cons, hevs ev List.mem_cons_self]
    exact ih fun ev' hev' => hevs ev' (List.mem_cons_of_mem _ hev')

/-- A pending delta has no part in a view. -/
theorem SessionHub.Sound.folded_eq (hs : h.Sound serde) (v : FoldView β) (sid : SessionId) :
    h.folded v sid = (h.transcript sid).map v.view := by
  unfold SessionHub.folded SessionHub.transcript
  rw [Option.map_map]
  congr 1
  funext j
  cases hp : h.pendingDeltas sid with
  | none => simp
  | some ev =>
    rw [Function.comp, Option.toList_some, foldAll_concat, v.view_foldEvent,
      v.step_delta _ ev (hs.pending sid ev hp).1]

theorem SessionHub.isSome_folded (h : SessionHub) (v : FoldView β) (sid : SessionId) :
    (h.folded v sid).isSome = h.hasJournal sid := by
  rw [SessionHub.folded, Option.isSome_map, SessionHub.hasJournal]

theorem SessionHub.folded_eq_none {h : SessionHub} {v : FoldView β} {sid : SessionId} :
    h.folded v sid = none ↔ h.hasJournal sid = false := by
  rw [← Option.isNone_iff_eq_none, ← h.isSome_folded v, ← Option.not_isSome,
    Bool.not_eq_true']

/-- The view after events that were carried. -/
theorem folded_of_carries {evs : List SessionDriverEvent} (hs : h.Sound serde)
    (hs' : h'.Sound serde) (hc : Carries h h' evs) {sid : SessionId}
    (hj : h'.hasJournal sid = true) :
    ∃ b, h.folded v sid = some b ∧
      h'.folded v sid = some ((evs.filter (·.sid = sid)).foldl v.step b) := by
  rw [← SessionHub.isSome_transcript] at hj
  obtain ⟨st', hst'⟩ := Option.isSome_iff_exists.mp hj
  obtain ⟨st, hst, rfl⟩ := (hc sid).1 st' hst'
  refine ⟨v.view st, ?_, ?_⟩
  · rw [hs.folded_eq, hst, Option.map_some]
  · rw [hs'.folded_eq, hst', Option.map_some, v.view_foldAllFrom]

/-- Events that do nothing to a view leave it as it is, when no journal goes. -/
theorem folded_eq_of_carries {evs : List SessionDriverEvent} (hs : h.Sound serde)
    (hs' : h'.Sound serde) (hc : Carries h h' evs)
    (hj : ∀ sid, h'.hasJournal sid = h.hasJournal sid)
    (hevs : ∀ ev ∈ evs, ∀ b, v.step b ev = b) : h'.folded v = h.folded v := by
  funext sid
  cases hsid : h'.hasJournal sid with
  | false =>
    rw [SessionHub.folded_eq_none.mpr hsid,
      SessionHub.folded_eq_none.mpr ((hj sid).symm.trans hsid)]
  | true =>
    obtain ⟨b, hb, hb'⟩ := folded_of_carries (v := v) hs hs' hc hsid
    rw [hb, hb', v.foldl_of_forall fun ev hev => hevs ev (List.mem_filter.mp hev).1]

/-- The view after an event of the driver, in a session that keeps its journal. -/
theorem folded_onEvent (hs : h.Sound serde) (m : Moment) {ev : SessionDriverEvent}
    {sid : SessionId} (hj : (h.onEvent serde m ev).hasJournal sid = true) :
    ∃ b, h.folded v sid = some b ∧
      (h.onEvent serde m ev).folded v sid = some (if ev.sid = sid then v.step b ev else b) := by
  obtain ⟨hs', hc⟩ := hs.onEvent m ev
  obtain ⟨b, hb, hb'⟩ := folded_of_carries (v := v) hs hs' hc hj
  refine ⟨b, hb, hb'.trans (congrArg some ?_)⟩
  split_ifs with hsid
  · rw [List.filter_cons_of_pos (by simpa using hsid)]
    rfl
  · rw [List.filter_cons_of_neg (by simpa using hsid)]
    rfl

theorem folded_sameStore (hstore : h.SameStore h') : h'.folded v = h.folded v := by
  unfold SessionHub.folded
  rw [hstore.1]

theorem folded_flushPending (hs : h.Sound serde) (order : HashOrder) (sid : SessionId) :
    (h.flushPending serde order sid).folded v = h.folded v := by
  apply folded_eq_of_carries hs (hs.flushPending order sid)
    (carries_of_log_eq (hs.flushPending_log order sid)) (flushPending_hasJournal order sid)
  intro ev hev
  cases hev

/-- A view that no usage changes. -/
def FoldView.IgnoresUsage (v : FoldView β) : Prop :=
  ∀ b base usage, v.step b (.usageUpdated base usage) = b

theorem folded_refreshUsage (hv : v.IgnoresUsage) (hs : h.Sound serde) (m : Moment)
    (nowIso : String) (usages : List (SessionId × SessionUsage)) :
    (h.refreshUsage serde m nowIso usages).folded v = h.folded v := by
  have hkeep : SessionHub.Sound serde (h.refreshUsage serde m nowIso usages) ∧
      (h.refreshUsage serde m nowIso usages).folded v = h.folded v := by
    unfold SessionHub.refreshUsage
    refine List.foldlRecOn (motive := fun h' => SessionHub.Sound serde h' ∧
      h'.folded v = h.folded v) usages _ ⟨hs, rfl⟩ ?_
    rintro h' ⟨hs', heq⟩ u -
    split
    · next j _ =>
      obtain ⟨hs'', hc⟩ := hs'.ingest m (SessionHub.usageEvent j u.1 nowIso u.2)
      refine ⟨hs'', Eq.trans ?_ heq⟩
      apply folded_eq_of_carries hs' hs'' hc (ingest_hasJournal m _)
      intro ev hev b
      rw [List.mem_singleton.mp hev]
      exact hv b _ u.2
    · exact ⟨hs', heq⟩
  exact hkeep.2

/-- A journal begun anew folds to what its seed does, the others keep what they fold to. -/
theorem folded_startJournal (sid : SessionId) (seed : List SessionDriverEvent)
    (s : SessionId) : (h.startJournal sid seed).folded v s =
      if s = sid then some (v.view (foldAll seed)) else h.folded v s := by
  unfold SessionHub.folded SessionHub.startJournal SessionHub.setJournal
  dsimp only
  rw [PMap.insert_apply]
  split_ifs with hsid
  · have hrep := @represents_create ⟨fun _ => 0, fun _ => none⟩ h.nextEpoch.epochCounter seed
    have hfold := foldAll_buildSeed hrep
    rw [List.append_nil] at hfold
    rw [Option.map_some, hfold]
  · rfl

theorem folded_install (key : Nat) (sw : Switch) (seed : SwapSeed) (sid : SessionId)
    (first : Option FirstPrompt) (s' : SessionId) :
    (s.install key sw seed sid first).hub.folded v s' =
      if s' = sid ∧ (sw.reseed = true ∨ s.hub.hasJournal sid = false) then
        some (v.view (foldAll seed.events))
      else s.hub.folded v s' := by
  rw [folded_sameStore (sameStore_install s key sw seed sid first).1, Server.installJournal]
  by_cases hfresh : sw.reseed = true ∨ s.hub.hasJournal sid = false
  · rw [if_pos hfresh, folded_startJournal]
    by_cases hsid : s' = sid
    · rw [if_pos hsid, if_pos ⟨hsid, hfresh⟩]
    · rw [if_neg hsid, if_neg fun hh => hsid hh.1]
      rfl
  · rw [if_neg hfresh, if_neg fun hh => hfresh hh.2]

/-- A section of the applier installs a seed, or the phase is another. -/
theorem tick_install_or (serde : Serde) (s : Server) (m : Moment) (answer : Answer) :
    (∃ key sw seed sid first, s.phase = .switching key sw (.folded seed sid) first ∧
        s.tick serde m answer = s.install key sw seed sid first) ∨
      ∀ key sw seed sid first, s.phase ≠ .switching key sw (.folded seed sid) first := by
  by_cases hfolded : ∃ key sw seed sid first, s.phase = .switching key sw (.folded seed sid) first
  · obtain ⟨key, sw, seed, sid, first, hphase⟩ := hfolded
    exact .inl ⟨key, sw, seed, sid, first, hphase, tick_folded hphase m answer⟩
  · exact .inr fun key sw seed sid first heq => hfolded ⟨key, sw, seed, sid, first, heq⟩

/-- **Short of an install and a refresh of the usage, a section of the applier leaves every
view as it is.** -/
theorem folded_tick {s : Server} (hs : s.Sound serde)
    (hphase : ∀ key sw seed sid first, s.phase ≠ .switching key sw (.folded seed sid) first)
    (m : Moment) {answer : Answer} (hv : v.IgnoresUsage ∨ s.refreshes answer = none) :
    (s.tick serde m answer).hub.folded v = s.hub.folded v := by
  unfold Server.tick
  split
  · next hidle =>
    split
    · rfl
    · next op queue hqueue =>
      cases op with
      | prompt | switch | newSession => rfl
      -- what is flushed is a delta, in which no view has a part
      | deltaFlush sid => exact folded_flushPending hs.hub m.order sid
      | liveRefresh =>
        cases answer with
        | usages nowIso usages =>
          rcases hv with hv | hnone
          · exact folded_refreshUsage hv hs.hub m nowIso usages
          · rw [Server.refreshes, hidle, hqueue] at hnone
            cases hnone
        | ok | failed | panicked | seed => rfl
      | detachSession key path =>
        simp only [Server.start]
        split
        · rfl
        · exact folded_sameStore ⟨rfl, rfl, rfl⟩
  · next key call _ =>
    exact folded_sameStore (sameStore_tickPrompting hs.phase key call answer).1
  · next key sw stage first hp =>
    have hstage : ∀ seed sid, stage ≠ .folded seed sid := by
      rintro seed sid rfl
      exact hphase key sw seed sid first hp
    exact folded_sameStore (sameStore_tickSwitch hs.phase key sw hstage first answer).1

end Folds

end Pantoken
