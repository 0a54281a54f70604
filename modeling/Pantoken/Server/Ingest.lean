import Pantoken.Server.Hub

/-!
# Ingestion loses nothing

A session's journal and its pending delta stand for one log.  Flushing moves the end of
that log from one to the other; ingesting an event adds it to the end, whether it joins
the pending delta, waits as a new one or goes to the journal behind a flush.  A
`sessionReset` begins a new log that folds to what the reset makes of the old one.

## Main definitions

* `SessionHub.log`, `SessionHub.transcript` — the log of a session, and its fold.
* `SessionHub.Sound` — the journals stand for logs, a pending delta has a journal.
* `Carries` — from one hub to another, the logs grew by the given events.
* `IngestOp` — an event or the firing of a flush timer.

## Main results

* `SessionHub.Sound.flushPending`, `SessionHub.Sound.onEvent` — a flush carries nothing,
  an event carries itself.
* `carries_ingest` — **a run of events and flushes carries exactly its events.**
-/

namespace Pantoken

/-! ### Logs and transcripts -/

/-- What the journal of a session and its pending delta hold, coalesced. -/
def SessionHub.log (h : SessionHub) (sid : SessionId) : Option (List SessionDriverEvent) :=
  (h.journals sid).map fun j =>
    coalesceEvents ((buildSeed j).2.2 ++ (h.pendingDeltas sid).toList)

/-- What the journal of a session and its pending delta fold to. -/
def SessionHub.transcript (h : SessionHub) (sid : SessionId) : Option SessionState :=
  (h.journals sid).map fun j => foldAll ((buildSeed j).2.2 ++ (h.pendingDeltas sid).toList)

/-- Coalescing does not change what a log folds to. -/
theorem SessionHub.transcript_eq (h : SessionHub) (sid : SessionId) :
    h.transcript sid = (h.log sid).map foldAll := by
  unfold transcript log
  cases h.journals sid with
  | none => rfl
  | some j => simp [foldAll_coalesceEvents]

theorem SessionHub.isSome_transcript (h : SessionHub) (sid : SessionId) :
    (h.transcript sid).isSome = h.hasJournal sid := by
  simp [transcript, hasJournal]

/-- The event is a `sessionReset`. -/
def isReset : SessionDriverEvent → Bool
  | .sessionReset _ => true
  | _ => false

theorem isReset_of_isDelta {ev : SessionDriverEvent} (h : SessionHub.isDelta ev = true) :
    isReset ev = false := by
  cases ev <;> first | rfl | cases h

/-! ### Journals that take an event -/

/-- A session keeps its reference once it has one. -/
theorem isSome_sessionRef_foldEvent {s : SessionState} (h : s.sessionRef.isSome)
    (ev : SessionDriverEvent) : (foldEvent s ev).sessionRef.isSome := by
  have hsnap : ∀ snapshot ts, (foldSnapshot s snapshot ts).sessionRef.isSome := by
    intro snapshot ts
    unfold foldSnapshot
    dsimp only
    split <;> rfl
  cases ev with
  | sessionOpened base snapshot => exact hsnap snapshot base.timestamp
  | sessionUpdated base snapshot => exact hsnap snapshot base.timestamp
  | runCompleted base snapshot => exact hsnap snapshot base.timestamp
  | hostUiRequest base request =>
    simp only [foldEvent, foldHostUiRequest]
    split
    · split <;> exact h
    · split <;> exact h
  | _ => exact h

theorem isSome_sessionRef_foldAllFrom {s : SessionState} (h : s.sessionRef.isSome)
    (evs : List SessionDriverEvent) : (foldAllFrom s evs).sessionRef.isSome := by
  induction evs generalizing s with
  | nil => exact h
  | cons ev evs ih => exact ih (isSome_sessionRef_foldEvent h ev)

/-- A journal that stands for a log, and whose session is known. -/
structure SessionJournal.Sound (serde : Serde) (j : SessionJournal) : Prop where
  represents : ∃ seed log, Represents serde j seed log
  opened : (foldAll (buildSeed j).2.2).sessionRef.isSome

/-- The journal after an event: a `sessionReset` restarts it, any other is appended. -/
def stampJournal (serde : Serde) (order : HashOrder) (epoch : Nat) (j : SessionJournal)
    (ev : SessionDriverEvent) : SessionJournal :=
  if isReset ev then resetJournal order j ev epoch else appendEvent serde j ev

section Stamp

variable {serde : Serde} {j : SessionJournal}

theorem coalesce_appendEvent (hj : j.Sound serde) (ev : SessionDriverEvent)
    (rest : List SessionDriverEvent) :
    coalesceEvents ((buildSeed (appendEvent serde j ev)).2.2 ++ rest) =
      coalesceEvents ((buildSeed j).2.2 ++ ev :: rest) := by
  obtain ⟨seed, log, hrep⟩ := hj.represents
  rw [(hrep.append ev).buildSeed_events, hrep.buildSeed_events, coalesceEvents, coalesceEvents,
    tryMerge_lawful.coalesce_coalesce_append, coalesceEvents, coalesceEvents,
    tryMerge_lawful.coalesce_coalesce_append]
  simp only [List.append_assoc, List.singleton_append]

theorem foldAll_stampJournal (hj : j.Sound serde) (order : HashOrder) (epoch : Nat)
    (ev : SessionDriverEvent) :
    foldAll (buildSeed (stampJournal serde order epoch j ev)).2.2 =
      foldEvent (foldAll (buildSeed j).2.2) ev := by
  unfold stampJournal
  split
  · next hr =>
    cases ev with
    | sessionReset base => exact foldAll_resetJournal order j base epoch hj.opened
    | _ => cases hr
  · obtain ⟨seed, log, hrep⟩ := hj.represents
    rw [foldAll_buildSeed (hrep.append ev), foldAll_buildSeed hrep, ← List.append_assoc,
      foldAll_concat]

theorem SessionJournal.Sound.stampJournal (hj : j.Sound serde) (order : HashOrder) (epoch : Nat)
    (ev : SessionDriverEvent) : (stampJournal serde order epoch j ev).Sound serde where
  represents := by
    obtain ⟨seed, log, hrep⟩ := hj.represents
    unfold Pantoken.stampJournal
    split
    · exact ⟨_, [], represents_bump j epoch _⟩
    · exact ⟨seed, log ++ [ev], hrep.append ev⟩
  opened := by
    rw [foldAll_stampJournal hj]
    exact isSome_sessionRef_foldEvent hj.opened ev

end Stamp

/-! ### Hubs -/

/-- The journals stand for logs of known sessions, and a pending event is a delta of a
session with a journal. -/
structure SessionHub.Sound (serde : Serde) (h : SessionHub) : Prop where
  journal : ∀ sid j, h.journals sid = some j → j.Sound serde
  pending : ∀ sid ev, h.pendingDeltas sid = some ev →
    SessionHub.isDelta ev = true ∧ ev.sid = sid ∧ h.hasJournal sid = true
  off : h.deltaFlushMs = 0 → ∀ sid, h.pendingDeltas sid = none

/-- The part of a hub its logs are read from. -/
def SessionHub.SameStore (h h' : SessionHub) : Prop :=
  h'.journals = h.journals ∧ h'.pendingDeltas = h.pendingDeltas ∧ h'.deltaFlushMs = h.deltaFlushMs

theorem SessionHub.SameStore.log {h h' : SessionHub} (heq : h.SameStore h') : h'.log = h.log := by
  funext sid
  unfold SessionHub.log
  rw [heq.1, heq.2.1]

theorem SessionHub.SameStore.sound {serde : Serde} {h h' : SessionHub} (heq : h.SameStore h')
    (hs : h.Sound serde) : h'.Sound serde := by
  obtain ⟨hj, hp, hd⟩ := heq
  refine ⟨fun sid j => ?_, fun sid ev => ?_, fun hoff sid => ?_⟩
  · rw [hj]
    exact hs.journal sid j
  · rw [hp, SessionHub.hasJournal, hj]
    exact hs.pending sid ev
  · rw [hp]
    exact hs.off (hd ▸ hoff) sid

/-- The logs of `h'` are those of `h` with the given events at the end; a session may
have lost its journal. -/
def Carries (h h' : SessionHub) (evs : List SessionDriverEvent) : Prop :=
  ∀ sid,
    let mine := evs.filter (·.sid = sid)
    (∀ t', h'.transcript sid = some t' →
      ∃ t, h.transcript sid = some t ∧ t' = foldAllFrom t mine) ∧
    ((∀ ev ∈ mine, isReset ev = false) → ∀ l', h'.log sid = some l' →
      ∃ l, h.log sid = some l ∧ l' = coalesceEvents (l ++ mine))

section Carries

variable {h h' h'' : SessionHub} {evs evs' : List SessionDriverEvent}

theorem coalesceEvents_log {sid : SessionId} {l : List SessionDriverEvent}
    (hl : h.log sid = some l) : coalesceEvents l = l := by
  obtain ⟨j, -, rfl⟩ := Option.map_eq_some_iff.mp hl
  have := tryMerge_lawful.coalesce_coalesce_append
    ((buildSeed j).2.2 ++ (h.pendingDeltas sid).toList) []
  rwa [List.append_nil, List.append_nil] at this

/-- Losing journals carries nothing. -/
theorem carries_of_log_le (hle : ∀ sid l, h'.log sid = some l → h.log sid = some l) :
    Carries h h' [] := by
  refine fun sid => ⟨fun t' ht' => ⟨t', ?_, rfl⟩, fun _ l' hl' => ⟨l', hle sid l' hl', ?_⟩⟩
  · rw [SessionHub.transcript_eq] at ht' ⊢
    obtain ⟨l, hl, rfl⟩ := Option.map_eq_some_iff.mp ht'
    rw [hle sid l hl]
    rfl
  · rw [List.filter_nil, List.append_nil, coalesceEvents_log hl']

theorem carries_of_log_eq (heq : h'.log = h.log) : Carries h h' [] :=
  carries_of_log_le fun sid l hl => by rwa [heq] at hl

/-- What two steps carry is what they carry together. -/
theorem Carries.trans (hc : Carries h h' evs) (hc' : Carries h' h'' evs') :
    Carries h h'' (evs ++ evs') := by
  intro sid
  obtain ⟨hc₁, hl₁⟩ := hc sid
  obtain ⟨hc₂, hl₂⟩ := hc' sid
  dsimp only
  rw [List.filter_append]
  refine ⟨fun t'' ht'' => ?_, fun hr l'' hl'' => ?_⟩
  · obtain ⟨t', ht', rfl⟩ := hc₂ t'' ht''
    obtain ⟨t, ht, rfl⟩ := hc₁ t' ht'
    exact ⟨t, ht, (foldAllFrom_append t _ _).symm⟩
  · obtain ⟨l', hl', rfl⟩ := hl₂ (fun ev hev => hr ev (List.mem_append_right _ hev)) l'' hl''
    obtain ⟨l, hl, rfl⟩ := hl₁ (fun ev hev => hr ev (List.mem_append_left _ hev)) l' hl'
    refine ⟨l, hl, ?_⟩
    rw [coalesceEvents, coalesceEvents, tryMerge_lawful.coalesce_coalesce_append,
      List.append_assoc, ← coalesceEvents]

/-- One event, from what happens to the log of its own session and to the others. -/
theorem Carries.of_event {ev : SessionDriverEvent}
    (hother : ∀ sid, ev.sid ≠ sid → h'.log sid = h.log sid)
    (hself : ∀ l', h'.log ev.sid = some l' → ∃ l, h.log ev.sid = some l ∧
      foldAll l' = foldEvent (foldAll l) ev ∧
      (isReset ev = false → l' = coalesceEvents (l ++ [ev]))) : Carries h h' [ev] := by
  intro sid
  by_cases hsid : ev.sid = sid
  · subst hsid
    have hmine : [ev].filter (·.sid = ev.sid) = [ev] := by simp
    rw [hmine]
    refine ⟨fun t' ht' => ?_, fun hr l' hl' => ?_⟩
    · rw [SessionHub.transcript_eq] at ht'
      obtain ⟨l', hl', rfl⟩ := Option.map_eq_some_iff.mp ht'
      obtain ⟨l, hl, hfold, -⟩ := hself l' hl'
      exact ⟨foldAll l, by rw [SessionHub.transcript_eq, hl]; rfl, hfold⟩
    · obtain ⟨l, hl, -, hlog⟩ := hself l' hl'
      exact ⟨l, hl, hlog (hr ev List.mem_cons_self)⟩
  · have hmine : [ev].filter (·.sid = sid) = [] := by simp [hsid]
    rw [hmine]
    refine ⟨fun t' ht' => ⟨t', ?_, rfl⟩, fun _ l' hl' => ⟨l', ?_, ?_⟩⟩
    · rwa [SessionHub.transcript_eq, hother sid hsid, ← SessionHub.transcript_eq] at ht'
    · rwa [hother sid hsid] at hl'
    · rw [List.append_nil, coalesceEvents_log hl']

end Carries

/-! ### The ingestion path -/

section Ingest

variable {serde : Serde} {h : SessionHub}

/-- What `ingest_now` does to the journals. -/
theorem ingestNow_journals (order : HashOrder) (ev : SessionDriverEvent) :
    (h.ingestNow serde order ev).journals =
      match h.journals ev.sid with
      | some j => h.journals.insert ev.sid (stampJournal serde order (h.epochCounter + 1) j ev)
      | none => h.journals := by
  unfold SessionHub.ingestNow
  cases h.journals ev.sid with
  | none => rfl
  | some j => cases ev <;> rfl

theorem ingestNow_pendingDeltas (order : HashOrder) (ev : SessionDriverEvent) :
    (h.ingestNow serde order ev).pendingDeltas = h.pendingDeltas := by
  unfold SessionHub.ingestNow
  cases h.journals ev.sid with
  | none => rfl
  | some j => cases ev <;> rfl

theorem ingestNow_hasJournal (order : HashOrder) (ev : SessionDriverEvent) (sid : SessionId) :
    (h.ingestNow serde order ev).hasJournal sid = h.hasJournal sid := by
  unfold SessionHub.hasJournal
  rw [ingestNow_journals]
  cases hj : h.journals ev.sid with
  | none => rfl
  | some j =>
    by_cases hsid : sid = ev.sid
    · subst hsid
      simp [hj]
    · simp [hsid]

theorem SessionHub.Sound.ingestNow (hs : h.Sound serde) (order : HashOrder)
    (ev : SessionDriverEvent) : (h.ingestNow serde order ev).Sound serde where
  journal := fun sid j hj => by
    rw [ingestNow_journals] at hj
    cases hev : h.journals ev.sid with
    | none =>
      rw [hev] at hj
      exact hs.journal sid j hj
    | some j₀ =>
      rw [hev] at hj
      dsimp only at hj
      rw [PMap.insert_apply] at hj
      split at hj
      · obtain rfl := Option.some.inj hj
        exact (hs.journal _ _ hev).stampJournal _ _ ev
      · exact hs.journal sid j hj
  pending := fun sid ev' hp => by
    rw [ingestNow_pendingDeltas] at hp
    rw [ingestNow_hasJournal]
    exact hs.pending sid ev' hp
  off := fun hoff sid => by
    rw [(frame_ingestNow order ev).deltaFlushMs] at hoff
    rw [ingestNow_pendingDeltas]
    exact hs.off hoff sid

theorem ingestNow_log_of_ne (order : HashOrder) {ev : SessionDriverEvent} {sid : SessionId}
    (hsid : ev.sid ≠ sid) : (h.ingestNow serde order ev).log sid = h.log sid := by
  unfold SessionHub.log
  rw [ingestNow_journals, ingestNow_pendingDeltas]
  cases h.journals ev.sid with
  | none => rfl
  | some j => simp [Ne.symm hsid]

/-- With nothing pending for its session, an event goes straight to the end of the log. -/
theorem SessionHub.Sound.carries_ingestNow (hs : h.Sound serde) (order : HashOrder)
    {ev : SessionDriverEvent} (hp : h.pendingDeltas ev.sid = none) :
    Carries h (h.ingestNow serde order ev) [ev] := by
  refine Carries.of_event (fun sid => ingestNow_log_of_ne order) fun l' hl' => ?_
  unfold SessionHub.log at hl' ⊢
  rw [ingestNow_pendingDeltas, ingestNow_journals, hp] at hl'
  cases hj : h.journals ev.sid with
  | none =>
    rw [hj] at hl'
    dsimp only at hl'
    rw [hj] at hl'
    cases hl'
  | some j =>
    have hsound := hs.journal _ _ hj
    rw [hj] at hl'
    simp only [PMap.insert_self, Option.map_some, Option.some.injEq, Option.toList_none,
      List.append_nil] at hl'
    subst hl'
    simp only [hp, Option.map_some, Option.toList_none, List.append_nil, Option.some.injEq,
      exists_eq_left', foldAll_coalesceEvents]
    refine ⟨foldAll_stampJournal hsound order _ ev, fun hr => ?_⟩
    have happ := coalesce_appendEvent hsound ev []
    rw [List.append_nil] at happ
    rw [stampJournal, if_neg (by simp [hr]), happ, coalesceEvents, coalesceEvents, coalesceEvents,
      tryMerge_lawful.coalesce_coalesce_append]

theorem dropPending_pendingDeltas (sid : SessionId) :
    (h.dropPending sid).pendingDeltas = h.pendingDeltas.erase sid := rfl

theorem SessionHub.Sound.dropPending (hs : h.Sound serde) (sid : SessionId) :
    (h.dropPending sid).Sound serde := by
  have hle : ∀ s ev, (h.dropPending sid).pendingDeltas s = some ev →
      h.pendingDeltas s = some ev := by
    intro s ev hev
    rw [dropPending_pendingDeltas, PMap.erase_apply] at hev
    split at hev
    · cases hev
    · exact hev
  refine ⟨hs.journal, fun s ev hev => hs.pending s ev (hle s ev hev), fun hoff s => ?_⟩
  rw [dropPending_pendingDeltas, PMap.erase_apply, hs.off hoff s, ite_self]

/-- A flush takes the pending delta off and ingests it. -/
theorem flushPending_eq (order : HashOrder) (sid : SessionId) :
    h.flushPending serde order sid =
      match h.pendingDeltas sid with
      | some p => (h.dropPending sid).ingestNow serde order p
      | none => h := rfl

theorem flushPending_pendingDeltas (order : HashOrder) (sid : SessionId) :
    (h.flushPending serde order sid).pendingDeltas sid = none := by
  rw [flushPending_eq]
  split
  · rw [ingestNow_pendingDeltas, dropPending_pendingDeltas, PMap.erase_self]
  · assumption

theorem flushPending_hasJournal (order : HashOrder) (sid s : SessionId) :
    (h.flushPending serde order sid).hasJournal s = h.hasJournal s := by
  rw [flushPending_eq]
  split
  · exact ingestNow_hasJournal order _ s
  · rfl

theorem SessionHub.Sound.flushPending (hs : h.Sound serde) (order : HashOrder) (sid : SessionId) :
    (h.flushPending serde order sid).Sound serde := by
  rw [flushPending_eq]
  split
  · exact (hs.dropPending sid).ingestNow order _
  · exact hs

/-- **A flush leaves every log as it is.** -/
theorem SessionHub.Sound.flushPending_log (hs : h.Sound serde) (order : HashOrder)
    (sid : SessionId) : (h.flushPending serde order sid).log = h.log := by
  rw [flushPending_eq]
  split
  · next p hp =>
    obtain ⟨hdelta, rfl, hj⟩ := hs.pending sid p hp
    obtain ⟨j, hj⟩ := Option.isSome_iff_exists.mp hj
    funext s
    by_cases hsid : p.sid = s
    · subst hsid
      -- the pending delta moves to the end of the journal
      have happ := coalesce_appendEvent (hs.journal _ _ hj) p []
      rw [List.append_nil] at happ
      have hj' : (h.dropPending p.sid).journals p.sid = some j := hj
      unfold SessionHub.log
      rw [ingestNow_journals, ingestNow_pendingDeltas, dropPending_pendingDeltas, hj', hj, hp]
      simp [stampJournal, isReset_of_isDelta hdelta, happ]
    · rw [ingestNow_log_of_ne order hsid]
      unfold SessionHub.log
      rw [dropPending_pendingDeltas, PMap.erase_of_ne _ (Ne.symm hsid)]
      rfl
  · rfl

/-- Setting the pending delta of a session with a journal. -/
theorem SessionHub.Sound.setPending (hs : h.Sound serde) {sid : SessionId}
    {new : SessionDriverEvent} (hon : h.deltaFlushMs ≠ 0)
    (hdelta : SessionHub.isDelta new = true) (hsid : new.sid = sid)
    (hj : h.hasJournal sid = true) :
    SessionHub.Sound serde { h with pendingDeltas := h.pendingDeltas.insert sid new } := by
  refine ⟨hs.journal, fun s ev' hev' => ?_, fun hoff => absurd hoff hon⟩
  dsimp only at hev'
  rw [PMap.insert_apply] at hev'
  split at hev'
  · next heq =>
    obtain rfl := Option.some.inj hev'
    exact ⟨hdelta, hsid.trans heq.symm, heq ▸ hj⟩
  · exact hs.pending s ev' hev'

/-- A new pending delta that stands for the old one and an event carries the event. -/
theorem carries_setPending {ev new : SessionDriverEvent}
    (hnew : ∀ seed, coalesceEvents (seed ++ [new]) =
      coalesceEvents (seed ++ (h.pendingDeltas ev.sid).toList ++ [ev])) :
    Carries h { h with pendingDeltas := h.pendingDeltas.insert ev.sid new } [ev] := by
  refine Carries.of_event (fun sid hsid => ?_) fun l' hl' => ?_
  · unfold SessionHub.log
    dsimp only
    rw [PMap.insert_of_ne _ _ (Ne.symm hsid)]
  · unfold SessionHub.log at hl' ⊢
    dsimp only at hl'
    rw [PMap.insert_self] at hl'
    obtain ⟨j, hj, rfl⟩ := Option.map_eq_some_iff.mp hl'
    have hlog : coalesceEvents ((buildSeed j).2.2 ++ [new]) =
        coalesceEvents (coalesceEvents ((buildSeed j).2.2 ++ (h.pendingDeltas ev.sid).toList) ++
          [ev]) := by
      rw [hnew]
      exact (tryMerge_lawful.coalesce_coalesce_append _ _).symm
    refine ⟨_, Option.map_eq_some_iff.mpr ⟨j, hj, rfl⟩, ?_, fun _ => hlog⟩
    rw [Option.toList_some, hlog, foldAll_coalesceEvents, foldAll_concat]

/-- A delta fused with another is a delta of the same session. -/
theorem isDelta_of_tryMerge {p ev merged : SessionDriverEvent}
    (hp : SessionHub.isDelta p = true) (hm : tryMerge p ev = some merged) :
    SessionHub.isDelta merged = true ∧ merged.sid = p.sid := by
  rcases tryMerge_cases hm with ⟨_, _, _, _, _, _, _, _, rfl, rfl, -, rfl⟩ |
    ⟨_, _, _, _, rfl, -, -⟩
  · exact ⟨rfl, rfl⟩
  · cases hp

section Start

variable {ev : SessionDriverEvent} (hs : h.Sound serde) (hp : h.pendingDeltas ev.sid = none)
include hs

theorem SessionHub.Sound.startPending (m : Moment) (hon : h.deltaFlushMs ≠ 0)
    (hdelta : SessionHub.isDelta ev = true) (hj : h.hasJournal ev.sid = true) :
    (h.startPending serde m ev).Sound serde := by
  unfold SessionHub.startPending
  split
  · exact hs.setPending hon hdelta rfl hj
  · exact hs.ingestNow m.order ev

include hp in
theorem SessionHub.Sound.carries_startPending (m : Moment) :
    Carries h (h.startPending serde m ev) [ev] := by
  unfold SessionHub.startPending
  split
  · exact carries_setPending fun seed => by rw [hp, Option.toList_none, List.append_nil]
  · exact hs.carries_ingestNow m.order hp

end Start

/-- **Ingesting an event keeps the hub sound and carries the event.** -/
theorem SessionHub.Sound.ingest (hs : h.Sound serde) (m : Moment) (ev : SessionDriverEvent) :
    (h.ingest serde m ev).Sound serde ∧ Carries h (h.ingest serde m ev) [ev] := by
  have hflush := hs.flushPending m.order ev.sid
  have hempty := @flushPending_pendingDeltas serde h m.order ev.sid
  have hlog := carries_of_log_eq (hs.flushPending_log m.order ev.sid)
  unfold SessionHub.ingest
  split
  · next hcond =>
    have hp : h.pendingDeltas ev.sid = none := by
      rcases hcond with hoff | hnone
      · exact hs.off hoff ev.sid
      · cases hp : h.pendingDeltas ev.sid with
        | none => rfl
        | some p => rw [(hs.pending _ _ hp).2.2] at hnone; cases hnone
    exact ⟨hs.ingestNow m.order ev, hs.carries_ingestNow m.order hp⟩
  · next hcond =>
    obtain ⟨hon, hj⟩ := not_or.mp hcond
    have hj : h.hasJournal ev.sid = true := Bool.not_eq_false _ ▸ hj
    split
    · -- anything but a delta goes behind a flush
      exact ⟨hflush.ingestNow m.order ev, hlog.trans (hflush.carries_ingestNow m.order hempty)⟩
    · next hdelta =>
      have hdelta : SessionHub.isDelta ev = true := Bool.not_eq_false _ ▸ hdelta
      split
      · next p hp =>
        split
        · next merged hm =>
          obtain ⟨hpd, hpsid, -⟩ := hs.pending _ _ hp
          obtain ⟨hmd, hmsid⟩ := isDelta_of_tryMerge hpd hm
          refine ⟨hs.setPending hon hmd (hmsid.trans hpsid) hj, carries_setPending fun seed => ?_⟩
          rw [hp, Option.toList_some]
          exact (tryMerge_lawful.coalesce_concat_concat seed hm).symm
        · -- a delta on the other channel waits behind a flush
          refine ⟨hflush.startPending m ?_ hdelta ?_,
            hlog.trans (hflush.carries_startPending hempty m)⟩
          · rwa [(frame_flushPending m.order ev.sid).deltaFlushMs]
          · rwa [flushPending_hasJournal]
      · next hp => exact ⟨hs.startPending m hon hdelta hj, hs.carries_startPending hp m⟩

theorem SessionHub.Sound.closeJournal (hs : h.Sound serde) (ev : SessionDriverEvent) :
    (h.closeJournal ev).Sound serde ∧ Carries h (h.closeJournal ev) [] := by
  cases ev with
  | sessionClosed base reason =>
    simp only [SessionHub.closeJournal]
    split
    · have hd := hs.dropPending base.sessionRef.sessionId
      refine ⟨⟨fun sid j hj => ?_, fun sid ev hp => ?_, hd.off⟩,
        carries_of_log_le fun sid l hl => ?_⟩
      · dsimp only at hj
        rw [PMap.erase_apply] at hj
        split at hj
        · cases hj
        · exact hd.journal sid j hj
      · obtain ⟨hdelta, hsid, hj⟩ := hd.pending sid ev hp
        refine ⟨hdelta, hsid, ?_⟩
        dsimp only at hp
        rw [dropPending_pendingDeltas, PMap.erase_apply] at hp
        split at hp
        · cases hp
        · next hne =>
          rw [SessionHub.hasJournal]
          dsimp only
          rwa [PMap.erase_of_ne _ hne]
      · unfold SessionHub.log at hl ⊢
        dsimp only at hl
        rw [dropPending_pendingDeltas, PMap.erase_apply, PMap.erase_apply] at hl
        split at hl
        · cases hl
        · exact hl
    · exact ⟨hs, carries_of_log_eq rfl⟩
  | _ => exact ⟨hs, carries_of_log_eq rfl⟩

/-- **The hub keeps sound and carries each event of the driver.** -/
theorem SessionHub.Sound.onEvent (hs : h.Sound serde) (m : Moment) (ev : SessionDriverEvent) :
    (h.onEvent serde m ev).Sound serde ∧ Carries h (h.onEvent serde m ev) [ev] := by
  have hbuf : h.SameStore (if h.swapsInFlight > 0 ∧ h.hasJournal ev.sid = false then
      h.bufferSwapEvent m.nowMs ev else h) := by
    split <;> exact ⟨rfl, rfl, rfl⟩
  obtain ⟨hs', hc'⟩ := (hbuf.sound hs).ingest m ev
  obtain ⟨hs'', hc''⟩ := hs'.closeJournal ev
  exact ⟨hs'', (carries_of_log_eq hbuf.log).trans (hc'.trans hc'')⟩

theorem SessionHub.Sound.refreshUsage (hs : h.Sound serde) (m : Moment) (nowIso : String)
    (usages : List (SessionId × SessionUsage)) :
    (h.refreshUsage serde m nowIso usages).Sound serde := by
  unfold SessionHub.refreshUsage
  refine List.foldlRecOn usages _ hs fun h hs u _ => ?_
  split
  · exact (hs.ingest m _).1
  · exact hs

/-- A journal begun from a seed, once nothing is pending for its session. -/
theorem SessionHub.Sound.startJournal (hs : h.Sound serde) {sid : SessionId}
    {seed : List SessionDriverEvent} (hseed : (foldAll seed).sessionRef.isSome) :
    (h.startJournal sid seed).Sound serde := by
  have hrep := @represents_create serde (h.epochCounter + 1) seed
  have hnew : (createJournal (h.epochCounter + 1) seed).Sound serde := by
    refine ⟨⟨_, _, hrep⟩, ?_⟩
    rwa [foldAll_buildSeed hrep, List.append_nil]
  refine ⟨fun s j hj => ?_, fun s ev hp => ?_, hs.off⟩
  · simp only [SessionHub.startJournal, SessionHub.setJournal, PMap.insert_apply] at hj
    split at hj
    · cases hj
      exact hnew
    · exact hs.journal s j hj
  · obtain ⟨hdelta, hsid, hj⟩ := hs.pending s ev hp
    refine ⟨hdelta, hsid, ?_⟩
    simp only [SessionHub.startJournal, SessionHub.setJournal, SessionHub.hasJournal,
      PMap.insert_apply]
    split
    · rfl
    · exact hj

/-! ### Which sessions have a journal -/

/-- The event is a `sessionClosed`. -/
def isClosed : SessionDriverEvent → Bool
  | .sessionClosed .. => true
  | _ => false

theorem startPending_hasJournal (m : Moment) (ev : SessionDriverEvent) (sid : SessionId) :
    (h.startPending serde m ev).hasJournal sid = h.hasJournal sid := by
  unfold SessionHub.startPending
  split
  · rfl
  · exact ingestNow_hasJournal m.order ev sid

theorem ingest_hasJournal (m : Moment) (ev : SessionDriverEvent) (sid : SessionId) :
    (h.ingest serde m ev).hasJournal sid = h.hasJournal sid := by
  unfold SessionHub.ingest
  split
  · exact ingestNow_hasJournal m.order ev sid
  · split
    · rw [ingestNow_hasJournal, flushPending_hasJournal]
    · split
      · split
        · rfl
        · rw [startPending_hasJournal, flushPending_hasJournal]
      · exact startPending_hasJournal m ev sid

/-- Only the close of a session takes its journal away. -/
theorem onEvent_hasJournal (m : Moment) (ev : SessionDriverEvent) (sid : SessionId) :
    (h.onEvent serde m ev).hasJournal sid = h.hasJournal sid ∨
      (isClosed ev = true ∧ ev.sid = sid) := by
  have hbuf : (if h.swapsInFlight > 0 ∧ h.hasJournal ev.sid = false then
      h.bufferSwapEvent m.nowMs ev else h).hasJournal sid = h.hasJournal sid := by
    split <;> rfl
  have hclose : ∀ h' : SessionHub, (h'.closeJournal ev).hasJournal sid = h'.hasJournal sid ∨
      (isClosed ev = true ∧ ev.sid = sid) := by
    intro h'
    cases ev with
    | sessionClosed base reason =>
      by_cases hsid : base.sessionRef.sessionId = sid
      · exact .inr ⟨rfl, hsid⟩
      · have hne : sid ≠ (SessionDriverEvent.sessionClosed base reason).sid := Ne.symm hsid
        refine .inl ?_
        simp only [SessionHub.closeJournal]
        split
        · unfold SessionHub.hasJournal
          dsimp only
          rw [PMap.erase_of_ne _ hne]
          rfl
        · rfl
    | _ => exact .inl rfl
  rcases hclose _ with hh | hh
  · exact .inl ((hh.trans (ingest_hasJournal m ev sid)).trans hbuf)
  · exact .inr hh

/-! ### Runs -/

/-- What reaches the ingestion path. -/
inductive IngestOp where
  | event (m : Moment) (ev : SessionDriverEvent)
  /-- A flush timer has fired and its operation runs. -/
  | flush (order : HashOrder) (sid : SessionId)

/-- One operation on the hub. -/
def SessionHub.ingestStep (serde : Serde) (h : SessionHub) : IngestOp → SessionHub
  | .event m ev => h.onEvent serde m ev
  | .flush order sid => h.flushPending serde order sid

/-- The events of a run of operations, in the order received. -/
def received (ops : List IngestOp) : List SessionDriverEvent :=
  ops.filterMap fun op =>
    match op with
    | .event _ ev => some ev
    | .flush _ _ => none

/-- **A run of events and flushes carries exactly its events.** -/
theorem carries_ingest (hs : h.Sound serde) (ops : List IngestOp) :
    Carries h (ops.foldl (SessionHub.ingestStep serde) h) (received ops) := by
  induction ops generalizing h with
  | nil => exact carries_of_log_eq rfl
  | cons op ops ih =>
    cases op with
    | event m ev =>
      obtain ⟨hs', hc⟩ := hs.onEvent m ev
      exact hc.trans (ih hs')
    | flush order sid =>
      have hlog := carries_of_log_eq (hs.flushPending_log order sid)
      exact hlog.trans (ih (hs.flushPending order sid))

/-- A run of events and flushes keeps the journal of a session it does not close. -/
theorem ingest_run_hasJournal (ops : List IngestOp) (sid : SessionId) :
    (ops.foldl (SessionHub.ingestStep serde) h).hasJournal sid = h.hasJournal sid ∨
      ∃ ev ∈ (received ops).filter (·.sid = sid), isClosed ev = true := by
  induction ops generalizing h with
  | nil => exact .inl rfl
  | cons op ops ih =>
    rw [List.foldl_cons]
    cases op with
    | event m ev =>
      have hmem : ∀ ev' ∈ (received ops).filter (·.sid = sid),
          ev' ∈ (received (.event m ev :: ops)).filter (·.sid = sid) := by
        intro ev' hev'
        obtain ⟨hin, hsid⟩ := List.mem_filter.mp hev'
        exact List.mem_filter.mpr ⟨List.mem_cons_of_mem ev hin, hsid⟩
      rcases @ih (h.onEvent serde m ev) with hh | ⟨ev', hev', hc⟩
      · rcases onEvent_hasJournal m ev sid with hh' | ⟨hc, hsid⟩
        · exact .inl (hh.trans hh')
        · exact .inr ⟨ev, List.mem_filter.mpr ⟨List.mem_cons_self, by simpa using hsid⟩, hc⟩
      · exact .inr ⟨ev', hmem ev' hev', hc⟩
    | flush order s =>
      rcases @ih (h.flushPending serde order s) with hh | hh
      · exact .inl (hh.trans (flushPending_hasJournal order s sid))
      · exact .inr hh

end Ingest

end Pantoken
