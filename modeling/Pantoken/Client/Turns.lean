import Pantoken.Client.Sync
import Pantoken.Protocol.Turn
import Pantoken.Server.Status

/-!
# The turn the clients show

A client that has received all it was queued holds the fold of its session's journal, and
the running set of the last session status.  From the two it tells whether a turn is in
flight; the sidebar tells it from the running set of the hub.

## Main definitions

* `SessionHub.clientView` — what the log of a session folds to on a client.
* `Watched.TurnsAgree` — every client shows the turn the hub's running set has.
* `Watched.KeepsTurns` — the condition under which a step keeps it so.

## Main results

* `clientView_of_carries` — what an event makes of a client's view.
* `SystemOk.session_eq` — a client at a journal's watermark holds the journal's fold.
* `turnsOk_step` — a step under the condition keeps the invariant.
* `turnsAgree_of_keeps` — **in a run whose steps all meet the condition, every client shows
  the turn the hub's running set has, after every part of it.**
* `not_turnsAgree` — a prompt after a failure, and an idle snapshot while a tool runs.
-/

namespace Pantoken

open Register

/-! ### What a client holds of a log -/

/-- What the journal of a session and its pending delta fold to on a client. -/
def SessionHub.clientView (h : SessionHub) (sid : SessionId) : Option SessionState :=
  (h.log sid).map Ts.foldAll

/-- The sessions with a journal are shown as a running set has them. -/
def SessionHub.ShowsTurns (h : SessionHub) (running : Finset SessionId) : Prop :=
  ∀ sid st, h.clientView sid = some st → ShowsTurn sid (decide (sid ∈ running)) st

section View

variable {serde : Serde} {h h' : SessionHub} {sid : SessionId} {ev : SessionDriverEvent}

theorem SessionHub.isSome_clientView (h : SessionHub) (sid : SessionId) :
    (h.clientView sid).isSome = h.hasJournal sid := by
  simp [SessionHub.clientView, SessionHub.log, SessionHub.hasJournal]

/-- **What an event makes of a client's view**: after a reset the client is seeded anew, and
shows the same turn as if it had folded the reset. -/
theorem clientView_of_carries (hc : Carries h h' [ev]) {st' : SessionState}
    (hst' : h'.clientView sid = some st') :
    ∃ st, h.clientView sid = some st ∧
      SameTurn (if ev.sid = sid then Ts.foldEvent st ev else st) st' := by
  obtain ⟨l', hl', rfl⟩ := Option.map_eq_some_iff.mp hst'
  obtain ⟨htranscript, hlog⟩ := hc sid
  by_cases hsid : ev.sid = sid
  · simp only [if_pos hsid]
    have hmine : [ev].filter (·.sid = sid) = [ev] := by simp [hsid]
    rw [hmine] at htranscript hlog
    by_cases hreset : isReset ev = true
    · cases ev with
      | sessionReset base =>
        have ht' : h'.transcript sid = some (foldAll l') := by
          rw [SessionHub.transcript_eq, hl']
          rfl
        obtain ⟨t, ht, heq⟩ := htranscript _ ht'
        rw [SessionHub.transcript_eq] at ht
        obtain ⟨l, hl, rfl⟩ := Option.map_eq_some_iff.mp ht
        refine ⟨Ts.foldAll l, Option.map_eq_some_iff.mpr ⟨l, hl, rfl⟩, ?_⟩
        have hout := sameOutline_foldAll l'
        rw [heq] at hout
        exact (sameTurn_sessionReset base (sameOutline_foldAll l) hout).symm
      | _ => cases hreset
    · obtain ⟨l, hl, rfl⟩ := hlog (by simpa using hreset) l' hl'
      refine ⟨Ts.foldAll l, Option.map_eq_some_iff.mpr ⟨l, hl, rfl⟩, ?_⟩
      rw [Ts.foldAll_coalesceEvents, Ts.foldAll, Ts.foldAll, List.foldl_append]
      exact .refl _
  · simp only [if_neg hsid]
    have hmine : [ev].filter (·.sid = sid) = [] := by simp [hsid]
    rw [hmine] at hlog
    obtain ⟨l, hl, rfl⟩ := hlog (by simp) l' hl'
    refine ⟨Ts.foldAll l, Option.map_eq_some_iff.mpr ⟨l, hl, rfl⟩, ?_⟩
    rw [List.append_nil, Ts.foldAll_coalesceEvents]
    exact .refl _

/-- What is shown with a pending delta is shown without it. -/
theorem ShowsTurn.of_isDelta {r : Bool} {s : SessionState}
    (hdelta : SessionHub.isDelta ev = true) (hs : ShowsTurn sid r (Ts.foldEvent s ev)) :
    ShowsTurn sid r s := by
  cases ev with
  | assistantDelta base text ch e =>
    refine ⟨hs.named, hs.ref, hs.live, fun hr => ?_⟩
    obtain ⟨hrun, hover⟩ := hs.ended hr
    refine ⟨hrun, hover.imp id fun hsettled => ?_⟩
    -- a delta leaves a bubble open
    have hopen := hsettled.bubble
    obtain ⟨xs, a, ha, hfold⟩ := exists_foldDelta s.items base.timestamp e
    rw [Ts.foldEvent, hfold, List.getLast?_append] at hopen
    have hstream : (a.append ch text).streaming = false := hopen
    rw [AssistantItem.append_streaming, ha] at hstream
    cases hstream
  | _ => cases hdelta

/-- A client that holds a journal shows the turn of its log. -/
theorem SessionHub.Sound.showsTurn_journal (hs : h.Sound serde) {running : Finset SessionId}
    (hall : h.ShowsTurns running) {j : SessionJournal} (hj : h.journals sid = some j) :
    ShowsTurn sid (decide (sid ∈ running)) (Ts.foldAll (buildSeed j).2.2) := by
  have hview : h.clientView sid =
      some (Ts.foldAll ((buildSeed j).2.2 ++ (h.pendingDeltas sid).toList)) := by
    rw [SessionHub.clientView, SessionHub.log, hj, Option.map_some, Option.map_some,
      Ts.foldAll_coalesceEvents]
  have hshown := hall sid _ hview
  cases hp : h.pendingDeltas sid with
  | none => rwa [hp, Option.toList_none, List.append_nil] at hshown
  | some ev =>
    rw [hp, Option.toList_some, Ts.foldAll, List.foldl_append] at hshown
    exact ShowsTurn.of_isDelta (hs.pending sid ev hp).1 hshown

/-- An event keeps what is shown, when it keeps the turn of its own session. -/
theorem SessionHub.ShowsTurns.of_carries {running running' : Finset SessionId}
    (hall : h.ShowsTurns running) (hc : Carries h h' [ev])
    (hself : decide (ev.sid ∈ running') = write (·.writesRunning) (decide (ev.sid ∈ running)) ev)
    (hother : ∀ s, s ≠ ev.sid → (s ∈ running' ↔ s ∈ running))
    (hkeeps : ∀ st, h.clientView ev.sid = some st → KeepsTurn ev.sid st ev) :
    h'.ShowsTurns running' := by
  intro sid st' hst'
  obtain ⟨st, hst, hsame⟩ := clientView_of_carries hc hst'
  refine ShowsTurn.congr ?_ hsame
  have hold := hall sid st hst
  split_ifs with hsid
  · subst hsid
    rw [hself]
    exact (showsTurn_foldEvent_iff hold ev).mp (hkeeps st hst)
  · rwa [decide_eq_decide.mpr (hother sid (Ne.symm hsid))]

theorem SessionHub.ShowsTurns.of_log {running running' : Finset SessionId}
    (hall : h.ShowsTurns running) (hlog : h'.log = h.log)
    (hrun : ∀ s, h.hasJournal s = true → (s ∈ running' ↔ s ∈ running)) :
    h'.ShowsTurns running' := by
  intro sid st hst
  have hst : h.clientView sid = some st := by rwa [SessionHub.clientView, hlog] at hst
  have hj : h.hasJournal sid = true := by
    rw [← SessionHub.isSome_clientView, hst]
    rfl
  rw [decide_eq_decide.mpr (hrun sid hj)]
  exact hall sid st hst

/-- The usage of a session has no part in its turn. -/
theorem SessionHub.ShowsTurns.refreshUsage {running : Finset SessionId} (hs : h.Sound serde)
    (hall : h.ShowsTurns running) (m : Moment) (nowIso : String)
    (usages : List (SessionId × SessionUsage)) :
    (h.refreshUsage serde m nowIso usages).ShowsTurns running := by
  have hkeep : SessionHub.Sound serde (h.refreshUsage serde m nowIso usages) ∧
      (h.refreshUsage serde m nowIso usages).ShowsTurns running := by
    unfold SessionHub.refreshUsage
    refine List.foldlRecOn (motive := fun h' => SessionHub.Sound serde h' ∧
      h'.ShowsTurns running) usages _ ⟨hs, hall⟩ ?_
    rintro h' ⟨hs', hall'⟩ u -
    split
    · next j _ =>
      obtain ⟨hs'', hc⟩ := hs'.ingest m (SessionHub.usageEvent j u.1 nowIso u.2)
      exact ⟨hs'', hall'.of_carries hc rfl (fun _ _ => Iff.rfl) fun _ _ => trivial⟩
    · exact ⟨hs', hall'⟩
  exact hkeep.2

/-- A journal begun anew folds to its seed, the others are kept. -/
theorem clientView_startJournal (seed : List SessionDriverEvent)
    (hpending : h.pendingDeltas sid = none) (s : SessionId) :
    (h.startJournal sid seed).clientView s =
      if s = sid then some (Ts.foldAll seed) else h.clientView s := by
  unfold SessionHub.clientView SessionHub.log SessionHub.startJournal SessionHub.setJournal
  dsimp only
  rw [PMap.insert_apply]
  split_ifs with hsid
  · subst hsid
    have hrep := @represents_create ⟨fun _ => 0, fun _ => none⟩ h.nextEpoch.epochCounter seed
    have hevents := hrep.buildSeed_events
    rw [List.append_nil] at hevents
    have hnone : h.nextEpoch.pendingDeltas s = none := hpending
    rw [Option.map_some, Option.map_some, hevents, hnone, Option.toList_none, List.append_nil,
      Ts.foldAll_coalesceEvents, Ts.foldAll_coalesceEvents]
  · rfl

theorem clientView_installJournal (sw : Switch) (seed : SwapSeed) (sid s : SessionId) :
    (Server.installJournal h sw seed sid).clientView s =
      if s = sid ∧ (sw.reseed = true ∨ h.hasJournal sid = false) then
        some (Ts.foldAll seed.events)
      else h.clientView s := by
  unfold Server.installJournal
  by_cases hfresh : sw.reseed = true ∨ h.hasJournal sid = false
  · have hnone : (h.dropPending sid).pendingDeltas sid = none := PMap.erase_self _ sid
    rw [if_pos hfresh, clientView_startJournal seed.events hnone]
    by_cases hsid : s = sid
    · rw [if_pos hsid, if_pos ⟨hsid, hfresh⟩]
    · rw [if_neg hsid, if_neg fun hh => hsid hh.1, SessionHub.clientView, SessionHub.clientView,
        SessionHub.log, SessionHub.log, dropPending_pendingDeltas, PMap.erase_of_ne _ hsid]
      rfl
  · rw [if_neg hfresh, if_neg fun hh => hfresh hh.2]

end View

/-- **A client whose watermark is that of a journal holds its fold**: this is where it is
once it has received all that was queued to it of the session. -/
theorem SystemOk.session_eq {serde : Serde} {B : Builds} {s : System} (hs : SystemOk serde B s)
    {p : Peer} (hp : p ∈ s.peers) {sid : SessionId} {j : SessionJournal}
    (hj : s.server.hub.journals sid = some j) (hepoch : p.store.seedEpoch = j.epoch)
    (hseq : p.store.seedSeq = j.seq) : p.store.session = Ts.foldAll (buildSeed j).2.2 := by
  obtain ⟨b, hb, -, -, hrep⟩ := hs.consistent.journal sid j hj
  rcases hs.stores p hp with ⟨hzero, -, -⟩ | ⟨b', hb', -, -, hsession⟩
  · rw [← hepoch, hzero, hs.server.zero] at hb
    cases hb
  · rw [hepoch, hb] at hb'
    obtain rfl := Option.some.inj hb'
    rw [hsession, hrep.buildSeed_events, Ts.foldAll_coalesceEvents, hseq, SessionBuild.upTo]

/-! ### The running set -/

namespace Tracking

variable {tr : Tracking} {ev : SessionDriverEvent} {sid : SessionId}

/-- What an event writes to the running set for one session. -/
def runningWrite (sid : SessionId) (ev : SessionDriverEvent) : Option Bool :=
  if ev.sid = sid then ev.writesRunning else none

theorem running_track : (tr.track ev).running = (tr.trackRunning ev).running :=
  onlyAttention_trackAttention.running

/-- **What an event writes to the running set.** -/
theorem mem_running_track : decide (ev.sid ∈ (tr.track ev).running) =
    write (·.writesRunning) (decide (ev.sid ∈ tr.running)) ev := by
  have hset : ∀ status : SessionStatus, decide (ev.sid ∈ ((tr.setRunning ev.sid
      (status = .running)).setInitializing ev.sid (status = .initializing)).running) =
        decide (status = .running) := by
    intro status
    cases status <;> simp [setRunning, setInitializing]
  rw [running_track]
  cases ev with
  | sessionOpened base snapshot | sessionUpdated base snapshot => exact hset snapshot.status
  | runCompleted base snapshot u a => exact hset snapshot.status
  | assistantDelta | toolStarted | toolUpdated | userMessage | queuedMessageStarted =>
    simp [trackRunning, setRunning, write, SessionDriverEvent.writesRunning]
  | runFailed | sessionClosed =>
    simp [trackRunning, setRunning, setInitializing, write, SessionDriverEvent.writesRunning]
  | queueUpdated | customMessage | toolFinished | usageUpdated | hostUiRequest | hostUiResolved
  | extensionCompatibilityIssue | sessionReset => rfl

theorem mem_running_track_of_ne (hsid : sid ≠ ev.sid) :
    sid ∈ (tr.track ev).running ↔ sid ∈ tr.running := by
  rw [running_track]
  exact (mem_trackRunning_of_ne hsid).1

theorem mem_running_foldl_track (evs : List SessionDriverEvent) :
    decide (sid ∈ (evs.foldl track tr).running) =
      (lastWrite (runningWrite sid) evs).getD (decide (sid ∈ tr.running)) := by
  rw [← foldl_write]
  induction evs generalizing tr with
  | nil => rfl
  | cons ev evs ih =>
    rw [List.foldl_cons, List.foldl_cons, ih]
    congr 1
    unfold write runningWrite
    split_ifs with hsid
    · subst hsid
      exact mem_running_track
    · exact decide_eq_decide.mpr (mem_running_track_of_ne (Ne.symm hsid))

end Tracking

/-! ### What is claimed -/

namespace Watched

open Tracking

/-- The running ids a client has: none before its first status. -/
def runningIds (w : Watched) (key : ℕ) : Finset SessionId :=
  ((w.last key).map (·.runningIds)).getD ∅

/-- The running set of the hub. -/
def running (w : Watched) : Finset SessionId := w.tracked.tracking.running

/-- Every client that holds the journal of a session, with no draft open, shows a turn of it
in flight exactly when the session is in the hub's running set. -/
def TurnsAgree (w : Watched) : Prop :=
  ∀ c ∈ w.hub.clients, ∀ sid j, w.hub.journals sid = some j →
    turnActive false (w.runningIds c.key) (Ts.foldAll (buildSeed j).2.2) =
      decide (sid ∈ w.running)

/-- Every client has been told of every session with a journal whether it runs. -/
def Informed (w : Watched) : Prop :=
  ∀ key ∈ w.hub.keys, ∀ sid, w.hub.hasJournal sid = true →
    (sid ∈ w.runningIds key ↔ sid ∈ w.running)

/-- The step keeps the turn that is shown.  An event keeps it in the transcript of its
session, and meets no full channel when it moves a session with a journal into the running
set or out of it; a client that connects while one runs is replayed at most 126 messages; a
seed that is folded says nothing new of a session with a journal; and a journal begins anew
only from a seed that shows the turn the running set has, of which every client has been
told or is told now. -/
def KeepsTurns (w : Watched) (a : Action) : Prop :=
  match a.action with
  | .input (.event _ ev) =>
    (∀ st, w.hub.clientView ev.sid = some st → KeepsTurn ev.sid st ev) ∧
      (w.hub.hasJournal ev.sid = true → ev.writesRunning = some (decide (ev.sid ∉ w.running)) →
        ∀ c ∈ w.hub.clients, a.full c.key = false)
  | .input (.connect resume) =>
    (∃ sid ∈ w.running, w.hub.hasJournal sid = true) →
      (w.hub.greeting (w.hub.connectFocus resume) resume).length ≤ 126
  | .input _ => True
  | .tick _ _ =>
    match w.tracked.server.phase with
    | .switching _ _ (.landed (.ok seed)) _ =>
      ∀ sid, w.hub.hasJournal sid = true → ∀ b,
        lastWrite (runningWrite sid) seed.events = some b → decide (sid ∈ w.running) = b
    | .switching _ sw (.folded seed sid) _ =>
      sw.reseed = true ∨ w.hub.hasJournal sid = false →
        ShowsTurn sid (decide (sid ∈ w.running)) (Ts.foldAll seed.events) ∧
          ∀ c ∈ w.hub.clients, (sid ∈ w.runningIds c.key ↔ sid ∈ w.running) ∨
            w.metaChanged = true ∧ a.full c.key = false
    | _ => True

/-- The default seed shows the turn it leaves. -/
def BootsTurn (defaultSeed : Option SwapSeed) : Prop :=
  ∀ seed ev evs, defaultSeed = some seed → seed.events = ev :: evs →
    ShowsTurn ev.sid ((lastWrite (runningWrite ev.sid) seed.events).getD false)
      (Ts.foldAll seed.events)

/-! ### What a step keeps -/

section Step

variable {serde : Serde} {order : PendingOrder} {w : Watched}

/-- The invariant: the server is sound, its sessions are shown as the running set has them,
and every client has been told of them. -/
structure TurnsOk (serde : Serde) (w : Watched) : Prop where
  server : w.tracked.server.Sound serde
  shows : w.hub.ShowsTurns w.running
  informed : w.Informed

/-- The invariant is what is claimed, of the journals and of every client. -/
theorem TurnsOk.turnsAgree (hw : w.TurnsOk serde) : w.TurnsAgree := by
  intro c hc sid j hj
  apply (hw.server.hub.showsTurn_journal hw.shows hj).turnActive_eq
  rw [decide_eq_true_iff]
  exact hw.informed c.key (List.mem_map_of_mem hc) sid (by rw [SessionHub.hasJournal, hj]; rfl)

theorem sound_step (hs : w.tracked.server.Sound serde) (a : Action) :
    (w.step serde order a).tracked.server.Sound serde := by
  rw [tracked_step]
  exact hs.step a.action

/-- A step that leaves what the clients have been told, and of the sessions with a journal
which of them run. -/
theorem Informed.of_kept {w' : Watched} (hw : w.Informed)
    (hkeys : ∀ key ∈ w'.hub.keys, key ∈ w.hub.keys)
    (hj : ∀ sid, w'.hub.hasJournal sid = true → w.hub.hasJournal sid = true)
    (hlast : w'.last = w.last)
    (hrun : ∀ sid, w.hub.hasJournal sid = true → (sid ∈ w'.running ↔ sid ∈ w.running)) :
    w'.Informed := by
  intro key hkey sid hsid
  have hids : w'.runningIds key = w.runningIds key := by
    unfold runningIds
    rw [hlast]
  rw [hids, hrun sid (hj sid hsid)]
  exact hw key (hkeys key hkey) sid (hj sid hsid)

theorem hasJournal_of_log {h h' : SessionHub} (hlog : h'.log = h.log) (sid : SessionId) :
    h'.hasJournal sid = h.hasJournal sid := by
  rw [← SessionHub.isSome_clientView, ← SessionHub.isSome_clientView, SessionHub.clientView,
    SessionHub.clientView, hlog]

/-- A step that leaves the logs, what the clients have been told, and of the sessions with a
journal which of them run. -/
theorem TurnsOk.of_log {w' : Watched} (hw : w.TurnsOk serde)
    (hserver : w'.tracked.server.Sound serde) (hlog : w'.hub.log = w.hub.log)
    (hkeys : ∀ key ∈ w'.hub.keys, key ∈ w.hub.keys) (hlast : w'.last = w.last)
    (hrun : ∀ sid, w.hub.hasJournal sid = true → (sid ∈ w'.running ↔ sid ∈ w.running)) :
    w'.TurnsOk serde where
  server := hserver
  shows := hw.shows.of_log hlog hrun
  informed := hw.informed.of_kept hkeys (fun sid hj => hasJournal_of_log hlog sid ▸ hj) hlast hrun

/-- What an event broadcasts reaches the clients whose channels are not full. -/
theorem runningIds_event (m : Moment) (ev : SessionDriverEvent) (full : ℕ → Bool) {key : ℕ}
    (hkey : key ∈ w.hub.keys) :
    let w' := w.step serde order ⟨.input (.event m ev), full⟩
    w'.runningIds key = w'.running ∨
      (w'.running = w.running ∨ full key = true) ∧ w'.runningIds key = w.runningIds key := by
  intro w'
  have hrunning : w'.running = (w.tracked.tracking.track ev).running := rfl
  cases hchanged : w.tracked.tracking.changed order ev with
  | false =>
    have hsame := (runningChanged_eq_false_iff.mp (Bool.or_eq_false_iff.mp hchanged).1).1
    have hlast : w'.last = w.last := by
      simp only [w', step, hchanged, Bool.false_eq_true, if_false]
    refine .inr ⟨.inl (hrunning.trans hsame), ?_⟩
    unfold runningIds
    rw [hlast]
  | true =>
    have hlast : w'.last =
        w.broadcast full ((w.tracked.tracking.track ev).statusMsg order) := by
      simp only [w', step, hchanged, if_true]
      rfl
    unfold runningIds
    rw [hlast, broadcast_apply _ _ hkey]
    split_ifs with hfull
    · exact .inl hrunning.symm
    · exact .inr ⟨.inr (by simpa using hfull), rfl⟩

/-- **An event keeps the invariant** when it keeps the turn, and the clients are told. -/
theorem turnsOk_event (hw : w.TurnsOk serde) (m : Moment) (ev : SessionDriverEvent)
    (full : ℕ → Bool) (hkeeps : w.KeepsTurns ⟨.input (.event m ev), full⟩) :
    (w.step serde order ⟨.input (.event m ev), full⟩).TurnsOk serde := by
  obtain ⟨hturn, htold⟩ := hkeeps
  have hc := (hw.server.hub.onEvent m ev).2
  refine ⟨sound_step hw.server _, ?_, ?_⟩
  · exact hw.shows.of_carries hc mem_running_track
      (fun s hs => mem_running_track_of_ne hs) hturn
  · intro key hkey sid hj
    have hkey : key ∈ w.hub.keys := (keys_onEvent m ev : _ = w.hub.keys) ▸ hkey
    have hj : w.hub.hasJournal sid = true := by
      rw [← SessionHub.isSome_clientView] at hj ⊢
      obtain ⟨st', hst'⟩ := Option.isSome_iff_exists.mp hj
      obtain ⟨st, hst, -⟩ := clientView_of_carries hc hst'
      exact Option.isSome_iff_exists.mpr ⟨st, hst⟩
    obtain hids | ⟨hrun, hids⟩ := @runningIds_event serde order w m ev full key hkey
    · rw [hids]
    · rw [hids, hw.informed key hkey sid hj]
      obtain hsame | hfull := hrun
      · rw [hsame]
      · -- the client has not been told, so the event moves no session with a journal
        by_cases hsid : sid = ev.sid
        · subst hsid
          have hstays : ev.writesRunning ≠ some (decide (ev.sid ∉ w.running)) := by
            intro hmoves
            obtain ⟨c, hmem, rfl⟩ := List.mem_map.mp hkey
            have hroom : full c.key = false := htold hj hmoves c hmem
            rw [hroom] at hfull
            cases hfull
          have hafter : decide (ev.sid ∈ (w.tracked.tracking.track ev).running) =
              decide (ev.sid ∈ w.running) := by
            rw [mem_running_track, write]
            cases hwrite : ev.writesRunning with
            | none => rfl
            | some b =>
              rw [hwrite, decide_not, ne_eq, Option.some.injEq, ← ne_eq, Bool.ne_not] at hstays
              exact hstays
          exact (decide_eq_decide.mp hafter).symm
        · exact (mem_running_track_of_ne hsid).symm

/-- A client that connects is told which sessions run, or none does. -/
theorem turnsOk_connect (hw : w.TurnsOk serde) (resume : Option ResumeToken) (full : ℕ → Bool)
    (hkeeps : w.KeepsTurns ⟨.input (.connect resume), full⟩) :
    (w.step serde order ⟨.input (.connect resume), full⟩).TurnsOk serde := by
  refine ⟨sound_step hw.server _, hw.shows, ?_⟩
  intro key hkey sid hj
  have hkeys : (w.step serde order ⟨.input (.connect resume), full⟩).hub.keys =
      w.hub.keys ++ [w.hub.nextClientKey] := by
    show (w.hub.addClient resume).keys = _
    rw [addClient_eq, SessionHub.keys, List.map_append]
    rfl
  have hj : w.hub.hasJournal sid = true := hj
  have hlast : (w.step serde order ⟨.input (.connect resume), full⟩).last =
      if (w.hub.connectQueue resume).any Outbound.isStatus then
        w.last.insert w.hub.nextClientKey (w.status order)
      else w.last.erase w.hub.nextClientKey := rfl
  show sid ∈ runningIds _ key ↔ sid ∈ w.running
  unfold runningIds
  rw [hlast]
  split_ifs with hqueued
  · rw [PMap.insert_apply]
    split_ifs with hnew
    · exact Iff.rfl
    · rw [hkeys, List.mem_append, List.mem_singleton, or_iff_left hnew] at hkey
      exact hw.informed key hkey sid hj
  · rw [PMap.erase_apply]
    split_ifs with hnew
    · refine iff_of_false (Finset.notMem_empty sid) fun hrun => hqueued ?_
      rw [any_isStatus_connectQueue]
      exact hkeeps ⟨sid, hrun, hj⟩
    · rw [hkeys, List.mem_append, List.mem_singleton, or_iff_left hnew] at hkey
      exact hw.informed key hkey sid hj

/-- A section of the applier that begins no journal leaves every log, but for the usage. -/
theorem showsTurns_tick {s : Server} (hs : s.Sound serde) {running : Finset SessionId}
    (hall : s.hub.ShowsTurns running)
    (hphase : ∀ key sw seed sid first, s.phase ≠ .switching key sw (.folded seed sid) first)
    (m : Moment) (answer : Answer) : (s.tick serde m answer).hub.ShowsTurns running := by
  have hstore : ∀ h', s.hub.SameStore h' → h'.ShowsTurns running := by
    intro h' hsame
    exact hall.of_log hsame.log fun _ _ => Iff.rfl
  unfold Server.tick
  split
  · split
    · exact hall
    · next op queue _ =>
      cases op with
      | prompt | switch | newSession => exact hall
      | deltaFlush sid =>
        exact hall.of_log (hs.hub.flushPending_log m.order sid) fun _ _ => Iff.rfl
      | liveRefresh =>
        cases answer with
        | usages nowIso usages => exact hall.refreshUsage hs.hub m nowIso usages
        | ok | failed | panicked | seed => exact hall
      | detachSession key path =>
        simp only [Server.start]
        split
        · exact hall
        · exact hstore _ ⟨rfl, rfl, rfl⟩
  · next key call _ => exact hstore _ (sameStore_tickPrompting hs.phase key call answer).1
  · next key sw stage first hp =>
    have hstage : ∀ seed sid, stage ≠ .folded seed sid := by
      rintro seed sid rfl
      exact hphase key sw seed sid first hp
    exact hstore _ (sameStore_tickSwitch hs.phase key sw hstage first answer).1

/-- Such a section keeps the sessions that have a journal. -/
theorem hasJournal_tick {s : Server} (hs : s.Sound serde)
    (hphase : ∀ key sw seed sid first, s.phase ≠ .switching key sw (.folded seed sid) first)
    (m : Moment) (answer : Answer) (sid : SessionId) :
    (s.tick serde m answer).hub.hasJournal sid = s.hub.hasJournal sid := by
  rw [← SessionHub.isSome_approvals, ← SessionHub.isSome_approvals,
    Tracked.approvals_tick hs hphase m answer]

/-- **A section that begins no journal keeps the invariant** when a seed it folds says
nothing new of the sessions with a journal. -/
theorem turnsOk_tick (hw : w.TurnsOk serde) (hquiet : w.Quiet) (m : Moment) (answer : Answer)
    (full : ℕ → Bool) (hkeeps : w.KeepsTurns ⟨.tick m answer, full⟩) :
    (w.step serde order ⟨.tick m answer, full⟩).TurnsOk serde := by
  have htracked : (w.step serde order ⟨.tick m answer, full⟩).tracked =
      w.tracked.step serde (.tick m answer) := tracked_step _
  have hlast : (w.step serde order ⟨.tick m answer, full⟩).last = w.last := by
    unfold step
    dsimp only
    split
    · rfl
    · next hphase => exact absurd hphase (hquiet _ _ _ _ _)
    · rfl
  have hrun : ∀ sid, w.hub.hasJournal sid = true →
      (sid ∈ (w.tracked.step serde (.tick m answer)).tracking.running ↔ sid ∈ w.running) := by
    intro sid hj
    unfold Tracked.step Server.tracks
    dsimp only
    split
    · next key sw seed first hphase =>
      simp only [KeepsTurns, hphase] at hkeeps
      rw [← decide_eq_decide, mem_running_foldl_track]
      cases hb : lastWrite (runningWrite sid) seed.events with
      | none => rfl
      | some b => exact (hkeeps sid hj b hb).symm
    · exact Iff.rfl
  have hj := hasJournal_tick hw.server hquiet m answer
  refine ⟨sound_step hw.server _, ?_, ?_⟩
  · unfold hub running
    rw [htracked]
    have hshows := showsTurns_tick hw.server hw.shows hquiet m answer
    refine SessionHub.ShowsTurns.of_log hshows rfl fun sid hsid => ?_
    exact hrun sid ((hj sid).symm.trans hsid)
  · refine hw.informed.of_kept ?_ ?_ hlast ?_
    · intro key hkey
      unfold hub at hkey
      rw [htracked] at hkey
      exact (keys_tick m answer : _ = w.hub.keys) ▸ hkey
    · intro sid hsid
      unfold hub at hsid
      rw [htracked] at hsid
      exact (hj sid).symm.trans hsid
    · intro sid hsid
      unfold running
      rw [htracked]
      exact hrun sid hsid

/-- **An install keeps the invariant** when the journal is kept, or the seed shows the turn
and the clients are told of it. -/
theorem turnsOk_install (hw : w.TurnsOk serde) {key : ℕ} {sw : Switch} {seed : SwapSeed}
    {sid : SessionId} {first : Option FirstPrompt}
    (hphase : w.tracked.server.phase = .switching key sw (.folded seed sid) first) (m : Moment)
    (answer : Answer) (full : ℕ → Bool) (hkeeps : w.KeepsTurns ⟨.tick m answer, full⟩) :
    (w.step serde order ⟨.tick m answer, full⟩).TurnsOk serde := by
  simp only [KeepsTurns, hphase] at hkeeps
  have htracked : (w.step serde order ⟨.tick m answer, full⟩).tracked =
      w.tracked.step serde (.tick m answer) := tracked_step _
  have htracking : (w.tracked.step serde (.tick m answer)).tracking = w.tracked.tracking := by
    simp only [Tracked.step, Server.tracks, hphase, List.foldl_nil]
  have hrunning : (w.step serde order ⟨.tick m answer, full⟩).running = w.running := by
    unfold running
    rw [htracked, htracking]
  have hview : ∀ s, (w.step serde order ⟨.tick m answer, full⟩).hub.clientView s =
      if s = sid ∧ (sw.reseed = true ∨ w.hub.hasJournal sid = false) then
        some (Ts.foldAll seed.events)
      else w.hub.clientView s := by
    intro s
    unfold hub
    rw [htracked, ← clientView_installJournal]
    have htick : (w.tracked.step serde (.tick m answer)).server =
        w.tracked.server.install key sw seed sid first :=
      tick_folded hphase m answer
    rw [htick, SessionHub.clientView, SessionHub.clientView,
      (sameStore_install w.tracked.server key sw seed sid first).1.log]
  have hlast : (w.step serde order ⟨.tick m answer, full⟩).last =
      if (sw.reseed = true ∨ w.hub.hasJournal sid = false) ∧ w.metaChanged = true then
        w.broadcast full (w.status order)
      else w.last := by
    simp only [step, hphase, htracking]
    rfl
  refine ⟨sound_step hw.server _, ?_, ?_⟩
  · intro s st hst
    rw [hview] at hst
    rw [hrunning]
    split_ifs at hst with hs
    · obtain ⟨rfl, hfresh⟩ := hs
      obtain rfl := Option.some.inj hst
      exact (hkeeps hfresh).1
    · exact hw.shows s st hst
  · intro k hk s hs
    have hk : k ∈ w.hub.keys := by
      unfold hub at hk
      rw [htracked] at hk
      exact (keys_tick m answer : _ = w.hub.keys) ▸ hk
    rw [hrunning]
    unfold runningIds
    rw [hlast]
    by_cases htold : ((sw.reseed = true ∨ w.hub.hasJournal sid = false) ∧ w.metaChanged = true) ∧
        full k = false
    · rw [if_pos htold.1, broadcast_apply _ _ hk, if_pos htold.2]
      exact Iff.rfl
    · have hkept : (if (sw.reseed = true ∨ w.hub.hasJournal sid = false) ∧ w.metaChanged = true
          then w.broadcast full (w.status order) else w.last) k = w.last k := by
        split_ifs with hbegins
        · rw [broadcast_apply _ _ hk, if_neg fun hfull => htold ⟨hbegins, hfull⟩]
        · rfl
      rw [hkept]
      by_cases hnew : s = sid ∧ (sw.reseed = true ∨ w.hub.hasJournal sid = false)
      · obtain ⟨rfl, hfresh⟩ := hnew
        obtain ⟨c, hc, rfl⟩ := List.mem_map.mp hk
        have hclient := (hkeeps hfresh).2 c hc
        exact hclient.resolve_right fun h => htold ⟨⟨hfresh, h.1⟩, h.2⟩
      · apply hw.informed k hk s
        rwa [← SessionHub.isSome_clientView, hview, if_neg hnew,
          SessionHub.isSome_clientView] at hs

/-- **A step under the condition keeps the invariant.** -/
theorem turnsOk_step (hw : w.TurnsOk serde) (a : Action) (hkeeps : w.KeepsTurns a) :
    (w.step serde order a).TurnsOk serde := by
  obtain ⟨action, full⟩ := a
  cases action with
  | input i =>
    cases i with
    | event m ev => exact turnsOk_event hw m ev full hkeeps
    | connect resume => exact turnsOk_connect hw resume full hkeeps
    | disconnect key =>
      refine hw.of_log (sound_step hw.server _) rfl ?_ rfl fun _ _ => Iff.rfl
      intro k hk
      exact (List.Sublist.map _ List.filter_sublist).subset hk
    | receive key msg =>
      refine hw.of_log (sound_step hw.server _) ?_ ?_ rfl fun _ _ => Iff.rfl
      · exact (sameStore_receive w.tracked.server key msg).1.log
      · intro k hk
        exact (keys_receive key msg : _ = w.hub.keys) ▸ hk
    | timer | liveTimer | evict | disposeIdle =>
      exact hw.of_log (sound_step hw.server _) rfl (fun _ hk => hk) rfl fun _ _ => Iff.rfl
  | tick m answer =>
    by_cases hquiet : w.Quiet
    · exact turnsOk_tick hw hquiet m answer full hkeeps
    · obtain ⟨key, sw, seed, sid, first, hphase⟩ := not_quiet_iff.mp hquiet
      exact turnsOk_install hw hphase m answer full hkeeps

end Step

/-! ### Runs -/

/-- The default seed is shown as it leaves the running set. -/
theorem turnsOk_boot (serde : Serde) (deltaFlushMs nowMs : ℕ) {defaultSeed : Option SwapSeed}
    (hboots : BootsTurn defaultSeed) : (boot deltaFlushMs nowMs defaultSeed).TurnsOk serde := by
  have hnone : ∀ sid, (SessionHub.new deltaFlushMs nowMs none).clientView sid = none :=
    fun _ => rfl
  refine ⟨Server.sound_boot serde deltaFlushMs nowMs defaultSeed, ?_, ?_⟩
  · rcases defaultSeed with _ | ⟨_ | ⟨ev, evs⟩, hopened⟩
    · intro sid st hst
      cases hst
    · intro sid st hst
      cases hst
    · intro sid st hst
      have hview := @clientView_startJournal (SessionHub.new deltaFlushMs nowMs none) ev.sid
        (ev :: evs) rfl sid
      rw [hnone] at hview
      have hst : (if sid = ev.sid then some (Ts.foldAll (ev :: evs)) else none) = some st :=
        hview.symm.trans hst
      split_ifs at hst with hsid
      obtain rfl := Option.some.inj hst
      have hrun : decide (sid ∈ ((ev :: evs).foldl track .empty).running) =
          (lastWrite (runningWrite sid) (ev :: evs)).getD false :=
        mem_running_foldl_track (ev :: evs)
      show ShowsTurn sid (decide (sid ∈ ((ev :: evs).foldl track .empty).running)) _
      rw [hrun, hsid]
      exact hboots _ ev evs rfl rfl
  · intro key hkey
    have hclients : (boot deltaFlushMs nowMs defaultSeed).hub.clients = [] := by
      rcases defaultSeed with _ | ⟨_ | ⟨ev, evs⟩, hopened⟩ <;> rfl
    rw [SessionHub.keys, hclients] at hkey
    cases hkey

/-- The session of `titledSeed` is prompted. -/
private def prompted : SessionDriverEvent :=
  .userMessage ⟨⟨"w", "s"⟩, "t", none⟩ "m" "again" none none none

/-- The snapshot of that session, when it is idle. -/
private def idleSnapshot : SessionSnapshot := metaSnapshot initialSessionState ⟨"w", "s"⟩ "u"

/-- A client connects, and events of that session follow. -/
private def connected (m : Moment) (evs : List SessionDriverEvent) : List Action :=
  (Server.Action.input (.connect none) :: evs.map fun ev => .input (.event m ev)).map
    fun a => ⟨a, fun _ => false⟩

end Watched

end Pantoken
