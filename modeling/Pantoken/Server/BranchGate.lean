import Pantoken.Lib.Run
import Pantoken.Server.Folds

/-!
# The gate of a branch

A request to branch a session is refused while the session runs or starts up.  Its status is
read when the request comes in.  The applier gets to the branch later, behind the operations
that are queued, and has the driver branch the session whatever its status is by then.

## Main definitions

* `statusView`, `SessionHub.busy` — the status a journal folds to, and when it is busy.
* `Server.onClientMessage` — the gate; `Server.gatedStep` is a step of the server behind it.
* `Server.Starts` — the driver's branch operation is started.
* `Server.Awaits` — a branch was let through and is not started yet.
* `Server.KeepsQuiet` — the step makes no session busy that awaits a branch.

## Main results

* `awaits_tick` — the applier adds no branch to those awaited.
* `Server.quiet_gatedStep_iff`, `Server.along_keepsQuiet_iff` — when a step, and a run, leaves
  what awaits a branch quiet.
* `Server.along_neverRaces_of_keeps` — **no branch races a turn in a run whose steps make no
  session busy that awaits one.**
* `Server.not_neverRaces` — a turn begins while the branch is queued.
-/

namespace Pantoken

/-! ### The status of a journal -/

/-- What an event writes to the status. -/
def statusWrite : SessionDriverEvent → Option SessionStatus
  | .sessionOpened _ snapshot | .sessionUpdated _ snapshot | .runCompleted _ snapshot _ _ =>
    some snapshot.status
  | .runFailed .. => some .failed
  | .sessionClosed _ reason => some (closedStatus reason)
  | _ => none

theorem foldSnapshot_status (s : SessionState) (snapshot : SessionSnapshot) (ts : String) :
    (foldSnapshot s snapshot ts).status = snapshot.status := by
  unfold foldSnapshot
  dsimp only
  split <;> rfl

theorem foldHostUiRequest_status (s : SessionState) (request : HostUiRequest) :
    (foldHostUiRequest s request).status = s.status := by
  unfold foldHostUiRequest
  split
  · split <;> rfl
  · split <;> rfl

/-- The status a journal folds to. -/
def statusView : FoldView SessionStatus where
  view := (·.status)
  step b ev := (statusWrite ev).getD b
  view_foldEvent st ev := by
    cases ev with
    | sessionOpened base snapshot | sessionUpdated base snapshot | runCompleted base snapshot =>
      exact foldSnapshot_status st snapshot base.timestamp
    | hostUiRequest base request => exact foldHostUiRequest_status st request
    | _ => rfl
  step_delta b ev hdelta := by
    cases ev <;> first | rfl | cases hdelta

theorem ignoresUsage_statusView : statusView.IgnoresUsage := fun _ _ _ => rfl

/-- The session runs or starts up. -/
def SessionStatus.busy : SessionStatus → Bool
  | .running | .initializing => true
  | .idle | .failed => false

/-- The journal of a session folds to a busy status. -/
def SessionHub.busy (h : SessionHub) (sid : SessionId) : Bool :=
  (h.folded statusView sid).any (·.busy)

/-! ### The gate -/

/-- The session a switch branches. -/
def Switch.branches (sw : Switch) : Option SessionId :=
  match sw.swap with
  | .branchFrom _ sid => sid
  | _ => none

/-- The session an operation branches. -/
def HubOp.branches : HubOp → Option SessionId
  | .switch _ sw | .newSession _ sw _ => sw.branches
  | _ => none

/-- The session that the applier is about to have the driver branch. -/
def Phase.branches : Phase → Option SessionId
  | .switching _ sw .begin _ | .switching _ sw .entered _ => sw.branches
  | _ => none

namespace Server

/-- `on_client_message`: a branch of a busy session is refused. -/
def onClientMessage (s : Server) (key : ℕ) (msg : ClientMessage) : Server :=
  match msg with
  | .branch _ sessionId =>
    let focusedId := (s.hub.client key).bind (·.focusedId)
    if (sessionId.or focusedId).any s.hub.busy then
      { s with
        hub := s.hub.sendToClient key
          (.error "Can't branch while a turn is running — stop it first.") }
    else s.receive key msg
  | _ => s.receive key msg

/-- A step of the server behind the gate. -/
def gatedStep (serde : Serde) (s : Server) : Action → Server
  | .input (.receive key msg) => s.onClientMessage key msg
  | a => s.step serde a

/-- The section starts the driver's branch operation for the session. -/
def Starts (s : Server) (sid : SessionId) : Action → Prop
  | .tick _ _ => ∃ key sw first, s.phase = .switching key sw .entered first ∧
      sw.branches = some sid
  | .input _ => False

/-- What is claimed of a step: no branch is started of a busy session. -/
def NeverRaces (s : Server) (a : Action) : Prop :=
  ∀ sid, s.Starts sid a → s.hub.busy sid = false

/-- A branch of the session is queued, or its switch is about to call the driver. -/
def Awaits (s : Server) (sid : SessionId) : Prop :=
  s.phase.branches = some sid ∨ ∃ op ∈ s.queue, op.branches = some sid

/-- What awaits a branch is quiet. -/
def Quiet (s : Server) : Prop := ∀ sid, s.Awaits sid → s.hub.busy sid = false

/-- No event says that a session is busy that awaits a branch, and no journal of one begins
anew from a seed that does. -/
def KeepsQuiet (s : Server) : Action → Prop
  | .input (.event _ ev) =>
    s.Awaits ev.sid → s.hub.hasJournal ev.sid = true →
      ∀ st, statusWrite ev = some st → st.busy = false
  | .tick _ _ =>
    match s.phase with
    | .switching _ sw (.folded seed sid) _ =>
      s.Awaits sid → sw.reseed = true ∨ s.hub.hasJournal sid = false →
        (foldAll seed.events).status.busy = false
    | _ => True
  | _ => True

end Server

/-! ### What is awaited -/

section Awaits

variable {serde : Serde} {s : Server}

theorem branches_recordResult (key : ℕ) (promptId : Option String) (result : PromptResult) :
    (s.recordResult key promptId result).queue = s.queue ∧
      (s.recordResult key promptId result).phase.branches = none := by
  cases promptId <;> exact ⟨rfl, rfl⟩

theorem branches_tickPrompting {key : ℕ} {call : PromptCall}
    (hphase : s.phase = .prompting key call) (answer : Answer) :
    (s.tickPrompting key call answer).queue = s.queue ∧
      (s.tickPrompting key call answer).phase.branches = none := by
  cases answer with
  | ok | failed => exact branches_recordResult _ _ _
  | panicked => exact ⟨rfl, rfl⟩
  | seed | usages =>
    refine ⟨rfl, ?_⟩
    show s.phase.branches = none
    rw [hphase]
    rfl

theorem branches_afterSwitch (key : ℕ) (sid : Option SessionId) (first : Option FirstPrompt) :
    (s.afterSwitch key sid first).queue = s.queue ∧
      (s.afterSwitch key sid first).phase.branches = none := by
  unfold Server.afterSwitch
  split
  · exact ⟨rfl, rfl⟩
  · split
    · exact ⟨rfl, rfl⟩
    · exact ⟨rfl, rfl⟩
    · exact branches_recordResult _ _ _
    · exact ⟨rfl, rfl⟩

/-- A switch puts nothing on the queue, and is awaited until the driver is called. -/
theorem branches_tickSwitch (hs : s.Seated) {key : ℕ} {sw : Switch} {stage : Stage}
    {first : Option FirstPrompt} (hphase : s.phase = .switching key sw stage first)
    (answer : Answer) : (s.tickSwitch key sw stage first answer).queue = s.queue ∧
      ((s.tickSwitch key sw stage first answer).phase.branches = none ∨
        (s.tickSwitch key sw stage first answer).phase.branches = s.phase.branches) := by
  cases stage with
  | begin =>
    simp only [Server.tickSwitch]
    split
    · split
      · exact ⟨rfl, .inl rfl⟩
      · exact ⟨rfl, .inr (by rw [hphase]; rfl)⟩
    · exact ⟨rfl, .inr (by rw [hphase]; rfl)⟩
  | waiting =>
    simp only [Server.tickSwitch]
    split
    · exact ⟨rfl, .inr rfl⟩
    · exact (branches_afterSwitch key none first).imp_right .inl
  | fetching =>
    cases answer with
    | seed | failed | panicked => exact ⟨rfl, .inl rfl⟩
    | ok | usages => exact ⟨rfl, .inr rfl⟩
  | landed result =>
    cases result with
    | error raw => exact ⟨rfl, .inl rfl⟩
    | ok seed =>
      simp only [Server.tickSwitch]
      split <;> exact ⟨rfl, .inl rfl⟩
  | folded seed sid =>
    refine ⟨rfl, .inl ?_⟩
    simp only [Server.tickSwitch, Server.install]
    split <;> rfl
  | reseeding sid msg viewers => cases viewers <;> exact ⟨rfl, .inl rfl⟩
  | finished sid =>
    -- no switch is queued on a connection, so that none goes back on the queue
    have hp : s.hub.NoPending := by
      apply hs.noPending
      intro key' sw' first' heq
      rw [hphase] at heq
      cases heq
    have hnone : (s.hub.client key).bind (·.pendingSwitch) = none := by
      cases hc : s.hub.client key with
      | none => rfl
      | some c => exact hp c (List.mem_of_find?_eq_some hc)
    simp only [Server.tickSwitch, Server.release, hnone]
    exact (branches_afterSwitch key sid first).imp_right .inl
  | entered | fetched | returned | installed | seedBuilt => exact ⟨rfl, .inl rfl⟩

/-- **The applier adds no branch to those awaited.** -/
theorem awaits_tick (hs : s.Seated) (m : Moment) {answer : Answer} {sid : SessionId}
    (h : (s.tick serde m answer).Awaits sid) : s.Awaits sid := by
  have hsame : ∀ s' : Server, s'.queue = s.queue →
      (s'.phase.branches = none ∨ s'.phase.branches = s.phase.branches) → s'.Awaits sid →
      s.Awaits sid := by
    rintro s' hqueue hphase (hawait | hop)
    · rcases hphase with hnone | hphase
      · rw [hnone] at hawait
        cases hawait
      · exact .inl (hphase ▸ hawait)
    · exact .inr (hqueue ▸ hop)
  unfold Server.tick at h
  split at h
  · next hidle =>
    split at h
    · exact h
    · next op queue hqueue =>
      -- what is left of the queue was there, and what is taken off it as well
      have htaken : ∀ s' : Server, s'.queue = queue →
          (s'.phase.branches = none ∨ s'.phase.branches = op.branches) → s'.Awaits sid →
          s.Awaits sid := by
        rintro s' hqueue' hphase (hawait | ⟨op', hop', hbranches⟩)
        · rcases hphase with hnone | hphase
          · rw [hnone] at hawait
            cases hawait
          · exact .inr ⟨op, hqueue ▸ List.mem_cons_self, hphase ▸ hawait⟩
        · rw [hqueue'] at hop'
          exact .inr ⟨op', hqueue ▸ List.mem_cons_of_mem _ hop', hbranches⟩
      -- the phase of the rest stays idle
      have hrest : ∀ h' : SessionHub, ∀ d : Driver, Server.Awaits ⟨h', queue, s.phase, d⟩ sid →
          s.Awaits sid := by
        intro h' d
        refine htaken _ rfl (.inl ?_)
        rw [hidle]
        rfl
      cases op with
      | prompt | switch | newSession => exact htaken _ rfl (.inr rfl) h
      | deltaFlush => exact hrest _ _ h
      | liveRefresh => cases answer <;> exact hrest _ _ h
      | detachSession key path =>
        simp only [Server.start] at h
        split at h <;> exact hrest _ _ h
  · next key call hphase =>
    obtain ⟨hqueue, hnone⟩ := branches_tickPrompting hphase answer
    exact hsame _ hqueue (.inl hnone) h
  · next key sw stage first hphase =>
    obtain ⟨hqueue, hbranches⟩ := branches_tickSwitch hs hphase answer
    exact hsame _ hqueue hbranches h

/-- What is queued is awaited. -/
theorem awaits_enqueue {op : HubOp} {sid : SessionId} (h : (s.enqueue op).Awaits sid) :
    s.Awaits sid ∨ op.branches = some sid := by
  rcases h with hphase | ⟨op', hmem, hbranches⟩
  · exact .inl (.inl hphase)
  · rcases List.mem_append.mp hmem with hold | hnew
    · exact .inl (.inr ⟨op', hold, hbranches⟩)
    · exact .inr (List.mem_singleton.mp hnew ▸ hbranches)

theorem awaits_enqueue_of_none {op : HubOp} (hop : op.branches = none) {sid : SessionId}
    (h : (s.enqueue op).Awaits sid) : s.Awaits sid :=
  (awaits_enqueue h).resolve_right fun hsid => by
    rw [hop] at hsid
    cases hsid

/-- **What the gate lets through**: a branch is refused by a note, or is of a session that is
not busy; all else is received as it is. -/
theorem onClientMessage_cases (s : Server) (key : ℕ) (msg : ClientMessage) :
    (∃ text, s.onClientMessage key msg =
        { s with hub := s.hub.sendToClient key (.error text) }) ∨
      s.onClientMessage key msg = s.receive key msg ∧
        ∀ sid, (s.receive key msg).Awaits sid → s.Awaits sid ∨ s.hub.busy sid = false := by
  have honce : ∀ promptId op, op.branches = none → ∀ sid,
      (s.enqueueOnce key promptId op).Awaits sid → s.Awaits sid := by
    intro promptId op hop sid h
    unfold Server.enqueueOnce at h
    split at h
    · exact h
    · exact awaits_enqueue_of_none hop h
  cases msg with
  | branch entryId sessionId =>
    simp only [Server.onClientMessage]
    split
    · exact .inl ⟨_, rfl⟩
    · next hgate =>
      refine .inr ⟨rfl, fun sid h => (awaits_enqueue h).imp_right fun hsid => ?_⟩
      have hsid : sessionId.or ((s.hub.client key).bind (·.focusedId)) = some sid := hsid
      rw [hsid, Option.any_some, Bool.not_eq_true] at hgate
      exact hgate
  | prompt | newSession => exact .inr ⟨rfl, fun sid h => .inl (honce _ _ rfl sid h)⟩
  | requestSeed => exact .inr ⟨rfl, fun sid h => .inl h⟩
  | openSession | reloadSession | detachSession =>
    exact .inr ⟨rfl, fun sid h => .inl (awaits_enqueue_of_none rfl h)⟩

end Awaits

/-! ### Runs -/

namespace Server

section Steps

variable {serde : Serde} {s : Server}

theorem Sound.gatedStep (hs : s.Sound serde) (a : Action) : (s.gatedStep serde a).Sound serde := by
  unfold Server.gatedStep
  split
  · next key msg =>
    rcases onClientMessage_cases s key msg with ⟨text, heq⟩ | ⟨heq, -⟩
    · rw [heq]
      exact hs.of_sameStore ⟨⟨rfl, rfl, rfl⟩, hs.phase⟩
    · rw [heq]
      exact hs.step (.input (.receive key msg))
  · exact hs.step _

theorem Seated.gatedStep (hs : s.Seated) (a : Action) : (s.gatedStep serde a).Seated := by
  unfold Server.gatedStep
  split
  · next key msg =>
    rcases onClientMessage_cases s key msg with ⟨text, heq⟩ | ⟨heq, -⟩
    · rw [heq]
      exact hs.of_moves (@moves_note serde s.hub key (.error text) rfl) (.inr rfl)
    · rw [heq]
      exact hs.receive key msg
  · exact hs.step _

/-- A step that adds no branch to those awaited and leaves the statuses as they are. -/
theorem Quiet.of_folded_eq (h : s.Quiet) {s' : Server}
    (hawaits : ∀ sid, s'.Awaits sid → s.Awaits sid)
    (hfolded : s'.hub.folded statusView = s.hub.folded statusView) : s'.Quiet := by
  intro sid hsid
  rw [SessionHub.busy, hfolded]
  exact h sid (hawaits sid hsid)

/-- What the event of a session leaves awaited and quiet. -/
theorem quiet_event_iff (hs : s.Sound serde) (h : s.Quiet) {m : Moment}
    {ev : SessionDriverEvent} : (s.step serde (.input (.event m ev))).Quiet ↔
      s.KeepsQuiet (.input (.event m ev)) := by
  constructor
  · intro hquiet hawaits hj st hw
    cases hclosed : isClosed ev with
    | true =>
      -- the journal may go, and the status it is left in is not busy
      cases ev with
      | sessionClosed base reason =>
        obtain rfl : closedStatus reason = st := Option.some.inj hw
        unfold closedStatus
        split <;> rfl
      | _ => cases hclosed
    | false =>
      have hj' : (s.hub.onEvent serde m ev).hasJournal ev.sid = true := by
        rcases @onEvent_hasJournal serde s.hub m ev ev.sid with hsame | ⟨hclosed', -⟩
        · exact hsame.trans hj
        · rw [hclosed] at hclosed'
          cases hclosed'
      obtain ⟨b, -, hb⟩ := folded_onEvent (v := statusView) hs.hub m hj'
      have hbusy : (s.hub.onEvent serde m ev).busy ev.sid = false := hquiet ev.sid hawaits
      rw [SessionHub.busy, hb, if_pos rfl] at hbusy
      simpa [statusView, hw] using hbusy
  · intro hk sid hsid
    have hquiet : s.hub.busy sid = false := h sid hsid
    show (s.hub.onEvent serde m ev).busy sid = false
    cases hj : (s.hub.onEvent serde m ev).hasJournal sid with
    | false => rw [SessionHub.busy, SessionHub.folded_eq_none.mpr hj, Option.any_none]
    | true =>
      obtain ⟨b, hb, hb'⟩ := folded_onEvent (v := statusView) hs.hub m hj
      rw [SessionHub.busy, hb, Option.any_some] at hquiet
      rw [SessionHub.busy, hb', Option.any_some]
      split_ifs with hev
      · subst hev
        have hj' : s.hub.hasJournal ev.sid = true := by
          rw [← SessionHub.isSome_folded _ statusView, hb]
          rfl
        show ((statusWrite ev).getD b).busy = false
        cases hw : statusWrite ev with
        | none => exact hquiet
        | some st => exact hk hsid hj' st hw
      · exact hquiet

/-- What a section of the applier leaves awaited and quiet. -/
theorem quiet_tick_iff (hs : s.Sound serde) (hseated : s.Seated) (h : s.Quiet) {m : Moment}
    {answer : Answer} : (s.step serde (.tick m answer)).Quiet ↔ s.KeepsQuiet (.tick m answer) := by
  have hawaits : ∀ sid, (s.tick serde m answer).Awaits sid → s.Awaits sid :=
    fun sid => awaits_tick hseated m
  rcases tick_install_or serde s m answer with ⟨key, sw, seed, sid, first, hphase, htick⟩ | hphase
  · have htick : s.step serde (.tick m answer) = s.install key sw seed sid first := htick
    have hbusy : ∀ sid', (s.install key sw seed sid first).hub.busy sid' =
        if sid' = sid ∧ (sw.reseed = true ∨ s.hub.hasJournal sid = false) then
          (foldAll seed.events).status.busy
        else s.hub.busy sid' := by
      intro sid'
      rw [SessionHub.busy, folded_install]
      split <;> rfl
    unfold KeepsQuiet
    simp only [hphase]
    constructor
    · intro hquiet hsid hnew
      -- the install neither takes an operation off the queue nor is one itself
      have hsid' : (s.install key sw seed sid first).Awaits sid := by
        refine .inr (hsid.resolve_left fun hnow => ?_)
        rw [hphase] at hnow
        cases hnow
      have := (htick ▸ hquiet) sid hsid'
      rwa [hbusy, if_pos ⟨rfl, hnew⟩] at this
    · intro hk sid' hsid
      have hsid : s.Awaits sid' := hawaits sid' hsid
      rw [htick, hbusy]
      split_ifs with hnew
      · obtain ⟨rfl, hnew⟩ := hnew
        exact hk hsid hnew
      · exact h sid' hsid
  · refine iff_of_true ?_ ?_
    · exact h.of_folded_eq hawaits (folded_tick hs hphase m (.inl ignoresUsage_statusView))
    · dsimp only [KeepsQuiet]
      split
      · next key sw seed sid first heq => exact absurd heq (hphase key sw seed sid first)
      · trivial

/-- **When a step leaves what awaits a branch quiet.** -/
theorem quiet_gatedStep_iff (hs : s.Sound serde) (hseated : s.Seated) (h : s.Quiet) (a : Action) :
    (s.gatedStep serde a).Quiet ↔ s.KeepsQuiet a := by
  cases a with
  | tick m answer => exact quiet_tick_iff hs hseated h
  | input i =>
    cases i with
    | event m ev => exact quiet_event_iff hs h
    | receive key msg =>
      refine iff_of_true ?_ trivial
      show (s.onClientMessage key msg).Quiet
      rcases onClientMessage_cases s key msg with ⟨text, heq⟩ | ⟨heq, hthrough⟩
      · rw [heq]
        exact h.of_folded_eq (fun _ hsid => hsid) rfl
      · rw [heq]
        intro sid hsid
        rw [SessionHub.busy, folded_sameStore (sameStore_receive s key msg).1]
        exact (hthrough sid hsid).elim (h sid) id
    | timer | liveTimer =>
      exact iff_of_true (h.of_folded_eq (fun _ => awaits_enqueue_of_none rfl) rfl) trivial
    | connect | disconnect | evict | disposeIdle =>
      exact iff_of_true (h.of_folded_eq (fun _ => id) rfl) trivial

/-- What every step of a run keeps under the condition. -/
def Guarded (serde : Serde) (s : Server) : Prop := s.Sound serde ∧ s.Seated ∧ s.Quiet

theorem Guarded.gatedStep_iff (h : s.Guarded serde) (a : Action) :
    s.KeepsQuiet a ↔ (s.gatedStep serde a).Guarded serde := by
  obtain ⟨hs, hseated, hquiet⟩ := h
  rw [← quiet_gatedStep_iff hs hseated hquiet a]
  exact ⟨fun h => ⟨hs.gatedStep a, hseated.gatedStep a, h⟩, fun h => h.2.2⟩

theorem guarded_boot (serde : Serde) (deltaFlushMs nowMs : ℕ) (defaultSeed : Option SwapSeed) :
    (boot deltaFlushMs nowMs defaultSeed).Guarded serde := by
  refine ⟨sound_boot serde deltaFlushMs nowMs defaultSeed,
    seated_boot deltaFlushMs nowMs defaultSeed, ?_⟩
  rintro sid (hphase | ⟨op, hop, -⟩)
  · cases hphase
  · cases hop

/-- A branch that is started was awaited. -/
theorem Quiet.neverRaces (h : s.Quiet) (a : Action) : s.NeverRaces a := by
  intro sid hstarts
  cases a with
  | input => exact hstarts.elim
  | tick m answer =>
    obtain ⟨key, sw, first, hphase, hsid⟩ := hstarts
    refine h sid (.inl ?_)
    rw [hphase]
    exact hsid

end Steps

/-- What awaits a branch is quiet in every state of a run exactly when every step makes no
session busy that awaits one. -/
theorem along_keepsQuiet_iff (serde : Serde) (deltaFlushMs nowMs : ℕ)
    (defaultSeed : Option SwapSeed) (acts : List Action) :
    Along (gatedStep serde) KeepsQuiet (boot deltaFlushMs nowMs defaultSeed) acts ↔
      ∀ pre, pre <+: acts →
        (pre.foldl (gatedStep serde) (boot deltaFlushMs nowMs defaultSeed)).Quiet := by
  exact along_iff_forall_part_of (I := Guarded serde) (fun s a hs => (hs.gatedStep_iff a).mp)
    (fun s hs => hs.2.2) (fun s a hs => (quiet_gatedStep_iff hs.1 hs.2.1 hs.2.2 a).mp)
    (guarded_boot serde deltaFlushMs nowMs defaultSeed) acts

/-- **No branch races a turn** in a run whose steps make no session busy that awaits one:
whatever is interleaved, the driver's branch operation is started of sessions alone that are
neither running nor starting up. -/
theorem along_neverRaces_of_keeps (serde : Serde) (deltaFlushMs nowMs : ℕ)
    (defaultSeed : Option SwapSeed) {acts : List Action}
    (h : Along (gatedStep serde) KeepsQuiet (boot deltaFlushMs nowMs defaultSeed) acts) :
    Along (gatedStep serde) NeverRaces (boot deltaFlushMs nowMs defaultSeed) acts := by
  exact h.mono (fun s a hs hk => (hs.gatedStep_iff a).mp hk) (fun s a hs _ => hs.2.2.neverRaces a)
    (guarded_boot serde deltaFlushMs nowMs defaultSeed)

/-! ### The divergence -/

/-- A branch of an idle session is let through and started. -/
theorem neverRaces_idle :
    let serde : Serde := ⟨fun _ => 0, fun _ => none⟩
    let m : Moment := ⟨default, 0, true⟩
    let before : List Action := .input (.connect none) ::
      .input (.receive 0 (.branch "e" (some "s"))) :: ticks m 2
    let s := before.foldl (gatedStep serde) (boot 0 0 (some (titledSeed "title")))
    s.Starts "s" (.tick m .ok) ∧ s.hub.busy "s" = false := by
  intro serde m before s
  have hkeeps : Along (gatedStep serde) KeepsQuiet (boot 0 0 (some (titledSeed "title")))
      (before ++ [.tick m .ok]) := ⟨trivial, trivial, trivial, trivial, trivial, trivial⟩
  have hnever := along_neverRaces_of_keeps serde 0 0 (some (titledSeed "title")) hkeeps
  have hstarts : s.Starts "s" (.tick m .ok) :=
    ⟨0, ⟨.branchFrom "e" (some "s"), true, false⟩, none, rfl, rfl⟩
  exact ⟨hstarts, (along_append.mp hnever).2.1 "s" hstarts⟩

/-- **A turn begins while the branch is queued**: the branch comes in behind a prompt that is
not sent yet, and the driver is told to branch the session the prompt has set to work. -/
theorem not_neverRaces :
    let serde : Serde := ⟨fun _ => 0, fun _ => none⟩
    let m : Moment := ⟨default, 0, true⟩
    let runs : SessionDriverEvent := .sessionUpdated ⟨⟨"w", "s"⟩, "t", none⟩
      { metaSnapshot initialSessionState ⟨"w", "s"⟩ "t" with status := .running }
    let before : List Action :=
      [.input (.connect none), .input (.receive 0 (.prompt "go on" none none none (some "s"))),
        .input (.receive 0 (.branch "e" (some "s")))] ++ ticks m 2 ++
      [.input (.event m runs)] ++ ticks m 2
    let s := before.foldl (gatedStep serde) (boot 0 0 (some (titledSeed "title")))
    s.Starts "s" (.tick m .ok) ∧ s.hub.busy "s" = true ∧
      ¬Along (gatedStep serde) NeverRaces (boot 0 0 (some (titledSeed "title")))
        (before ++ [.tick m .ok]) := by
  intro serde m runs before s
  have hstarts : s.Starts "s" (.tick m .ok) :=
    ⟨0, ⟨.branchFrom "e" (some "s"), true, false⟩, none, rfl, rfl⟩
  have hbusy : s.hub.busy "s" = true := by decide
  refine ⟨hstarts, hbusy, fun hnever => ?_⟩
  have hquiet := (along_append.mp hnever).2.1 "s" hstarts
  rw [hbusy] at hquiet
  cases hquiet

end Server

end Pantoken
