import Pantoken.Desktop.Bridge

/-!
# A connection attempt

An attempt to reach a remote host is a task with a connection state of its own.  The task
looks at the container where the profile names one, provisions the host and runs the
bridge, which starts a task for each socket a browser opens.  The tasks tell the connection
state what they do, and it believes all of them.

## Main definitions

* `Attempt`, `Attempt.step` — an attempt, and a step of one of its tasks.
* `Attempt.acting` — whether one of its tasks has not ended.
* `Attempt.greeted` — whether a proxy that runs has answered the hello.
* `Attempt.Calm` — no proxy was spawned, and until the bridge runs nothing failed.
* `Attempt.Sound` — until a socket is upgraded, the bridge is shown as starting.

## Main results

* `calm_step` — an attempt stays calm until one of its relays spawns a proxy.
* `sound_step` — an attempt that is not stopped stays sound.
* `acting_of_acting_step` — an attempt that ended does not act again.
-/

namespace Pantoken.Desktop

/-! ### States -/

namespace ConnectionState

/-- `is_terminal` -/
def isTerminal : ConnectionState → Bool
  | .failed _ _ | .disconnected => true
  | _ => false

def isFailed : ConnectionState → Bool
  | .failed _ _ => true
  | _ => false

end ConnectionState

/-- `ExecutionTargetProfile`, of which the attempt reads which of the two it is. -/
inductive ExecutionTarget
  | host | dockerContainer
  deriving DecidableEq, Repr

/-- The phases `preflight_docker` goes through. -/
def preflightPhases : List PreflightPhase :=
  [.checkingDockerAccess, .locatingContainer, .inspectingIdentity, .checkingUserPermissions,
    .checkingPersistence]

/-- Where the task of an attempt is. -/
inductive Stage
  /-- `preflight_docker`, with the phases that are left. -/
  | preflight (rest : List PreflightPhase)
  /-- The executor is there. -/
  | connecting
  | reconciling
  /-- `reconcile` has told that it provisions. -/
  | provisioning
  | binding
  | listening
  | done
  deriving DecidableEq, Repr

/-- The task has not come to the bridge's loop. -/
def Stage.early : Stage → Bool
  | .listening | .done => false
  | _ => true

/-- What `preflight_docker` returns. -/
inductive PreflightResult
  | ready
  | awaitingAcknowledgement (pendingRisks : List PendingRisk)
  | error (detail : String)
  deriving DecidableEq, Repr

/-! ### Relays without a proxy -/

namespace Relay

variable {M N : Type*} {r : Relay M N}

/-- The relay's task is over. -/
def finished (r : Relay M N) : Bool :=
  match r.phase with
  | .finished => true
  | _ => false

/-- A relay that has not spawned a proxy. -/
def Proxyless (r : Relay M N) : Prop :=
  match r.phase with
  | .spawning | .finished => True
  | _ => False

/-- The proxy the relay has answered the hello. -/
def greeted (isHello : N → Bool) (r : Relay M N) : Bool :=
  match r.phase with
  | .relaying _ proxy => proxy.said.any isHello
  | _ => false

theorem greeted_of_proxyless {isHello : N → Bool} (h : r.Proxyless) :
    r.greeted isHello = false := by
  unfold Proxyless at h
  unfold greeted
  split at h
  · next hphase => rw [hphase]
  · next hphase => rw [hphase]
  · exact h.elim

/-- The spawn of a proxy succeeds. -/
def Spawns (r : Relay M N) : RelayAction M N → Prop
  | .spawned (.ok _) => r.phase = .spawning
  | _ => False

/-- A relay without a proxy stays so until one is spawned, and tells failures only. -/
theorem step_of_proxyless (h : r.Proxyless) (a : RelayAction M N) (ha : ¬ r.Spawns a) :
    (r.step a).Proxyless ∧ ((r.step a).told = r.told ∨
      ∃ kind detail, (r.step a).told = r.told ++ [.failed kind detail]) := by
  have hphase : r.phase = .spawning ∨ r.phase = .finished := by
    unfold Proxyless at h
    split at h
    · next hphase => exact .inl hphase
    · next hphase => exact .inr hphase
    · exact h.elim
  rcases hphase with hphase | hphase
  · cases a with
    | spawned result =>
      cases result with
      | ok spawned => exact absurd (by simp [Spawns, hphase]) ha
      | error e =>
        refine ⟨by simp [step, hphase, finish, Proxyless], .inr ⟨.proxyStartFailed,
          "could not start SSH proxy: " ++ e, ?_⟩⟩
        simp [step, hphase, finish, tell]
    | _ => simp [step, hphase, Proxyless]
  · cases a <;> simp [step, hphase, Proxyless]

theorem finished_step (h : r.finished = true) (a : RelayAction M N) :
    (r.step a).finished = true := by
  have hphase : r.phase = .finished := by
    unfold finished at h
    split at h
    · next hphase => exact hphase
    · cases h
  cases a <;> simp [step, hphase, finished]

end Relay

/-! ### Attempts -/

/-- An attempt: what it is for, where its task and the tasks of the sockets are, and the
state of its `RemoteConnection`.  A browser learns the port once the attempt's session is
published. -/
structure Attempt (M N : Type*) where
  target : ExecutionTarget
  port : Nat
  stage : Stage
  state : ConnectionState := .testingSsh
  published : Bool := false
  cancelled : Bool := false
  /-- sockets that were accepted, and are not upgraded -/
  sockets : Nat := 0
  relays : List (Relay M N) := []

inductive AttemptAction (M N : Type*)
  | phase
  | preflighted (result : PreflightResult)
  | connect
  | provision
  | reconciled (result : Except String Unit)
  | bind (ok : Bool)
  | accept
  | shutdown
  | upgrade (ok : Bool)
  | relay (k : Nat) (a : RelayAction M N)

namespace Attempt

variable {M N : Type*}

/-- `begin`, and the task that is spawned. -/
def start (target : ExecutionTarget) (port : Nat) : Attempt M N :=
  { target, port,
    stage := match target with
      | .host => .connecting
      | .dockerContainer => .preflight preflightPhases }

/-- `on_state` -/
def onState (s : Attempt M N) (state : ConnectionState) : Attempt M N := { s with state }

/-- `RemoteConnection::disconnect` -/
def disconnect (s : Attempt M N) : Attempt M N := { s with state := .disconnected }

/-- The token of the session, and with it those of the sockets, is cancelled. -/
def cancel (s : Attempt M N) : Attempt M N :=
  { s with cancelled := true, relays := s.relays.map (·.step .cancel) }

/-- A relay's new state, and what it told on the way. -/
def setRelay (s : Attempt M N) (k : Nat) (r r' : Relay M N) : Attempt M N :=
  { (r'.told.drop r.told.length).foldl onState s with relays := s.relays.set k r' }

/-- `handle_browser_connection`, once the socket is upgraded. -/
def upgraded (s : Attempt M N) : Attempt M N :=
  { (s.onState .connecting).onState .starting with
    sockets := s.sockets - 1
    relays := s.relays ++ [{ cancelled := s.cancelled }] }

/-- A step of the attempt's task, of the bridge's loop, or of the task of a socket. -/
def step (s : Attempt M N) (a : AttemptAction M N) : Attempt M N :=
  match a, s.stage with
  | .phase, .preflight (phase :: rest) =>
    { s.onState (.preflight phase) with stage := .preflight rest }
  | .preflighted .ready, .preflight [] => { s with stage := .connecting }
  | .preflighted (.awaitingAcknowledgement pendingRisks), .preflight [] =>
    { s.onState (.awaitingAcknowledgement .checkingPersistence pendingRisks) with stage := .done }
  | .preflighted (.error detail), .preflight _ =>
    { s.onState (.failed .provisioningFailed detail) with stage := .done }
  | .connect, .connecting => { s.onState .connecting with stage := .reconciling }
  | .provision, .reconciling => { s.onState .provisioning with stage := .provisioning }
  | .reconciled (.ok ()), .provisioning => { s.onState .starting with stage := .binding }
  | .reconciled (.error detail), .provisioning =>
    { s.onState (.failed .provisioningFailed detail) with stage := .done }
  | .bind true, .binding => { s with stage := .listening }
  -- the error is only printed
  | .bind false, .binding => { s with stage := .done }
  | .accept, .listening =>
    if s.cancelled || !s.published then s else { s with sockets := s.sockets + 1 }
  | .shutdown, .listening => if s.cancelled then { s with stage := .done } else s
  | .upgrade ok, _ =>
    if s.sockets = 0 then s
    else if ok then s.upgraded
    else { s with sockets := s.sockets - 1 }
  -- the tokens of the sockets are cancelled with the session's
  | .relay _ .cancel, _ => s
  | .relay k a, _ =>
    match s.relays[k]? with
    | none => s
    | some r => s.setRelay k r (r.step a)
  | _, _ => s

/-- One of the attempt's tasks has not ended. -/
def acting (s : Attempt M N) : Bool :=
  s.stage != .done || s.sockets != 0 || s.relays.any (!·.finished)

/-- A proxy of the attempt runs that has answered the hello. -/
def greeted (isHello : N → Bool) (s : Attempt M N) : Bool := s.relays.any (·.greeted isHello)

/-- The step spawns a proxy. -/
def Spawns (s : Attempt M N) : AttemptAction M N → Prop
  | .relay k a => ∃ r, s.relays[k]? = some r ∧ r.Spawns a
  | _ => False

/-- No proxy was spawned, and until the bridge runs nothing failed and there is no socket. -/
structure Calm (s : Attempt M N) : Prop where
  proxyless : ∀ r ∈ s.relays, r.Proxyless
  notReady : s.state ≠ .ready
  early : s.stage.early = true → s.state.isTerminal = false ∧ s.sockets = 0 ∧ s.relays = []

/-! ### What a step does -/

/-- What a step can do: nothing; a step of the task on its way to the bridge; a socket
accepted or lost, the bridge shut down, a socket upgraded; a step of a relay. -/
inductive Moves (s : Attempt M N) (a : AttemptAction M N) : Attempt M N → Prop
  | idle : Moves s a s
  | task (state : ConnectionState) (stage : Stage) (hearly : s.stage.early = true)
      (hstate : state = s.state ∨
        state ≠ .ready ∧ (state.isTerminal = true → stage = .done))
      (hbound : stage = .listening → a = .bind true ∧ s.stage = .binding) :
      Moves s a { s with state, stage }
  | accept (ha : a = .accept) (hstage : s.stage = .listening) (hpublished : s.published = true) :
      Moves s a { s with sockets := s.sockets + 1 }
  | drop (hsockets : s.sockets ≠ 0) : Moves s a { s with sockets := s.sockets - 1 }
  | shutdown (hstage : s.stage = .listening) : Moves s a { s with stage := .done }
  | upgrade (ha : a = .upgrade true) (hsockets : s.sockets ≠ 0) : Moves s a s.upgraded
  | relay (k : Nat) (act : RelayAction M N) (r : Relay M N) (ha : a = .relay k act)
      (hr : s.relays[k]? = some r) : Moves s a (s.setRelay k r (r.step act))

section Steps

variable {s s' : Attempt M N} {a : AttemptAction M N}

/-- The task goes on and tells nothing. -/
theorem Moves.go (stage : Stage) (hearly : s.stage.early = true)
    (hbound : stage = .listening → a = .bind true ∧ s.stage = .binding) :
    Moves s a { s with stage } :=
  .task s.state stage hearly (.inl rfl) hbound

/-- The task tells a state; after a failure it is over. -/
theorem Moves.tell (state : ConnectionState) (stage : Stage) (hearly : s.stage.early = true)
    (hready : state ≠ .ready) (hdone : state.isTerminal = true → stage = .done)
    (hstage : stage ≠ .listening) : Moves s a { s.onState state with stage } :=
  .task state stage hearly (.inr ⟨hready, hdone⟩) fun heq => absurd heq hstage

theorem moves_step (s : Attempt M N) (a : AttemptAction M N) : Moves s a (s.step a) := by
  unfold step
  split
  · next phase rest hstage =>
    exact .tell _ _ (by rw [hstage]; rfl) (by simp) (by simp [ConnectionState.isTerminal])
      (by simp)
  · next hstage => exact .go _ (by rw [hstage]; rfl) (by simp)
  · next hstage =>
    exact .tell _ _ (by rw [hstage]; rfl) (by simp) (fun _ => rfl) (by simp)
  · next hstage =>
    exact .tell _ _ (by rw [hstage]; rfl) (by simp) (fun _ => rfl) (by simp)
  · next hstage =>
    exact .tell _ _ (by rw [hstage]; rfl) (by simp) (by simp [ConnectionState.isTerminal])
      (by simp)
  · next hstage =>
    exact .tell _ _ (by rw [hstage]; rfl) (by simp) (by simp [ConnectionState.isTerminal])
      (by simp)
  · next hstage =>
    exact .tell _ _ (by rw [hstage]; rfl) (by simp) (by simp [ConnectionState.isTerminal])
      (by simp)
  · next hstage =>
    exact .tell _ _ (by rw [hstage]; rfl) (by simp) (fun _ => rfl) (by simp)
  · next hstage => exact .go _ (by rw [hstage]; rfl) fun _ => ⟨rfl, hstage⟩
  · next hstage => exact .go _ (by rw [hstage]; rfl) (by simp)
  · next hstage =>
    split
    · exact .idle
    · next hopen =>
      have hopen' : s.cancelled = false ∧ s.published = true := by simpa using hopen
      exact .accept rfl hstage hopen'.2
  · next hstage =>
    split
    · exact .shutdown hstage
    · exact .idle
  · split
    · exact .idle
    · next hsockets =>
      split
      · next hok => exact .upgrade (by rw [hok]) hsockets
      · exact .drop hsockets
  · exact .idle
  · split
    · exact .idle
    · next r hr => exact .relay _ _ r rfl hr
  · exact .idle

theorem foldl_onState (states : List ConnectionState) :
    states.foldl onState s = { s with state := states.getLastD s.state } := by
  induction states generalizing s with
  | nil => rfl
  | cons state states ih =>
    rw [List.foldl_cons, ih, List.getLastD_cons]
    rfl

/-- A relay without a proxy leaves the attempt's state, or fails it. -/
theorem setRelay_of_proxyless {r : Relay M N} (h : r.Proxyless) {act : RelayAction M N}
    (hact : ¬ r.Spawns act) (k : Nat) : ∃ state, s.setRelay k r (r.step act) =
      { s with state, relays := s.relays.set k (r.step act) } ∧
      (state = s.state ∨ state.isFailed = true) := by
  unfold setRelay
  rw [foldl_onState]
  rcases (Relay.step_of_proxyless h act hact).2 with htold | ⟨kind, detail, htold⟩
  · rw [htold, List.drop_length]
    exact ⟨_, rfl, .inl rfl⟩
  · rw [htold, List.drop_left]
    exact ⟨_, rfl, .inr rfl⟩

theorem published_step : (s.step a).published = s.published := by
  have h := moves_step s a
  generalize s.step a = s' at h ⊢
  cases h with
  | relay k act r ha hr => simp [setRelay, foldl_onState]
  | _ => rfl

/-- **An attempt stays calm until one of its relays spawns a proxy.** -/
theorem calm_step (h : s.Calm) (ha : ¬ s.Spawns a) : (s.step a).Calm := by
  have hmoves := moves_step s a
  generalize s.step a = s' at hmoves ⊢
  cases hmoves with
  | idle => exact h
  | task state stage hearly hstate hbound =>
    obtain ⟨hterminal, hsockets, hrelays⟩ := h.early hearly
    refine ⟨h.proxyless, ?_, fun hstage => ⟨?_, hsockets, hrelays⟩⟩
    · rcases hstate with rfl | ⟨hready, -⟩
      · exact h.notReady
      · exact hready
    · rcases hstate with rfl | ⟨-, hdone⟩
      · exact hterminal
      · cases hstate : state.isTerminal with
        | false => rfl
        | true =>
          rw [hdone hstate] at hstage
          cases hstage
  | accept ha hstage hpublished =>
    exact ⟨h.proxyless, h.notReady, fun hearly => by simp [hstage, Stage.early] at hearly⟩
  | drop hsockets =>
    exact ⟨h.proxyless, h.notReady, fun hearly => absurd (h.early hearly).2.1 hsockets⟩
  | shutdown hstage =>
    exact ⟨h.proxyless, h.notReady, fun hearly => by simp [Stage.early] at hearly⟩
  | upgrade hup hsockets =>
    refine ⟨?_, by simp [upgraded, onState], fun hearly => absurd (h.early hearly).2.1 hsockets⟩
    intro r hr
    rcases List.mem_append.mp hr with hr | hr
    · exact h.proxyless r hr
    · rw [List.mem_singleton.mp hr]
      exact trivial
  | relay k act r hact hr =>
    have hmem : r ∈ s.relays := List.mem_of_getElem? hr
    have hspawns : ¬ r.Spawns act := by
      intro hspawns
      rw [hact] at ha
      exact ha ⟨r, hr, hspawns⟩
    obtain ⟨state, heq, hstate⟩ := setRelay_of_proxyless (s := s) (h.proxyless r hmem) hspawns k
    rw [heq]
    refine ⟨?_, ?_, fun hearly => ?_⟩
    · intro r' hr'
      rcases List.mem_or_eq_of_mem_set hr' with hr' | rfl
      · exact h.proxyless r' hr'
      · exact (Relay.step_of_proxyless (h.proxyless r hmem) act hspawns).1
    · rcases hstate with rfl | hfailed
      · exact h.notReady
      · rintro hready
        rw [show state = .ready from hready] at hfailed
        cases hfailed
    · rw [(h.early hearly).2.2] at hmem
      cases hmem

/-- A calm attempt that failed stays so, unless a socket is upgraded. -/
theorem isTerminal_step (h : s.Calm) (ha : ¬ s.Spawns a)
    (hup : a = .upgrade true → s.sockets = 0) (hterminal : s.state.isTerminal = true) :
    (s.step a).state.isTerminal = true := by
  have hmoves := moves_step s a
  generalize s.step a = s' at hmoves ⊢
  cases hmoves with
  | task state stage hearly hstate hbound =>
    rw [(h.early hearly).1] at hterminal
    cases hterminal
  | upgrade hact hsockets => exact absurd (hup hact) hsockets
  | relay k act r hact hr =>
    have hspawns : ¬ r.Spawns act := by
      intro hspawns
      rw [hact] at ha
      exact ha ⟨r, hr, hspawns⟩
    obtain ⟨state, heq, hstate⟩ :=
      setRelay_of_proxyless (s := s) (h.proxyless r (List.mem_of_getElem? hr)) hspawns k
    rw [heq]
    rcases hstate with rfl | hfailed
    · exact hterminal
    · cases state <;> first
        | rfl
        | cases hfailed
  | _ => exact hterminal

/-- **An attempt that ended does not act again.** -/
theorem acting_of_acting_step (h : (s.step a).acting = true) : s.acting = true := by
  have hmoves := moves_step s a
  generalize s.step a = s' at hmoves h
  by_contra hnot
  simp only [acting, Bool.or_eq_true, bne_iff_ne, ne_eq, not_or, not_not, Bool.not_eq_true] at hnot
  obtain ⟨⟨hdone, hzero⟩, hrelays⟩ := hnot
  cases hmoves with
  | idle => simp [acting, hdone, hzero, hrelays] at h
  | task state stage hearly hstate hbound =>
    rw [hdone] at hearly
    cases hearly
  | accept ha hstage hpublished =>
    rw [hdone] at hstage
    cases hstage
  | drop hsockets => exact hsockets hzero
  | shutdown hstage =>
    rw [hdone] at hstage
    cases hstage
  | upgrade hact hsockets => exact hsockets hzero
  | relay k act r hact hr =>
    have hall : ∀ r' ∈ s.relays, r'.finished = true := by
      intro r' hr'
      simpa using List.any_eq_false.mp hrelays r' hr'
    have hset : (s.relays.set k (r.step act)).any (!·.finished) = false := by
      rw [List.any_eq_false]
      intro r' hr'
      rcases List.mem_or_eq_of_mem_set hr' with hr' | rfl
      · simp [hall r' hr']
      · simp [Relay.finished_step (hall r (List.mem_of_getElem? hr)) act]
    simp [acting, setRelay, foldl_onState, hdone, hzero, hset] at h

/-! ### Until a browser comes -/

/-- An attempt that is published and not cancelled: before the bridge runs there are no
sockets, and until one was upgraded its bridge is shown as starting. -/
structure Sound (s : Attempt M N) : Prop where
  cancelled : s.cancelled = false
  published : s.published = true
  early : s.stage.early = true → s.sockets = 0 ∧ s.relays = []
  starting : s.stage = .binding ∨ s.stage = .listening → s.relays = [] → s.state = .starting

theorem sound_start (target : ExecutionTarget) (port : Nat) :
    ({ start target port with published := true } : Attempt M N).Sound := by
  refine ⟨rfl, rfl, fun _ => ⟨rfl, rfl⟩, ?_⟩
  cases target <;> simp [start]

/-- The task goes on where no bridge is bound yet. -/
theorem Sound.task (h : s.Sound) (hearly : s.stage.early = true) (state : ConnectionState)
    {stage : Stage} (hstage : stage ≠ .binding ∧ stage ≠ .listening) :
    ({ s with state, stage } : Attempt M N).Sound :=
  ⟨h.cancelled, h.published, fun _ => h.early hearly, fun hbound => by
    rcases hbound with hbound | hbound
    · exact absurd hbound hstage.1
    · exact absurd hbound hstage.2⟩

theorem sound_step (h : s.Sound) (a : AttemptAction M N) : (s.step a).Sound := by
  unfold step
  split
  · next hstage => exact h.task (by rw [hstage]; rfl) _ (by simp)
  · next hstage => exact h.task (by rw [hstage]; rfl) _ (by simp)
  · next hstage => exact h.task (by rw [hstage]; rfl) _ (by simp)
  · next hstage => exact h.task (by rw [hstage]; rfl) _ (by simp)
  · next hstage => exact h.task (by rw [hstage]; rfl) _ (by simp)
  · next hstage => exact h.task (by rw [hstage]; rfl) _ (by simp)
  · next hstage =>
    have hearly := h.early (by rw [hstage]; rfl)
    exact ⟨h.cancelled, h.published, fun _ => hearly, fun _ _ => rfl⟩
  · next hstage => exact h.task (by rw [hstage]; rfl) _ (by simp)
  · next hstage =>
    exact ⟨h.cancelled, h.published, fun hearly => Bool.noConfusion hearly,
      fun _ => h.starting (.inl hstage)⟩
  · next hstage => exact h.task (by rw [hstage]; rfl) _ (by simp)
  · next hstage =>
    split
    · exact h
    · refine ⟨h.cancelled, h.published, fun hearly => ?_, h.starting⟩
      rw [hstage] at hearly
      cases hearly
  · split
    · next hcancelled =>
      rw [h.cancelled] at hcancelled
      cases hcancelled
    · exact h
  · split
    · exact h
    · next hsockets =>
      split
      · refine ⟨h.cancelled, h.published, fun hearly => ?_, fun _ hrelays => ?_⟩
        · exact absurd (h.early hearly).1 hsockets
        · simp [upgraded] at hrelays
      · exact ⟨h.cancelled, h.published, fun hearly => absurd (h.early hearly).1 hsockets,
          h.starting⟩
  · exact h
  · split
    · exact h
    · next r hr =>
      have hne : s.relays ≠ [] := List.ne_nil_of_mem (List.mem_of_getElem? hr)
      unfold setRelay
      rw [foldl_onState]
      refine ⟨h.cancelled, h.published, fun hearly => absurd (h.early hearly).2 hne, ?_⟩
      intro _ hrelays
      exact absurd (by simpa using hrelays) hne
  · exact h

/-- The port is the one the attempt began with, and sockets come from the bridge's loop. -/
theorem port_step : (s.step a).port = s.port := by
  have h := moves_step s a
  generalize s.step a = s' at h ⊢
  cases h with
  | relay k act r ha hr => simp [setRelay, foldl_onState]
  | _ => rfl

/-- Sockets and relays come from sockets and relays, but for those that are accepted. -/
theorem reached_of_step (ha : a ≠ .accept)
    (h : (s.step a).sockets ≠ 0 ∨ (s.step a).relays ≠ []) : s.sockets ≠ 0 ∨ s.relays ≠ [] := by
  have hmoves := moves_step s a
  generalize s.step a = s' at hmoves h
  cases hmoves with
  | accept hact => exact absurd hact ha
  | drop hsockets => exact .inl hsockets
  | upgrade hact hsockets => exact .inl hsockets
  | relay k act r hact hr => exact .inr (List.ne_nil_of_mem (List.mem_of_getElem? hr))
  | _ => exact h

/-- The bridge listens once it is bound. -/
theorem listening_of_step (h : (s.step a).stage = .listening) :
    s.stage = .listening ∨ a = .bind true ∧ s.stage = .binding := by
  have hmoves := moves_step s a
  generalize s.step a = s' at hmoves h
  cases hmoves with
  | task state stage hearly hstate hbound => exact .inr (hbound h)
  | shutdown hstage => cases h
  | upgrade hact hsockets => exact .inl h
  | relay k act r hact hr =>
    rw [setRelay, foldl_onState] at h
    exact .inl h
  | _ => exact .inl h

/-- A bridge that listens, and that nobody has reached, stays as it is. -/
theorem Sound.step_of_unreached (h : s.Sound) (hstage : s.stage = .listening)
    (hsockets : s.sockets = 0) (hrelays : s.relays = []) (ha : a ≠ .accept) : s.step a = s := by
  cases a with
  | accept => exact absurd rfl ha
  | shutdown => simp [step, hstage, h.cancelled]
  | upgrade ok => simp [step, hsockets]
  | relay k act => cases act <;> simp [step, hrelays]
  | preflighted result => cases result <;> simp [step, hstage]
  | reconciled result => cases result <;> simp [step, hstage]
  | bind ok => cases ok <;> simp [step, hstage]
  | _ => simp [step, hstage]

end Steps

end Attempt
end Pantoken.Desktop
