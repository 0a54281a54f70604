import Mathlib.Data.Finset.Card
import Pantoken.Lib.Run

/-!
# The idle exit of the remote runtime

A loop wakes again and again, reads one after another whether somebody is connected, whether
a turn is in flight and how many sessions are warm, and lets the runtime exit when it has read
nothing for long enough.  The accept loop looks at its signal between two connections.

## Main definitions

* `Runtime`, `Runtime.step` — the two loops on a clock, and what goes on around them.
* `Runtime.Dormant` — nothing is connected, queued or in flight, nor was for `hub_idle_ms`.
* `Runtime.Keeps` — a look that finds nothing is right, and nothing begins after it.

## Main results

* `leavesDormant_of_keeps` — **in such a run the accept loop is left dormant.**
* `exit_drops_connection` — a connection that has still to say hello is dropped.
-/

namespace Pantoken.Remote

/-- `LifecycleConfig`, in milliseconds. -/
structure LifecycleConfig where
  idleReapMs : Int
  hubIdleMs : Int

/-- Where the lifecycle loop is, with what it has read.  `now` is the time it woke. -/
inductive LifecyclePhase
  | sleeping
  | connections (now : Nat)
  | turns (now : Nat) (hasConnections : Bool)
  | warm (now : Nat) (hasConnections hasActiveTurn : Bool)
  /-- `dispose_idle_warm` is awaited. -/
  | disposing (now : Nat)
  | exiting (now : Nat)
  | ended
  deriving DecidableEq

inductive AcceptPhase
  | checking | accepting | left
  deriving DecidableEq

/-- The runtime on a clock in milliseconds.  A connection that was accepted is a client from
its hello on; a session is flagged where its cached state says that a turn is in flight. -/
structure Runtime where
  now : Nat := 0
  accepted : Finset Nat := ∅
  clients : Finset Nat := ∅
  /-- hub operations, queued or running -/
  ops : Nat := 0
  turns : Finset String := ∅
  warm : Finset String := ∅
  flagged : Finset String := ∅
  lastActivity : Nat := 0
  lastReap : Nat := 0
  phase : LifecyclePhase := .sleeping
  exitSignal : Bool := false
  accepting : AcceptPhase := .checking
  /-- for how long nobody has been connected and no turn has run -/
  quiet : Nat := 0

inductive RuntimeAction
  | elapse (ms : Nat)
  | hello (conn : Nat)
  | disconnect (conn : Nat)
  | enqueue
  | opDone
  | turnStarts (sid : String)
  | turnEnds (sid : String)
  | warmUp (sid : String)
  | cacheState (sid : String) (inFlight : Bool)
  /-- The lifecycle loop wakes, or goes on to what it reads next. -/
  | wake
  | readConnections
  | readTurns
  | readWarm
  | disposed
  | readWarmAgain
  /-- The accept loop looks at the signal. -/
  | checkExit
  | accept (conn : Nat)
  /-- A second passes without a connection, or accepting fails. -/
  | acceptNothing
  deriving DecidableEq

namespace Runtime

/-- Somebody is connected or a turn runs. -/
def active (s : Runtime) : Bool := decide (s.clients ≠ ∅) || decide (s.turns ≠ ∅)

/-- `any_turn_in_flight` -/
def anyTurnInFlight (s : Runtime) : Bool := decide (s.warm ∩ s.flagged ≠ ∅)

/-- `idle_duration` -/
def idleDuration (s : Runtime) (now : Nat) : Nat := now - s.lastActivity

section Step

variable (config : LifecycleConfig)

/-- The sessions are to be disposed of. -/
def reaps (s : Runtime) (now : Nat) : Bool :=
  decide (0 < config.idleReapMs) && decide (config.idleReapMs ≤ s.idleDuration now) &&
    decide (s.warm ≠ ∅) && decide (config.idleReapMs ≤ (now - s.lastReap : Nat))

/-- The hub has been idle for long enough. -/
def due (s : Runtime) (now : Nat) : Bool :=
  decide (0 < config.hubIdleMs) && decide (config.hubIdleMs ≤ s.idleDuration now)

/-- `run_lifecycle_loop` and the accept loop of `run_remote_runtime`, and what goes on around
them. -/
def step (s : Runtime) : RuntimeAction → Runtime
  | .elapse ms =>
    { s with now := s.now + ms, quiet := if s.active then 0 else s.quiet + ms }
  | .hello conn =>
    if conn ∈ s.accepted then { s with clients := insert conn s.clients, quiet := 0 } else s
  | .disconnect conn =>
    { s with accepted := s.accepted.erase conn, clients := s.clients.erase conn }
  | .enqueue => { s with ops := s.ops + 1 }
  | .opDone => { s with ops := s.ops - 1 }
  | .turnStarts sid => { s with turns := insert sid s.turns, quiet := 0 }
  | .turnEnds sid => { s with turns := s.turns.erase sid }
  | .warmUp sid => { s with warm := insert sid s.warm }
  | .cacheState sid inFlight =>
    { s with flagged := if inFlight then insert sid s.flagged else s.flagged.erase sid }
  | .wake => if s.phase = .sleeping then { s with phase := .connections s.now } else s
  | .readConnections =>
    match s.phase with
    | .connections now => { s with phase := .turns now (decide (s.clients ≠ ∅)) }
    | _ => s
  | .readTurns =>
    match s.phase with
    | .turns now hasConnections => { s with phase := .warm now hasConnections s.anyTurnInFlight }
    | _ => s
  | .readWarm =>
    match s.phase with
    | .warm now hasConnections hasActiveTurn =>
      if hasConnections || hasActiveTurn then { s with phase := .sleeping, lastActivity := now }
      else { s with phase := if s.reaps config now then .disposing now else .exiting now }
    | _ => s
  | .disposed =>
    match s.phase with
    | .disposing now =>
      { s with phase := .exiting now, warm := s.warm ∩ s.flagged, lastReap := now }
    | _ => s
  | .readWarmAgain =>
    match s.phase with
    | .exiting now =>
      if s.due config now && decide (s.warm = ∅) then
        { s with phase := .ended, exitSignal := true }
      else { s with phase := .sleeping }
    | _ => s
  | .checkExit =>
    if s.accepting = .checking then
      { s with accepting := if s.exitSignal then .left else .accepting }
    else s
  | .accept conn =>
    if s.accepting = .accepting then
      { s with accepting := .checking, accepted := insert conn s.accepted }
    else s
  | .acceptNothing =>
    if s.accepting = .accepting then { s with accepting := .checking } else s

/-! ### What is asked of an exit -/

/-- Nothing is connected, queued or in flight, and nothing was connected or in flight for
`hub_idle_ms`. -/
structure Dormant (s : Runtime) : Prop where
  accepted : s.accepted = ∅
  ops : s.ops = 0
  turns : s.turns = ∅
  quiet : config.hubIdleMs ≤ s.quiet

/-- The step that leaves the accept loop leaves it dormant. -/
def LeavesDormant (s : Runtime) (a : RuntimeAction) : Prop :=
  a = .checkExit → s.accepting = .checking → s.exitSignal = true → s.Dormant config

/-- The loop has read that nobody is there, for long enough, and has not yet gone back to
sleep. -/
def leaving (s : Runtime) : Bool :=
  s.exitSignal ||
    match s.phase with
    | .warm now false false | .disposing now | .exiting now => s.due config now
    | _ => false

/-- The condition on a step. -/
def Keeps (s : Runtime) : RuntimeAction → Prop
  -- once hub_idle_ms is over, a look that finds nothing is right
  | .readTurns =>
    ∀ now, s.phase = .turns now false → s.due config now = true → s.anyTurnInFlight = false →
      s.Dormant config
  -- and nothing begins until the accept loop is left
  | .accept _ | .enqueue | .turnStarts _ => s.leaving config = false
  | _ => True

/-! ### What holds throughout -/

/-- A client was accepted, and the runtime is left dormant. -/
structure Sound (s : Runtime) : Prop where
  clients : s.clients ⊆ s.accepted
  dormant : s.leaving config = true → s.Dormant config

variable {config} {s : Runtime}

/-- A step of the loops, which changes nothing around them. -/
theorem Sound.congr (h : s.Sound config) {s' : Runtime} (hclients : s'.clients = s.clients)
    (haccepted : s'.accepted = s.accepted) (hops : s'.ops = s.ops) (hturns : s'.turns = s.turns)
    (hquiet : s'.quiet = s.quiet)
    (hleaving : s'.leaving config = true → s.leaving config = true ∨ s.Dormant config) :
    s'.Sound config where
  clients := by
    rw [hclients, haccepted]
    exact h.clients
  dormant hl := by
    have hdormant : s.Dormant config := (hleaving hl).elim h.dormant id
    exact ⟨haccepted.trans hdormant.accepted, hops.trans hdormant.ops,
      hturns.trans hdormant.turns, hquiet ▸ hdormant.quiet⟩

/-- Nobody is connected where nothing is accepted. -/
theorem Sound.active (h : s.Sound config) (hdormant : s.Dormant config) : s.active = false := by
  have hclients : s.clients = ∅ := Finset.subset_empty.mp (hdormant.accepted ▸ h.clients)
  simp [Runtime.active, hclients, hdormant.turns]

/-- The look at the turns, the one that finds nothing among them. -/
theorem Sound.readTurns (h : s.Sound config) (hkeeps : s.Keeps config .readTurns) :
    (s.step config .readTurns).Sound config := by
  unfold Runtime.step
  dsimp only
  split
  · next now hasConnections hphase =>
    refine h.congr rfl rfl rfl rfl rfl fun hl => ?_
    by_cases hsignal : s.exitSignal = true
    · exact .inl (by simp [leaving, hsignal])
    · -- this is the look that finds nothing
      cases hasConnections with
      | true => simp [leaving, hsignal] at hl
      | false =>
        cases hturn : s.anyTurnInFlight with
        | true => simp [leaving, hsignal, hturn] at hl
        | false =>
          have hdue : s.due config now = true := by
            unfold leaving at hl
            rw [hturn] at hl
            exact (Bool.or_eq_true _ _ |>.mp hl).resolve_left hsignal
          exact .inr (hkeeps now hphase hdue hturn)
  · exact h

/-- The look at the warm sessions goes on only where the last two found nothing. -/
theorem Sound.readWarm (h : s.Sound config) : (s.step config .readWarm).Sound config := by
  unfold Runtime.step
  dsimp only
  split
  · next now hasConnections hasActiveTurn hphase =>
    split
    · exact h.congr rfl rfl rfl rfl rfl fun hl => .inl (by simp_all [leaving])
    · next hidle =>
      obtain ⟨rfl, rfl⟩ : hasConnections = false ∧ hasActiveTurn = false := by
        simpa using hidle
      refine h.congr rfl rfl rfl rfl rfl fun hl => .inl ?_
      unfold leaving at hl ⊢
      rw [hphase]
      cases hreaps : s.reaps config now <;> rw [hreaps] at hl <;> exact hl
  · exact h

theorem Sound.readWarmAgain (h : s.Sound config) :
    (s.step config .readWarmAgain).Sound config := by
  unfold Runtime.step
  dsimp only
  split
  · next now hphase =>
    split
    · next hexit =>
      have hdue : s.due config now = true := (Bool.and_eq_true _ _ |>.mp hexit).1
      refine h.congr rfl rfl rfl rfl rfl fun _ => .inl ?_
      simp [leaving, hphase, hdue]
    · exact h.congr rfl rfl rfl rfl rfl fun hl => .inl (by simp_all [leaving])
  · exact h

/-- **Soundness is kept by the steps that keep the condition.** -/
theorem Sound.step (h : s.Sound config) (a : RuntimeAction) (hkeeps : s.Keeps config a) :
    (s.step config a).Sound config := by
  cases a with
  | elapse ms =>
    refine ⟨h.clients, fun hl => ?_⟩
    have hdormant := h.dormant hl
    refine ⟨hdormant.accepted, hdormant.ops, hdormant.turns, ?_⟩
    have hquiet := hdormant.quiet
    simp only [Runtime.step, h.active hdormant, Bool.false_eq_true, if_false]
    omega
  | hello conn =>
    unfold Runtime.step
    dsimp only
    split
    · next hconn =>
      refine ⟨Finset.insert_subset hconn h.clients, fun hl => ?_⟩
      rw [(h.dormant hl).accepted] at hconn
      cases hconn
    · exact h
  | disconnect conn =>
    refine ⟨Finset.erase_subset_erase _ h.clients, fun hl => ?_⟩
    have hdormant := h.dormant hl
    refine ⟨?_, hdormant.ops, hdormant.turns, hdormant.quiet⟩
    simp [Runtime.step, hdormant.accepted]
  | enqueue =>
    refine ⟨h.clients, fun hl => ?_⟩
    exact absurd (hkeeps.symm.trans hl) Bool.false_ne_true
  | opDone =>
    refine ⟨h.clients, fun hl => ?_⟩
    have hdormant := h.dormant hl
    exact ⟨hdormant.accepted, by simp [Runtime.step, hdormant.ops], hdormant.turns,
      hdormant.quiet⟩
  | turnStarts sid =>
    refine ⟨h.clients, fun hl => ?_⟩
    exact absurd (hkeeps.symm.trans hl) Bool.false_ne_true
  | turnEnds sid =>
    refine ⟨h.clients, fun hl => ?_⟩
    have hdormant := h.dormant hl
    exact ⟨hdormant.accepted, hdormant.ops, by simp [Runtime.step, hdormant.turns],
      hdormant.quiet⟩
  | warmUp sid => exact h.congr rfl rfl rfl rfl rfl .inl
  | cacheState sid inFlight => exact h.congr rfl rfl rfl rfl rfl .inl
  | wake =>
    unfold Runtime.step
    dsimp only
    split
    · exact h.congr rfl rfl rfl rfl rfl fun hl => .inl (by simp_all [leaving])
    · exact h
  | readConnections =>
    unfold Runtime.step
    dsimp only
    split
    · exact h.congr rfl rfl rfl rfl rfl fun hl => .inl (by simp_all [leaving])
    · exact h
  | readTurns => exact h.readTurns hkeeps
  | readWarm => exact h.readWarm
  | disposed =>
    unfold Runtime.step
    dsimp only
    split
    · next now hphase =>
      refine h.congr rfl rfl rfl rfl rfl fun hl => .inl ?_
      unfold leaving at hl ⊢
      rw [hphase]
      exact hl
    · exact h
  | readWarmAgain => exact h.readWarmAgain
  | checkExit =>
    unfold Runtime.step
    dsimp only
    split
    · exact h.congr rfl rfl rfl rfl rfl .inl
    · exact h
  | accept conn =>
    unfold Runtime.step
    dsimp only
    split
    · refine ⟨h.clients.trans (Finset.subset_insert _ _), fun hl => ?_⟩
      exact absurd (hkeeps.symm.trans hl) Bool.false_ne_true
    · exact h
  | acceptNothing =>
    unfold Runtime.step
    dsimp only
    split
    · exact h.congr rfl rfl rfl rfl rfl .inl
    · exact h

end Step

/-! ### Runs -/

/-- The runtime starts; with both times off the lifecycle loop returns at once. -/
def boot (config : LifecycleConfig) : Runtime :=
  { phase := if config.idleReapMs ≤ 0 ∧ config.hubIdleMs ≤ 0 then .ended else .sleeping }

/-- Two seconds without anybody, and the loops go once around. -/
def quietExit : List RuntimeAction :=
  [.elapse 2000, .wake, .readConnections, .readTurns, .readWarm, .readWarmAgain, .checkExit]

end Runtime

end Pantoken.Remote
