import Mathlib.Logic.Function.Basic
import Pantoken.Lib.Run

/-!
# The signals of the supervisor

The supervisor ends its child with signals to a pid, and two other threads do: `restart_hub` and
`stop` read the pid from a cell that the run loop writes.  The pid of a child is its own until the
child is reaped, and may be that of any process afterwards.

Each step of the model is one access of one thread, or something that a process does.

## Main definitions

* `Supervisor.advance` — the run loop, access by access.
* `Supervisor.step` — with the calls of other threads, and the processes of the host.
* `Orderly` — the child is reaped while no call holds its pid, and a stop request is seen before.
* `Tended` — a failed wait leaves no child.

## Main results

* `Sound.step`, `NoneLeft.step` — what each step keeps.
* `signals_own_child` — **in an orderly run each signal goes to a child that is not reaped; and a
  stop leaves no child running when each child is tended.**
* `not_goodSignals` — each stop that finds a child signals once more after it has reaped it.
-/

namespace Pantoken.Desktop.SupervisorSignals

/-! ### The code -/

/-- A pid, and 0 for none. -/
abbrev Pid := ℕ

inductive Proc
  /-- A child of the supervisor; one that exits keeps its pid until it is reaped. -/
  | child (running : Bool)
  | other
  deriving DecidableEq

/-- `Child`: once it is reaped, the standard library knows its status. -/
structure Child where
  pid : Pid
  reaped : Bool
  deriving DecidableEq

/-- Who called `terminate`: `supervise_one`, or `reap`. -/
inductive Caller
  | superviseOne
  | reap
  deriving DecidableEq

/-- Where the run loop is, by the access that is next. -/
inductive Loop
  /-- `while !stop.load(..)` -/
  | top
  | spawning
  /-- `child_pid.store(child.id(), ..)` -/
  | spawned (c : Child)
  /-- The top of the loop of `supervise_one`. -/
  | watching (c : Child)
  /-- Its `try_wait`. -/
  | polling (c : Child)
  /-- The rest of its body. -/
  | probing (c : Child)
  /-- The signal at the top of `terminate`. -/
  | terminating (c : Child) (caller : Caller)
  /-- Its loop. -/
  | awaiting (c : Child) (caller : Caller)
  /-- `child.kill()` -/
  | killing (c : Child) (caller : Caller)
  /-- `child.wait()` after it. -/
  | killed (c : Child) (caller : Caller)
  /-- `child_pid.store(0, ..)` -/
  | clearing (c : Child)
  /-- The check of the stop flag after it. -/
  | checking (c : Child)
  /-- `child.wait()` -/
  | waiting (c : Child)
  /-- The crash-loop guard. -/
  | counting (c : Child)
  /-- `sleep_unless_stopped` -/
  | resting (c : Child)
  | returned
  deriving DecidableEq

/-- Where a call of `stop` is. -/
inductive Call
  | idle
  | stored
  | loaded (pid : Pid)
  | joining
  | returned
  deriving DecidableEq

structure Supervisor where
  stop : Bool
  childPid : Pid
  loop : Loop
  /-- The pids that calls of `restart_hub` have read. -/
  restarts : List Pid
  call : Call
  /-- The processes of the host. -/
  procs : Pid → Option Proc
  /-- The signals sent, with the process that had the pid. -/
  signals : List (Pid × Option Proc)

/-- What an access of the run loop meets: a pid for a new process, an error, a limit or a deadline
that is over. -/
structure Env where
  pid : Pid
  fails : Bool
  elapsed : Bool

inductive TryWait
  | exited
  | running
  | failed
  deriving DecidableEq

/-- After `terminate`. -/
def Caller.resume : Caller → Child → Loop
  | .superviseOne, c => .clearing c
  | .reap, _ => .returned

namespace Supervisor

def signal (s : Supervisor) (pid : Pid) : Supervisor :=
  { s with signals := (pid, s.procs pid) :: s.signals }

/-- `child.try_wait()`; `child.wait()` is the same, except that it blocks while the child runs. -/
def tryWait (s : Supervisor) (c : Child) (fails : Bool) : TryWait :=
  if c.reaped then .exited
  else if fails then .failed
  else if s.procs c.pid = some (.child true) then .running
  else .exited

/-- The child is reaped, and its pid is free. -/
def reaping (s : Supervisor) (c : Child) (next : Child → Loop) : Supervisor :=
  { s with
    procs := if c.reaped then s.procs else Function.update s.procs c.pid none
    loop := next { c with reaped := true } }

/-- `try_wait` or `wait`, and where the run loop is when the child has exited, runs, or the call
fails. -/
def waitFor (s : Supervisor) (c : Child) (fails : Bool) (exited : Child → Loop)
    (running failed : Loop) : Supervisor :=
  match s.tryWait c fails with
  | .exited => s.reaping c exited
  | .running => { s with loop := running }
  | .failed => { s with loop := failed }

/-- One access of the run loop. -/
def advance (s : Supervisor) (e : Env) : Supervisor :=
  match s.loop with
  | .top => { s with loop := if s.stop then .returned else .spawning }
  | .spawning =>
    if e.fails then { s with loop := .returned }
    else if 0 < e.pid ∧ s.procs e.pid = none then
      { s with
        procs := Function.update s.procs e.pid (some (.child true))
        loop := .spawned ⟨e.pid, false⟩ }
    else s
  | .spawned c => { s with childPid := c.pid, loop := .watching c }
  | .watching c => { s with loop := if s.stop then .terminating c .superviseOne else .polling c }
  | .polling c => s.waitFor c e.fails .clearing (.probing c) (.clearing c)
  | .probing c => { s with loop := if e.elapsed then .terminating c .superviseOne else .watching c }
  | .terminating c caller => { s.signal c.pid with loop := .awaiting c caller }
  | .awaiting c caller =>
    if e.elapsed then { s with loop := .killing c caller }
    else s.waitFor c e.fails caller.resume (.awaiting c caller) (caller.resume c)
  | .killing c caller =>
    { if c.reaped then s else s.signal c.pid with loop := .killed c caller }
  | .killed c caller => s.waitFor c e.fails caller.resume (.killed c caller) (caller.resume c)
  | .clearing c => { s with childPid := 0, loop := .checking c }
  | .checking c => { s with loop := if s.stop then .terminating c .reap else .waiting c }
  | .waiting c => s.waitFor c e.fails .counting (.waiting c) (.counting c)
  | .counting c => { s with loop := if e.elapsed then .returned else .resting c }
  | .resting c =>
    if s.stop then { s with loop := .terminating c .reap }
    else if e.elapsed then { s with loop := .top }
    else s
  | .returned => s

end Supervisor

inductive Action
  | advance (e : Env)
  /-- `child_pid.load(..)` of a call of `restart_hub`. -/
  | restartLoad
  /-- Its signal. -/
  | restartKill (pid : Pid)
  /-- `stop.store(true, ..)` of a call of `stop`. -/
  | stopStore
  | stopLoad
  | stopKill
  /-- `t.join()` -/
  | stopJoin
  /-- A process exits.  One that is no child is reaped by its own parent. -/
  | exit (pid : Pid)
  /-- A process that is no child starts. -/
  | start (pid : Pid)

namespace Supervisor

/-- One access of a thread, or something that a process does.  While a call of `stop` goes on, which
has the supervisor by exclusive reference, there is no other call. -/
def step (s : Supervisor) : Action → Supervisor
  | .advance e => s.advance e
  | .restartLoad =>
    if (s.call = .idle ∨ s.call = .returned) ∧ 0 < s.childPid then
      { s with restarts := s.childPid :: s.restarts }
    else s
  | .restartKill pid =>
    if pid ∈ s.restarts then { s.signal pid with restarts := s.restarts.erase pid } else s
  | .stopStore =>
    if (s.call = .idle ∨ s.call = .returned) ∧ s.restarts = [] then
      { s with stop := true, call := .stored }
    else s
  | .stopLoad =>
    if s.call = .stored then
      { s with call := if 0 < s.childPid then .loaded s.childPid else .joining }
    else s
  | .stopKill =>
    match s.call with
    | .loaded pid => { s.signal pid with call := .joining }
    | _ => s
  | .stopJoin => if s.call = .joining ∧ s.loop = .returned then { s with call := .returned } else s
  | .exit pid =>
    match s.procs pid with
    | some (.child _) => { s with procs := Function.update s.procs pid (some (.child false)) }
    | _ => { s with procs := Function.update s.procs pid none }
  | .start pid =>
    if s.procs pid = none then { s with procs := Function.update s.procs pid (some .other) } else s

/-- `Supervisor::start` -/
def boot : Supervisor := ⟨false, 0, .top, [], .idle, fun _ => none, []⟩

def run (acts : List Action) : Supervisor := acts.foldl step boot

end Supervisor

/-! ### What is asked -/

/-- Each signal went to a child that was not reaped. -/
def GoodSignals (s : Supervisor) : Prop :=
  ∀ sig ∈ s.signals, ∃ running, sig.2 = some (.child running)

def NoneRunning (s : Supervisor) : Prop := ∀ pid, s.procs pid ≠ some (.child true)

/-- A call has read a pid, and has not sent its signal. -/
abbrev Supervisor.Holds (s : Supervisor) (pid : Pid) : Prop :=
  pid ∈ s.restarts ∨ s.call = .loaded pid

/-- The child that the next access of the run loop waits for. -/
def Loop.waitsFor (elapsed : Bool) : Loop → Option Child
  | .polling c => some c
  | .awaiting c _ => if elapsed then none else some c
  | .killed c _ => some c
  | .waiting c => some c
  | _ => none

/-- The child whose end the next access turns to when it sees a stop request. -/
def Loop.endsOnStop : Loop → Option Child
  | .checking c | .resting c => some c
  | _ => none

/-- The child whose pid is still in the cell when it may have been reaped. -/
def Loop.clears : Loop → Option Child
  | .clearing c => some c
  | _ => none

/-- The child is reaped while no call holds its pid, no call reads the pid of a child that is
reaped, and the run loop sees a stop request while the child is not reaped. -/
def Orderly (s : Supervisor) : Action → Prop
  | .advance e =>
    (∀ c ∈ s.loop.waitsFor e.elapsed, s.tryWait c e.fails = .exited → ¬ s.Holds c.pid) ∧
      ∀ c ∈ s.loop.endsOnStop, s.stop = true → c.reaped = false
  | .restartLoad | .stopLoad => ∀ c ∈ s.loop.clears, c.reaped = false
  | _ => True

instance (s : Supervisor) : ∀ a, Decidable (Orderly s a)
  | .advance _ => inferInstanceAs (Decidable (_ ∧ _))
  | .restartLoad | .stopLoad => inferInstanceAs (Decidable (∀ c ∈ s.loop.clears, c.reaped = false))
  | .restartKill _ | .stopStore | .stopKill | .stopJoin | .exit _ | .start _ => isTrue trivial

/-- The child that the run loop gives up when the next access fails to wait for it. -/
def Loop.givesUp (elapsed : Bool) : Loop → Option Child
  | .awaiting c .reap => if elapsed then none else some c
  | .killed c .reap => some c
  | .waiting c => some c
  | _ => none

/-- A wait that fails leaves no child running. -/
def Tended (s : Supervisor) : Action → Prop
  | .advance e =>
    ∀ c ∈ s.loop.givesUp e.elapsed, s.tryWait c e.fails = .failed →
      s.procs c.pid ≠ some (.child true)
  | _ => True

instance (s : Supervisor) : ∀ a, Decidable (Tended s a)
  | .advance e => inferInstanceAs (Decidable (∀ c ∈ s.loop.givesUp e.elapsed,
      s.tryWait c e.fails = .failed → s.procs c.pid ≠ some (.child true)))
  | .restartLoad | .restartKill _ | .stopStore | .stopLoad | .stopKill | .stopJoin => isTrue trivial
  | .exit _ | .start _ => isTrue trivial

/-! ### Orderly runs -/

/-- A pid is that of a child that is not reaped. -/
def Owned (procs : Pid → Option Proc) (pid : Pid) : Prop :=
  ∃ running, procs pid = some (.child running)

def Loop.child : Loop → Option Child
  | .top | .spawning | .returned => none
  | .spawned c | .watching c | .polling c | .probing c => some c
  | .terminating c _ | .awaiting c _ | .killing c _ | .killed c _ => some c
  | .clearing c | .checking c | .waiting c | .counting c | .resting c => some c

/-- The child that a signal of the run loop may go to. -/
def Loop.signalled : Loop → Option Child
  | .spawned c | .watching c | .polling c | .probing c => some c
  | .terminating c _ | .awaiting c _ | .killing c _ | .killed c _ => some c
  | _ => none

/-- The pid that is in the cell. -/
def Loop.published : Loop → Pid
  | .watching c | .polling c | .probing c | .clearing c => c.pid
  | .terminating c .superviseOne | .awaiting c .superviseOne => c.pid
  | .killing c .superviseOne | .killed c .superviseOne => c.pid
  | _ => 0

structure Sound (s : Supervisor) : Prop where
  child : ∀ c, s.loop.child = some c → c.reaped = false → Owned s.procs c.pid
  signalled : ∀ c, s.loop.signalled = some c → c.reaped = false
  cell : s.childPid = s.loop.published
  held : ∀ pid, s.Holds pid → Owned s.procs pid
  signals : GoodSignals s

theorem Sound.boot : Sound Supervisor.boot where
  child c hc := by cases hc
  signalled c hc := by cases hc
  cell := rfl
  held pid hpid := by
    obtain hpid | hpid := hpid
    · cases hpid
    · cases hpid
  signals sig hsig := by cases hsig

section Steps

variable {s : Supervisor} {c : Child} {e : Env}

theorem Owned.update {procs : Pid → Option Proc} {pid pid' : Pid} (h : Owned procs pid)
    {proc : Option Proc} (hproc : pid = pid' → ∃ running, proc = some (.child running)) :
    Owned (Function.update procs pid' proc) pid := by
  by_cases hpid : pid = pid'
  · obtain ⟨running, hrunning⟩ := hproc hpid
    refine ⟨running, ?_⟩
    rw [hpid, Function.update_self, hrunning]
  · obtain ⟨running, hrunning⟩ := h
    refine ⟨running, ?_⟩
    rw [Function.update_of_ne hpid, hrunning]

/-- A pid that is taken is not the one of a new process. -/
theorem Owned.update_free {procs : Pid → Option Proc} {pid pid' : Pid} (h : Owned procs pid)
    (hfree : procs pid' = none) (proc : Option Proc) :
    Owned (Function.update procs pid' proc) pid := by
  refine h.update fun hpid => ?_
  obtain ⟨running, hrunning⟩ := h
  rw [hpid, hfree] at hrunning
  cases hrunning

/-- The run loop goes on. -/
theorem Sound.goOn (h : Sound s) {loop : Loop} (hloop : s.loop = loop) (next : Loop)
    (hchild : ∀ d, next.child = some d → loop.child = some d)
    (hsignalled : ∀ d, next.signalled = some d → d.reaped = false)
    (hpublished : next.published = loop.published) : Sound { s with loop := next } where
  child d hd := h.child d (by rw [hloop]; exact hchild d hd)
  signalled := hsignalled
  cell := by rw [h.cell, hloop, hpublished]
  held := h.held
  signals := h.signals

/-- The child that may get a signal is not reaped. -/
theorem Sound.fresh (h : Sound s) {loop : Loop} (hloop : s.loop = loop)
    (hc : loop.signalled = some c) (hchild : loop.child = some c) :
    c.reaped = false ∧ Owned s.procs c.pid := by
  have hfresh : c.reaped = false := h.signalled c (by rw [hloop]; exact hc)
  exact ⟨hfresh, h.child c (by rw [hloop]; exact hchild) hfresh⟩

/-- A signal to a child. -/
theorem Sound.signal (h : Sound s) {pid : Pid} (hpid : Owned s.procs pid) :
    Sound (s.signal pid) where
  child := h.child
  signalled := h.signalled
  cell := h.cell
  held := h.held
  signals sig hsig := by
    obtain rfl | hsig := List.mem_cons.mp hsig
    · exact hpid
    · exact h.signals sig hsig

/-- The child is reaped, and no call holds its pid. -/
theorem Sound.reaping (h : Sound s) (hc : c.reaped = false → ¬ s.Holds c.pid)
    {next : Child → Loop}
    (hchild : ∀ d, (next { c with reaped := true }).child = some d → d.reaped = true)
    (hsignalled : (next { c with reaped := true }).signalled = none)
    (hpublished : (next { c with reaped := true }).published = s.loop.published) :
    Sound (s.reaping c next) where
  child d hd hreaped := by
    have hdone := hchild d hd
    rw [hreaped] at hdone
    cases hdone
  signalled d hd := by cases hsignalled.symm.trans hd
  cell := h.cell.trans hpublished.symm
  held pid hpid := by
    have hown := h.held pid hpid
    unfold Supervisor.reaping
    dsimp only
    split
    · exact hown
    · next hreaped =>
      refine hown.update fun heq => absurd hpid ?_
      rw [heq]
      exact hc (Bool.eq_false_iff.mpr hreaped)
  signals := h.signals

/-- A wait of the run loop. -/
theorem Sound.waitFor (h : Sound s) (hc : s.tryWait c e.fails = .exited → ¬ s.Holds c.pid)
    {exited : Child → Loop} {running failed : Loop}
    (hchild : ∀ d, (exited { c with reaped := true }).child = some d → d.reaped = true)
    (hsignalled : (exited { c with reaped := true }).signalled = none)
    (hpublished : (exited { c with reaped := true }).published = s.loop.published)
    (hrunning : Sound { s with loop := running }) (hfailed : Sound { s with loop := failed }) :
    Sound (s.waitFor c e.fails exited running failed) := by
  unfold Supervisor.waitFor
  cases htry : s.tryWait c e.fails with
  | exited => exact h.reaping (fun _ => hc htry) hchild hsignalled hpublished
  | running => exact hrunning
  | failed => exact hfailed

theorem Loop.published_resume (c : Child) (caller : Caller) :
    (caller.resume c).published = (Loop.awaiting c caller).published := by
  cases caller <;> rfl

/-- The waits of `terminate`, where the run loop has not resumed. -/
theorem Sound.resume (h : Sound s) {loop : Loop} (hloop : s.loop = loop) {caller : Caller}
    (hchild : loop.child = some c)
    (hpublished : (Loop.awaiting c caller).published = loop.published)
    (hc : s.tryWait c e.fails = .exited → ¬ s.Holds c.pid) {running : Loop}
    (hrunning : Sound { s with loop := running }) :
    Sound (s.waitFor c e.fails caller.resume running (caller.resume c)) := by
  have hresumed : (caller.resume c).published = loop.published :=
    (Loop.published_resume c caller).trans hpublished
  have hfailed : Sound { s with loop := caller.resume c } := by
    refine h.goOn hloop _ (fun d hd => ?_) (fun d hd => ?_) hresumed
    · cases caller with
      | superviseOne => exact hchild.trans hd
      | reap => cases hd
    · cases caller <;> cases hd
  cases caller with
  | superviseOne =>
    exact h.waitFor hc (fun d hd => by cases hd; rfl) rfl (by rw [hloop]; exact hresumed) hrunning
      hfailed
  | reap =>
    exact h.waitFor hc (fun d hd => by cases hd) rfl (by rw [hloop]; exact hresumed) hrunning
      hfailed

/-- A signal of `terminate`, and the access that is next. -/
theorem Sound.signalled_goOn (h : Sound s) {loop : Loop} (hloop : s.loop = loop)
    (hc : loop.signalled = some c) (hchild : loop.child = some c) {next : Loop}
    (hnext : next.signalled = some c) (hnext' : next.child = some c)
    (hpublished : next.published = loop.published) :
    Sound { s.signal c.pid with loop := next } := by
  obtain ⟨hfresh, hown⟩ := h.fresh hloop hc hchild
  refine (h.signal hown).goOn hloop next (fun d hd => ?_) (fun d hd => ?_) hpublished
  · exact hchild.trans (hnext'.symm.trans hd)
  · cases hnext.symm.trans hd
    exact hfresh

/-- **What `terminate` keeps.** -/
theorem Sound.terminate (h : Sound s) {caller : Caller}
    (hreap : ∀ c ∈ s.loop.waitsFor e.elapsed, s.tryWait c e.fails = .exited → ¬ s.Holds c.pid)
    (hloop : s.loop = .terminating c caller ∨ s.loop = .awaiting c caller ∨
      s.loop = .killing c caller ∨ s.loop = .killed c caller) : Sound (s.advance e) := by
  unfold Supervisor.advance
  obtain hloop | hloop | hloop | hloop := hloop
  · rw [hloop]
    exact h.signalled_goOn hloop rfl rfl rfl rfl (by cases caller <;> rfl)
  · obtain ⟨hfresh, -⟩ := h.fresh hloop rfl rfl
    rw [hloop]
    dsimp only
    split
    · exact h.goOn hloop _ (fun d hd => hd) (fun d hd => by cases hd; exact hfresh)
        (by cases caller <;> rfl)
    · next hover =>
      refine h.resume hloop rfl rfl (hreap c (by rw [hloop]; exact if_neg hover)) ?_
      exact h.goOn hloop _ (fun d hd => hd) (fun d hd => by cases hd; exact hfresh) rfl
  · obtain ⟨hfresh, -⟩ := h.fresh hloop rfl rfl
    rw [hloop]
    dsimp only
    rw [if_neg (by rw [hfresh]; decide)]
    exact h.signalled_goOn hloop rfl rfl rfl rfl (by cases caller <;> rfl)
  · obtain ⟨hfresh, -⟩ := h.fresh hloop rfl rfl
    rw [hloop]
    refine h.resume hloop rfl (by cases caller <;> rfl) (hreap c (by rw [hloop]; rfl)) ?_
    exact h.goOn hloop _ (fun d hd => hd) (fun d hd => by cases hd; exact hfresh) rfl

/-- A new child has a pid that no process has. -/
theorem Sound.spawn (h : Sound s) (hloop : s.loop = .spawning) {pid : Pid}
    (hfree : s.procs pid = none) :
    Sound { s with
      procs := Function.update s.procs pid (some (.child true))
      loop := .spawned ⟨pid, false⟩ } := by
  refine ⟨fun d hd _ => ?_, fun d hd => ?_, ?_, fun pid' hpid' => ?_, h.signals⟩
  · cases hd
    exact ⟨true, Function.update_self _ _ _⟩
  · cases hd
    rfl
  · rw [h.cell, hloop]
    rfl
  · exact (h.held pid' hpid').update_free hfree _

/-- **What an access of the run loop keeps.** -/
theorem Sound.advance (h : Sound s) (ho : Orderly s (.advance e)) : Sound (s.advance e) := by
  obtain ⟨hreap, hstop⟩ := ho
  cases hloop : s.loop with
  | terminating c caller => exact h.terminate hreap (Or.inl hloop)
  | awaiting c caller => exact h.terminate hreap (Or.inr (Or.inl hloop))
  | killing c caller => exact h.terminate hreap (Or.inr (Or.inr (Or.inl hloop)))
  | killed c caller => exact h.terminate hreap (Or.inr (Or.inr (Or.inr hloop)))
  | top =>
    unfold Supervisor.advance
    rw [hloop]
    refine h.goOn hloop _ (fun d hd => ?_) (fun d hd => ?_) ?_
    · split at hd <;> cases hd
    · split at hd <;> cases hd
    · split <;> rfl
  | spawning =>
    unfold Supervisor.advance
    rw [hloop]
    dsimp only
    split
    · exact h.goOn hloop _ (fun d hd => by cases hd) (fun d hd => by cases hd) rfl
    · split
      · next hfree => exact h.spawn hloop hfree.2
      · exact h
  | spawned c =>
    unfold Supervisor.advance
    rw [hloop]
    obtain ⟨hfresh, hown⟩ := h.fresh hloop rfl rfl
    refine ⟨fun d hd _ => ?_, fun d hd => ?_, rfl, h.held, h.signals⟩
    · cases hd
      exact hown
    · cases hd
      exact hfresh
  | watching c | probing c =>
    unfold Supervisor.advance
    rw [hloop]
    obtain ⟨hfresh, -⟩ := h.fresh hloop rfl rfl
    refine h.goOn hloop _ (fun d hd => ?_) (fun d hd => ?_) ?_
    · split at hd <;> exact hd
    · split at hd <;> cases hd <;> exact hfresh
    · split <;> rfl
  | polling c =>
    unfold Supervisor.advance
    rw [hloop]
    obtain ⟨hfresh, -⟩ := h.fresh hloop rfl rfl
    refine h.waitFor (hreap c (by rw [hloop]; rfl)) (fun d hd => by cases hd; rfl) rfl
      (by rw [hloop]; rfl) ?_ ?_
    · exact h.goOn hloop _ (fun d hd => hd) (fun d hd => by cases hd; exact hfresh) rfl
    · exact h.goOn hloop _ (fun d hd => hd) (fun d hd => by cases hd) rfl
  | clearing c =>
    unfold Supervisor.advance
    rw [hloop]
    exact ⟨fun d hd => h.child d (by rw [hloop]; exact hd), fun d hd => (by cases hd), rfl, h.held,
      h.signals⟩
  | checking c =>
    unfold Supervisor.advance
    rw [hloop]
    refine h.goOn hloop _ (fun d hd => ?_) (fun d hd => ?_) ?_
    · split at hd <;> exact hd
    · split at hd
      · next hset =>
        -- a stop request ends the child that was just forgotten
        cases hd
        exact hstop c (by rw [hloop]; rfl) hset
      · cases hd
    · split <;> rfl
  | waiting c =>
    unfold Supervisor.advance
    rw [hloop]
    refine h.waitFor (hreap c (by rw [hloop]; rfl)) (fun d hd => by cases hd; rfl) rfl
      (by rw [hloop]; rfl) ?_ ?_
    · exact h.goOn hloop _ (fun d hd => hd) (fun d hd => by cases hd) rfl
    · exact h.goOn hloop _ (fun d hd => hd) (fun d hd => by cases hd) rfl
  | counting c =>
    unfold Supervisor.advance
    rw [hloop]
    refine h.goOn hloop _ (fun d hd => ?_) (fun d hd => ?_) ?_
    · split at hd
      · cases hd
      · exact hd
    · split at hd <;> cases hd
    · split <;> rfl
  | resting c =>
    unfold Supervisor.advance
    rw [hloop]
    dsimp only
    split
    · next hset =>
      exact h.goOn hloop _ (fun d hd => hd)
        (fun d hd => by cases hd; exact hstop c (by rw [hloop]; rfl) hset) rfl
    · split
      · exact h.goOn hloop _ (fun d hd => by cases hd) (fun d hd => by cases hd) rfl
      · exact h
  | returned =>
    unfold Supervisor.advance
    rw [hloop]
    exact h

/-- The pid that a call reads is that of a child. -/
theorem Sound.published_owned (h : Sound s) (hcell : 0 < s.childPid)
    (hclear : ∀ c ∈ s.loop.clears, c.reaped = false) : Owned s.procs s.childPid := by
  rw [h.cell] at hcell ⊢
  have hchild := h.child
  have hsignalled := h.signalled
  cases hloop : s.loop with
  | watching c | polling c | probing c =>
    rw [hloop] at hchild hsignalled
    exact hchild c rfl (hsignalled c rfl)
  | terminating c caller | awaiting c caller | killing c caller | killed c caller =>
    rw [hloop] at hchild hsignalled hcell
    cases caller with
    | superviseOne => exact hchild c rfl (hsignalled c rfl)
    | reap => exact absurd hcell (lt_irrefl 0)
  | clearing c =>
    rw [hloop] at hchild
    exact hchild c rfl (hclear c (by rw [hloop]; rfl))
  | top | spawning | returned =>
    rw [hloop] at hcell
    exact absurd hcell (lt_irrefl 0)
  | spawned c | checking c | waiting c | counting c | resting c =>
    rw [hloop] at hcell
    exact absurd hcell (lt_irrefl 0)

/-- **What each step of an orderly run keeps.** -/
theorem Sound.step (h : Sound s) (a : Action) (ho : Orderly s a) : Sound (s.step a) := by
  unfold Supervisor.step
  cases a with
  | advance e => exact h.advance ho
  | restartLoad =>
    dsimp only
    split
    · next hload =>
      refine ⟨h.child, h.signalled, h.cell, ?_, h.signals⟩
      rintro pid (hpid | hpid)
      · obtain rfl | hpid := List.mem_cons.mp hpid
        · exact h.published_owned hload.2 ho
        · exact h.held pid (Or.inl hpid)
      · exact h.held pid (Or.inr hpid)
    · exact h
  | restartKill pid =>
    dsimp only
    split
    · next hmem =>
      have hsent := h.signal (h.held pid (Or.inl hmem))
      refine ⟨hsent.child, hsent.signalled, hsent.cell, ?_, hsent.signals⟩
      rintro pid' (hpid' | hpid')
      · exact h.held pid' (Or.inl (List.mem_of_mem_erase hpid'))
      · exact h.held pid' (Or.inr hpid')
    · exact h
  | stopStore =>
    dsimp only
    split
    · refine ⟨h.child, h.signalled, h.cell, ?_, h.signals⟩
      rintro pid (hpid | hpid)
      · exact h.held pid (Or.inl hpid)
      · cases hpid
    · exact h
  | stopLoad =>
    dsimp only
    split
    · refine ⟨h.child, h.signalled, h.cell, ?_, h.signals⟩
      rintro pid (hpid | hpid)
      · exact h.held pid (Or.inl hpid)
      · dsimp only at hpid
        split at hpid
        · next hcell =>
          cases hpid
          exact h.published_owned hcell ho
        · cases hpid
    · exact h
  | stopKill =>
    cases hcall : s.call with
    | loaded pid =>
      have hsent := h.signal (h.held pid (Or.inr hcall))
      refine ⟨hsent.child, hsent.signalled, hsent.cell, ?_, hsent.signals⟩
      rintro pid' (hpid' | hpid')
      · exact h.held pid' (Or.inl hpid')
      · cases hpid'
    | _ => exact h
  | stopJoin =>
    dsimp only
    split
    · refine ⟨h.child, h.signalled, h.cell, ?_, h.signals⟩
      rintro pid (hpid | hpid)
      · exact h.held pid (Or.inl hpid)
      · cases hpid
    · exact h
  | exit pid =>
    dsimp only
    split
    · refine ⟨fun c hc hreaped => ?_, h.signalled, h.cell, fun pid' hpid' => ?_, h.signals⟩
      · exact (h.child c hc hreaped).update fun _ => ⟨false, rfl⟩
      · exact (h.held pid' hpid').update fun _ => ⟨false, rfl⟩
    · next hother =>
      -- the process that exits is no child
      have hkeep : ∀ pid', Owned s.procs pid' →
          Owned (Function.update s.procs pid none) pid' := by
        intro pid' hown
        refine hown.update fun heq => ?_
        obtain ⟨running, hrunning⟩ := hown
        exact absurd (heq ▸ hrunning) (hother running)
      exact ⟨fun c hc hreaped => hkeep _ (h.child c hc hreaped), h.signalled, h.cell,
        fun pid' hpid' => hkeep _ (h.held pid' hpid'), h.signals⟩
  | start pid =>
    dsimp only
    split
    · next hfree =>
      exact ⟨fun c hc hreaped => (h.child c hc hreaped).update_free hfree _, h.signalled, h.cell,
        fun pid' hpid' => (h.held pid' hpid').update_free hfree _, h.signals⟩
    · exact h

/-! ### What is left running -/

/-- The child that may still run. -/
def Loop.active : Loop → Option Child
  | .spawned c | .watching c | .polling c | .probing c => some c
  | .terminating c _ | .awaiting c _ | .killing c _ | .killed c _ => some c
  | .clearing c | .checking c | .waiting c => some c
  | _ => none

/-- Only the child of the run loop runs. -/
structure NoneLeft (s : Supervisor) : Prop where
  running : ∀ pid, s.procs pid = some (.child true) →
    ∃ c, s.loop.active = some c ∧ c.pid = pid ∧ c.reaped = false
  joined : s.call = .returned → s.loop = .returned

theorem NoneLeft.boot : NoneLeft Supervisor.boot where
  running pid hpid := by cases hpid
  joined hcall := by cases hcall

theorem NoneLeft.noneRunning (h : NoneLeft s) (hloop : s.loop.active = none) : NoneRunning s := by
  intro pid hpid
  obtain ⟨c, hc, -, -⟩ := h.running pid hpid
  rw [hloop] at hc
  cases hc

/-- The run loop goes on with its child. -/
theorem NoneLeft.goOn {s' : Supervisor} (h : NoneLeft s) (hreturned : s.loop ≠ .returned)
    (hprocs : s'.procs = s.procs) (hcall : s'.call = s.call)
    (hactive : ∀ d, s.loop.active = some d → s'.loop.active = some d) : NoneLeft s' where
  running pid hpid := by
    rw [hprocs] at hpid
    obtain ⟨d, hd, hpid', hreaped⟩ := h.running pid hpid
    exact ⟨d, hactive d hd, hpid', hreaped⟩
  joined hcall' := absurd (h.joined (hcall.symm.trans hcall')) hreturned

/-- The run loop goes on when no child runs. -/
theorem NoneLeft.of_noneRunning {s' : Supervisor} (h : NoneLeft s) (hreturned : s.loop ≠ .returned)
    (hnone : NoneRunning s') (hcall : s'.call = s.call) : NoneLeft s' where
  running pid hpid := absurd hpid (hnone pid)
  joined hcall' := absurd (h.joined (hcall.symm.trans hcall')) hreturned

/-- When the child of the run loop has been reaped, none runs. -/
theorem NoneLeft.reaping (h : NoneLeft s) (hc : s.loop.active = some c) (next : Child → Loop) :
    NoneRunning (s.reaping c next) := by
  intro pid hpid
  unfold Supervisor.reaping at hpid
  dsimp only at hpid
  have hchild : ∀ pid', s.procs pid' = some (.child true) → c.pid = pid' ∧ c.reaped = false := by
    intro pid' hpid'
    obtain ⟨d, hd, heq, hreaped⟩ := h.running pid' hpid'
    obtain rfl : c = d := Option.some.inj (hc.symm.trans hd)
    exact ⟨heq, hreaped⟩
  split at hpid
  · next hreaped =>
    rw [(hchild pid hpid).2] at hreaped
    cases hreaped
  · by_cases heq : pid = c.pid
    · rw [heq, Function.update_self] at hpid
      cases hpid
    · rw [Function.update_of_ne heq] at hpid
      exact heq (hchild pid hpid).1.symm

/-- A wait of the run loop; one that fails goes on with the child, or finds none that runs. -/
theorem NoneLeft.waitFor (h : NoneLeft s) (hreturned : s.loop ≠ .returned)
    (hc : s.loop.active = some c) {exited : Child → Loop} {running failed : Loop}
    (hrunning : running.active = some c)
    (hfailed : failed.active = some c ∨
      (s.tryWait c e.fails = .failed → s.procs c.pid ≠ some (.child true))) :
    NoneLeft (s.waitFor c e.fails exited running failed) := by
  unfold Supervisor.waitFor
  cases htry : s.tryWait c e.fails with
  | exited => exact h.of_noneRunning hreturned (h.reaping hc exited) rfl
  | running =>
    exact h.goOn hreturned rfl rfl fun d hd => hrunning.trans (hc.symm.trans hd)
  | failed =>
    obtain hactive | hidle := hfailed
    · exact h.goOn hreturned rfl rfl fun d hd => hactive.trans (hc.symm.trans hd)
    · refine h.of_noneRunning hreturned (fun pid hpid => ?_) rfl
      obtain ⟨d, hd, heq, -⟩ := h.running pid hpid
      obtain rfl : c = d := Option.some.inj (hc.symm.trans hd)
      rw [← heq] at hpid
      exact hidle htry hpid

/-- **What an access of the run loop leaves running.** -/
theorem NoneLeft.advance (h : NoneLeft s) (ht : Tended s (.advance e)) :
    NoneLeft (s.advance e) := by
  by_cases hreturned : s.loop = .returned
  · unfold Supervisor.advance
    rw [hreturned]
    exact h
  have hwait : ∀ {l : Loop} {c : Child}, s.loop = l → l.givesUp e.elapsed = some c →
      s.tryWait c e.fails = .failed → s.procs c.pid ≠ some (.child true) := by
    intro l c hloop hgives hfailed
    exact ht c (by rw [hloop]; exact hgives) hfailed
  unfold Supervisor.advance
  cases hloop : s.loop with
  | top | counting c => exact h.of_noneRunning hreturned (h.noneRunning (by rw [hloop]; rfl)) rfl
  | spawning =>
    have hnone : NoneRunning s := h.noneRunning (by rw [hloop]; rfl)
    dsimp only
    split
    · exact h.of_noneRunning hreturned hnone rfl
    · split
      · -- the new child is the only one
        refine ⟨fun pid hpid => ⟨_, rfl, ?_, rfl⟩, fun hcall => absurd (h.joined hcall) hreturned⟩
        by_contra hne
        dsimp only at hpid
        rw [Function.update_of_ne fun heq => hne heq.symm] at hpid
        exact hnone pid hpid
      · exact h
  | spawned c | terminating c caller | clearing c =>
    exact h.goOn hreturned rfl rfl fun d hd => by rw [hloop] at hd; exact hd
  | watching c | probing c | checking c =>
    refine h.goOn hreturned rfl rfl fun d hd => ?_
    rw [hloop] at hd
    dsimp only
    split <;> exact hd
  | polling c => exact h.waitFor hreturned (by rw [hloop]; rfl) rfl (Or.inl rfl)
  | awaiting c caller =>
    dsimp only
    split
    · exact h.goOn hreturned rfl rfl fun d hd => by rw [hloop] at hd; exact hd
    · next hover =>
      refine h.waitFor hreturned (by rw [hloop]; rfl) rfl ?_
      cases caller with
      | superviseOne => exact Or.inl rfl
      | reap => exact Or.inr (hwait hloop (if_neg hover))
  | killing c caller =>
    refine h.goOn hreturned ?_ ?_ fun d hd => by rw [hloop] at hd; exact hd
    · dsimp only
      split <;> rfl
    · dsimp only
      split <;> rfl
  | killed c caller =>
    refine h.waitFor hreturned (by rw [hloop]; rfl) rfl ?_
    cases caller with
    | superviseOne => exact Or.inl rfl
    | reap => exact Or.inr (hwait hloop rfl)
  | waiting c => exact h.waitFor hreturned (by rw [hloop]; rfl) rfl (Or.inr (hwait hloop rfl))
  | resting c =>
    have hnone : NoneRunning s := h.noneRunning (by rw [hloop]; rfl)
    dsimp only
    split
    · exact h.of_noneRunning hreturned hnone rfl
    · split
      · exact h.of_noneRunning hreturned hnone rfl
      · exact h
  | returned => exact absurd hloop hreturned

/-- An access of another thread, and what a process does, do not start a child. -/
theorem NoneLeft.of_procs {s' : Supervisor} (h : NoneLeft s) (hloop : s'.loop = s.loop)
    (hprocs : ∀ pid, s'.procs pid = some (.child true) → s.procs pid = some (.child true))
    (hjoined : s'.call = .returned → s.call = .returned ∨ s.loop = .returned) : NoneLeft s' where
  running pid hpid := by
    rw [hloop]
    exact h.running pid (hprocs pid hpid)
  joined hcall := by
    rw [hloop]
    exact (hjoined hcall).elim h.joined id

/-- A process that is not a running child now. -/
theorem of_update {procs : Pid → Option Proc} {pid pid' : Pid} {proc : Option Proc}
    (h : Function.update procs pid proc pid' = some (.child true))
    (hproc : proc ≠ some (.child true)) : procs pid' = some (.child true) := by
  by_cases heq : pid' = pid
  · rw [heq, Function.update_self] at h
    exact absurd h hproc
  · rwa [Function.update_of_ne heq] at h

/-- **What each step leaves running.** -/
theorem NoneLeft.step (h : NoneLeft s) (a : Action) (ht : Tended s a) : NoneLeft (s.step a) := by
  unfold Supervisor.step
  cases a with
  | advance e => exact h.advance ht
  | restartLoad | restartKill pid =>
    dsimp only
    split
    · exact h.of_procs rfl (fun _ hpid => hpid) Or.inl
    · exact h
  | stopStore =>
    dsimp only
    split
    · exact h.of_procs rfl (fun _ hpid => hpid) fun hcall => by cases hcall
    · exact h
  | stopLoad =>
    dsimp only
    split
    · refine h.of_procs rfl (fun _ hpid => hpid) fun hcall => ?_
      dsimp only at hcall
      split at hcall <;> cases hcall
    · exact h
  | stopKill =>
    cases hcall : s.call with
    | loaded pid => exact h.of_procs rfl (fun _ hpid => hpid) fun hcall' => by cases hcall'
    | _ => exact h
  | stopJoin =>
    dsimp only
    split
    · next hjoin => exact h.of_procs rfl (fun _ hpid => hpid) fun _ => Or.inr hjoin.2
    · exact h
  | exit pid =>
    dsimp only
    split
    · exact h.of_procs rfl (fun _ hpid => of_update hpid (by simp)) Or.inl
    · exact h.of_procs rfl (fun _ hpid => of_update hpid (by simp)) Or.inl
  | start pid =>
    dsimp only
    split
    · exact h.of_procs rfl (fun _ hpid => of_update hpid (by simp)) Or.inl
    · exact h

end Steps

/-! ### Runs -/

/-- **In an orderly run each signal goes to a child that is not reaped; and a stop leaves no child
running when each child is tended.** -/
theorem signals_own_child (acts : List Action) :
    (Along Supervisor.step Orderly .boot acts → GoodSignals (.run acts)) ∧
      (Along Supervisor.step Tended .boot acts → (Supervisor.run acts).call = .returned →
        NoneRunning (.run acts)) := by
  constructor
  · intro ho
    exact (ho.foldl_invariant (fun _ a hs hoa => hs.step a hoa) Sound.boot).signals
  · intro ht hcall
    have h := ht.foldl_invariant (fun _ a hs hta => hs.step a hta) NoneLeft.boot
    exact h.noneRunning (by rw [h.joined hcall]; rfl)

/-- Accesses of the run loop that meet a pid, no error, and no limit. -/
def goesOn (pid : Pid) : Action := .advance ⟨pid, false, false⟩

/-- A restart; the child exits and is reaped, and the stop request comes after the back-off. -/
def restarted : List Action :=
  [goesOn 7, goesOn 7, goesOn 7, .restartLoad, .restartKill 7, goesOn 7, .exit 7, goesOn 7,
    goesOn 7, goesOn 7, goesOn 7, goesOn 7, .advance ⟨7, false, true⟩, .stopStore, goesOn 7,
    .stopLoad, .stopJoin]

theorem restarted_own_child :
    GoodSignals (.run restarted) ∧ NoneRunning (.run restarted) :=
  ⟨(signals_own_child restarted).1 (by decide),
    (signals_own_child restarted).2 (by decide) (by decide)⟩

/-- A stop: the child is told to end, exits and is reaped, and another process gets its pid. -/
def stopped : List Action :=
  [goesOn 7, goesOn 7, goesOn 7, .stopStore, .stopLoad, .stopKill, goesOn 7, goesOn 7, .exit 7,
    goesOn 7, goesOn 7, goesOn 7, .start 7, goesOn 7]

/-- The last signal of a stop goes to the other process. -/
theorem not_goodSignals : ¬ GoodSignals (.run stopped) := by
  intro h
  obtain ⟨running, hrunning⟩ := h (7, some .other) (by decide)
  cases hrunning

end Pantoken.Desktop.SupervisorSignals
