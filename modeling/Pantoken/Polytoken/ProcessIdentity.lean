import Mathlib.Logic.Function.Basic
import Pantoken.Lib.Run

/-!
# The process that a cleanup signals

A client of a daemon learns its pid from a health probe, and the start time of the process with
this pid right after.  When it kills the daemon it compares the start time with the one that the
process of this pid has then, since the pid may have been given to another process meanwhile.

Probes and kills are tasks.  Each reads or writes the pid and the start time one after the other,
and processes exit and start in between.

## Main definitions

* `verify` — the comparison.
* `Client`, `Action`, `Client.step` — the tasks of a client and the processes of its host.
* `Orderly` — the daemon is still there when its start time is read, and no task comes between
  the two accesses of another.

## Main results

* `sound_step` — what each step keeps of the two fields.
* `signals_daemon` — **in an orderly run each signal goes to a daemon that answered.**
* `not_signals_daemon` — one that exits too early is not the process whose start time is kept.
-/

namespace Pantoken.ProcessIdentity

abbrev Pid := Int

/-- A process, apart from its pid, and its start time. -/
structure Proc where
  serial : ℕ
  startTime : ℕ
  deriving DecidableEq

/-- `verify` -/
def verify (pid : Pid) (storedStartTime : Option ℕ) (readStartTime : Pid → Option ℕ) : Bool :=
  match storedStartTime with
  | none => true
  | some stored =>
    match readStartTime pid with
    | some current => current = stored
    | none => false

/-- Where a task is: in `health`, after the answer of the daemon `d`, or in `kill`. -/
inductive Task
  | idle
  | answered (pid : Pid) (d : Proc)
  | storedPid (pid : Pid) (d : Proc)
  | captured (pid : Pid) (d : Proc) (startTime : Option ℕ)
  | readPid (pid : Pid)
  | readStart (pid : Pid) (stored : Option ℕ)
  deriving DecidableEq

/-- A client on a host that tells start times. -/
structure Client where
  /-- The processes of the host, and all that ever were. -/
  procs : Pid → Option Proc
  born : List (Pid × Proc)
  /-- `daemon_pid` and `daemon_start_time` -/
  daemonPid : Option Pid
  daemonStart : Option ℕ
  tasks : ℕ → Task
  /-- The daemons that answered a probe. -/
  answered : List (Pid × Proc)
  /-- The signals, with the process that had the pid. -/
  signals : List (Pid × Option Proc)

inductive Action
  | spawn (pid : Pid) (startTime : ℕ)
  | exit (pid : Pid)
  | answer (t : ℕ) (pid : Pid)
  | storePid (t : ℕ)
  | capture (t : ℕ)
  | storeStart (t : ℕ)
  /-- A call of `kill`, also from `close`, which reads the pid. -/
  | kill (t : ℕ)
  | readStart (t : ℕ)
  | signal (t : ℕ)
  deriving DecidableEq

namespace Client

def boot : Client := ⟨fun _ => none, [], none, none, fun _ => .idle, [], []⟩

def setTask (s : Client) (t : ℕ) (task : Task) : Client :=
  { s with tasks := Function.update s.tasks t task }

/-- `capture_start_time` -/
def startTime (s : Client) (pid : Pid) : Option ℕ := (s.procs pid).map Proc.startTime

/-- One step of a task, or of the host.  Two processes of one pid have different start times. -/
def step (s : Client) : Action → Client
  | .spawn pid startTime =>
    if s.procs pid = none ∧ ∀ b ∈ s.born, b.1 = pid → b.2.startTime ≠ startTime then
      let p : Proc := ⟨s.born.length, startTime⟩
      { s with procs := Function.update s.procs pid (some p), born := (pid, p) :: s.born }
    else s
  | .exit pid => { s with procs := Function.update s.procs pid none }
  | .answer t pid =>
    match s.tasks t, s.procs pid with
    | .idle, some d =>
      { s with tasks := Function.update s.tasks t (.answered pid d),
               answered := (pid, d) :: s.answered }
    | _, _ => s
  | .storePid t =>
    match s.tasks t with
    | .answered pid d => { s.setTask t (.storedPid pid d) with daemonPid := some pid }
    | _ => s
  | .capture t =>
    match s.tasks t with
    | .storedPid pid d => s.setTask t (.captured pid d (s.startTime pid))
    | _ => s
  | .storeStart t =>
    match s.tasks t with
    | .captured _ _ startTime => { s.setTask t .idle with daemonStart := startTime }
    | _ => s
  | .kill t =>
    match s.tasks t, s.daemonPid with
    | .idle, some pid => s.setTask t (.readPid pid)
    | _, _ => s
  | .readStart t =>
    match s.tasks t with
    | .readPid pid => s.setTask t (.readStart pid s.daemonStart)
    | _ => s
  | .signal t =>
    match s.tasks t with
    | .readStart pid stored =>
      if verify pid stored s.startTime then
        { s.setTask t .idle with signals := (pid, s.procs pid) :: s.signals }
      else s.setTask t .idle
    | _ => s

def run (acts : List Action) : Client := acts.foldl step boot

end Client

/-- A probe has stored the pid, and not yet the start time. -/
def Task.Storing : Task → Prop
  | .storedPid _ _ | .captured _ _ _ => True
  | _ => False

/-- A task has one of its two accesses behind it. -/
def Task.Between : Task → Prop
  | .storedPid _ _ | .captured _ _ _ | .readPid _ => True
  | _ => False

/-- The daemon is still there when its start time is read, and no task comes between the two
accesses of another. -/
def Orderly (s : Client) : Action → Prop
  | .storePid _ => ∀ u, ¬ (s.tasks u).Between
  | .capture t => ∀ pid d, s.tasks t = .storedPid pid d → s.procs pid = some d
  | .kill _ => ∀ u, ¬ (s.tasks u).Storing
  | _ => True

/-- The start time is that of a daemon with the pid that answered. -/
def OfDaemon (answered : List (Pid × Proc)) (pid : Pid) (stored : Option ℕ) : Prop :=
  ∃ d, (pid, d) ∈ answered ∧ stored = some d.startTime

/-- What a task has is of a daemon that answered. -/
def Task.Ok (answered : List (Pid × Proc)) (daemonPid : Option Pid) : Task → Prop
  | .idle => True
  | .answered pid d => (pid, d) ∈ answered
  | .storedPid pid d => (pid, d) ∈ answered ∧ daemonPid = some pid
  | .captured pid d startTime =>
    (pid, d) ∈ answered ∧ daemonPid = some pid ∧ startTime = some d.startTime
  | .readPid pid => daemonPid = some pid
  | .readStart pid stored => OfDaemon answered pid stored

/-- Each signal went to a daemon that answered, which had the pid then. -/
def GoodSignals (s : Client) : Prop :=
  ∀ sig ∈ s.signals, ∃ d, sig.2 = some d ∧ (sig.1, d) ∈ s.answered

structure Sound (s : Client) : Prop where
  differ : ∀ pid p p', (pid, p) ∈ s.born → (pid, p') ∈ s.born → p.startTime = p'.startTime → p = p'
  procs : ∀ pid p, s.procs pid = some p → (pid, p) ∈ s.born
  answered : ∀ b ∈ s.answered, b ∈ s.born
  tasks : ∀ t, (s.tasks t).Ok s.answered s.daemonPid
  alone : ∀ t u, (s.tasks t).Storing → (s.tasks u).Between → t = u
  pair : (∀ t, ¬ (s.tasks t).Storing) → ∀ pid, s.daemonPid = some pid →
    OfDaemon s.answered pid s.daemonStart
  signals : GoodSignals s

/-! ### Tasks -/

section Tasks

variable {s : Client} {tasks : ℕ → Task} {t : ℕ} {task : Task} {answered : List (Pid × Proc)}
  {daemonPid : Option Pid}

theorem Task.Storing.between (h : task.Storing) : task.Between := by
  cases task <;> first | exact h | exact absurd h id

theorem Task.Ok.cons (h : task.Ok answered daemonPid) (b : Pid × Proc) :
    task.Ok (b :: answered) daemonPid := by
  cases task with
  | idle => trivial
  | answered pid d => exact List.mem_cons_of_mem _ h
  | storedPid pid d => exact ⟨List.mem_cons_of_mem _ h.1, h.2⟩
  | captured pid d startTime => exact ⟨List.mem_cons_of_mem _ h.1, h.2⟩
  | readPid pid => exact h
  | readStart pid stored =>
    obtain ⟨d, hd, hstored⟩ := h
    exact ⟨d, List.mem_cons_of_mem _ hd, hstored⟩

/-- A task that is not between its accesses does not depend on the pid that is stored. -/
theorem Task.Ok.of_not_between (h : task.Ok answered daemonPid) (hb : ¬ task.Between)
    (pid : Option Pid) : task.Ok answered pid := by
  cases task <;> first | exact h | exact absurd trivial hb

theorem forall_update {P : Task → Prop} (hnew : P task) (hold : ∀ u, P (tasks u)) (u : ℕ) :
    P (Function.update tasks t task u) := by
  by_cases hu : u = t
  · rw [hu, Function.update_self]
    exact hnew
  · rw [Function.update_of_ne hu]
    exact hold u

/-- No task is between its accesses with one that stores. -/
def Alone (tasks : ℕ → Task) : Prop := ∀ t u, (tasks t).Storing → (tasks u).Between → t = u

theorem alone_update (h : Alone tasks) (hb : ¬ task.Between) :
    Alone (Function.update tasks t task) := by
  intro u v hu hv
  by_cases hut : u = t
  · rw [hut, Function.update_self] at hu
    exact absurd hu.between hb
  · by_cases hvt : v = t
    · rw [hvt, Function.update_self] at hv
      exact absurd hv hb
    · rw [Function.update_of_ne hut] at hu
      rw [Function.update_of_ne hvt] at hv
      exact h u v hu hv

/-- A task that is the only one to store, or to read while none stores. -/
theorem alone_update_of (h : ∀ u, u ≠ t → ¬ (tasks u).Storing)
    (hb : task.Storing → ∀ u, u ≠ t → ¬ (tasks u).Between) :
    Alone (Function.update tasks t task) := by
  intro u v hu hv
  by_cases hut : u = t
  · rw [hut, Function.update_self] at hu
    by_contra hne
    rw [Function.update_of_ne fun hv' => hne (hut.trans hv'.symm)] at hv
    exact hb hu v (fun hv' => hne (hut.trans hv'.symm)) hv
  · rw [Function.update_of_ne hut] at hu
    exact absurd hu (h u hut)

theorem not_forall_not_storing (h : task.Storing) :
    ¬ ∀ u, ¬ (Function.update tasks t task u).Storing := by
  intro hnone
  have hnot := hnone t
  rw [Function.update_self] at hnot
  exact hnot h

/-- Where no task stores after a step that took none away, none did before. -/
theorem not_storing_of_update (hold : ¬ (tasks t).Storing)
    (h : ∀ u, ¬ (Function.update tasks t task u).Storing) (u : ℕ) : ¬ (tasks u).Storing := by
  by_cases hu : u = t
  · rwa [hu]
  · have hnot := h u
    rwa [Function.update_of_ne hu] at hnot

end Tasks

/-! ### Steps -/

section Steps

variable {s : Client} {t : ℕ} {pid : Pid}

theorem sound_boot : Sound .boot where
  differ := fun _ _ _ h => absurd h List.not_mem_nil
  procs := fun _ _ h => by cases h
  answered := fun _ h => absurd h List.not_mem_nil
  tasks := fun _ => trivial
  alone := fun _ _ h => absurd h id
  pair := fun _ _ h => by cases h
  signals := fun _ h => absurd h List.not_mem_nil

theorem Sound.spawn (h : Sound s) (pid : Pid) (startTime : ℕ) :
    Sound (s.step (.spawn pid startTime)) := by
  unfold Client.step
  dsimp only
  split_ifs with hfresh
  · refine ⟨?_, ?_, fun b hb => List.mem_cons_of_mem _ (h.answered b hb), h.tasks, h.alone, h.pair,
      h.signals⟩
    · intro q p p' hp hp' heq
      -- a new process differs from those before it by its start time
      rcases List.mem_cons.mp hp with hp | hp <;> rcases List.mem_cons.mp hp' with hp' | hp'
      · cases hp
        cases hp'
        rfl
      · cases hp
        exact absurd heq.symm (hfresh.2 _ hp' rfl)
      · cases hp'
        exact absurd heq (hfresh.2 _ hp rfl)
      · exact h.differ q p p' hp hp' heq
    · intro q p hq
      by_cases hqp : q = pid
      · dsimp only at hq
        rw [hqp, Function.update_self] at hq
        cases hq
        rw [hqp]
        exact List.mem_cons_self
      · dsimp only at hq
        rw [Function.update_of_ne hqp] at hq
        exact List.mem_cons_of_mem _ (h.procs q p hq)
  · exact h

theorem Sound.exit (h : Sound s) (pid : Pid) : Sound (s.step (.exit pid)) := by
  refine ⟨h.differ, fun q p hq => ?_, h.answered, h.tasks, h.alone, h.pair, h.signals⟩
  by_cases hqp : q = pid
  · dsimp only [Client.step] at hq
    rw [hqp, Function.update_self] at hq
    cases hq
  · dsimp only [Client.step] at hq
    rw [Function.update_of_ne hqp] at hq
    exact h.procs q p hq

theorem OfDaemon.cons {answered : List (Pid × Proc)} {stored : Option ℕ}
    (h : OfDaemon answered pid stored) (b : Pid × Proc) : OfDaemon (b :: answered) pid stored := by
  obtain ⟨d, hd, hstored⟩ := h
  exact ⟨d, List.mem_cons_of_mem _ hd, hstored⟩

theorem Sound.answer (h : Sound s) (t : ℕ) (pid : Pid) : Sound (s.step (.answer t pid)) := by
  unfold Client.step
  dsimp only
  cases htask : s.tasks t with
  | idle =>
    cases hproc : s.procs pid with
    | none => exact h
    | some d =>
      have hstoring : ¬ (s.tasks t).Storing := by
        rw [htask]
        exact id
      refine ⟨h.differ, h.procs, ?_, ?_, alone_update h.alone id, fun hnone q hq => ?_, ?_⟩
      · intro b hb
        rcases List.mem_cons.mp hb with rfl | hb
        · exact h.procs pid d hproc
        · exact h.answered b hb
      · exact forall_update (P := Task.Ok _ _) List.mem_cons_self fun u => (h.tasks u).cons _
      · exact (h.pair (not_storing_of_update hstoring hnone) q hq).cons _
      · intro sig hsig
        obtain ⟨d', hd', hmem⟩ := h.signals sig hsig
        exact ⟨d', hd', List.mem_cons_of_mem _ hmem⟩
  | _ => exact h

theorem Sound.storePid (h : Sound s) (t : ℕ) (hs : Orderly s (.storePid t)) :
    Sound (s.step (.storePid t)) := by
  unfold Client.step
  dsimp only
  cases htask : s.tasks t with
  | answered pid d =>
    have hok := h.tasks t
    rw [htask] at hok
    -- no other task is between its accesses, so none depends on the pid that is replaced
    refine ⟨h.differ, h.procs, h.answered, ?_, ?_,
      fun hnone => absurd hnone (not_forall_not_storing trivial), h.signals⟩
    · exact forall_update (P := Task.Ok _ _) ⟨hok, rfl⟩ fun u =>
        (h.tasks u).of_not_between (hs u) _
    · exact alone_update_of (fun u _ hu => hs u hu.between) fun _ u _ => hs u
  | _ => exact h

theorem Sound.capture (h : Sound s) (t : ℕ) (hs : Orderly s (.capture t)) :
    Sound (s.step (.capture t)) := by
  unfold Client.step
  dsimp only
  cases htask : s.tasks t with
  | storedPid pid d =>
    have hok := h.tasks t
    rw [htask] at hok
    -- the daemon that answered is still there
    have hstart : s.startTime pid = some d.startTime := by
      rw [Client.startTime, hs pid d htask]
      rfl
    have hstoring : (s.tasks t).Storing := by
      rw [htask]
      trivial
    have hothers : ∀ u, u ≠ t → ¬ (s.tasks u).Between := fun u hu hb =>
      hu (h.alone t u hstoring hb).symm
    refine ⟨h.differ, h.procs, h.answered, ?_, ?_,
      fun hnone => absurd hnone (not_forall_not_storing trivial), h.signals⟩
    · exact forall_update (P := Task.Ok _ _) ⟨hok.1, hok.2, hstart⟩ h.tasks
    · exact alone_update_of (fun u hu hb => hothers u hu hb.between) fun _ => hothers
  | _ => exact h

theorem Sound.storeStart (h : Sound s) (t : ℕ) : Sound (s.step (.storeStart t)) := by
  unfold Client.step
  dsimp only
  cases htask : s.tasks t with
  | captured pid d startTime =>
    have hok := h.tasks t
    rw [htask] at hok
    refine ⟨h.differ, h.procs, h.answered, ?_, alone_update h.alone id, fun _ q hq => ?_, h.signals⟩
    · exact forall_update (P := Task.Ok _ _) trivial h.tasks
    · -- both fields are of the daemon that this task probed
      have hpid : s.daemonPid = some q := hq
      rw [hok.2.1] at hpid
      cases hpid
      exact ⟨d, hok.1, hok.2.2⟩
  | _ => exact h

theorem Sound.kill (h : Sound s) (t : ℕ) (hs : Orderly s (.kill t)) :
    Sound (s.step (.kill t)) := by
  unfold Client.step
  dsimp only
  cases htask : s.tasks t with
  | idle =>
    cases hpid : s.daemonPid with
    | none => exact h
    | some pid =>
      refine ⟨h.differ, h.procs, h.answered, ?_, ?_, fun _ q hq => h.pair hs q hq, h.signals⟩
      · exact forall_update (P := Task.Ok _ _) hpid h.tasks
      · exact alone_update_of (fun u _ => hs u) fun hstoring => absurd hstoring id
  | _ => exact h

theorem Sound.readStart (h : Sound s) (t : ℕ) : Sound (s.step (.readStart t)) := by
  unfold Client.step
  dsimp only
  cases htask : s.tasks t with
  | readPid pid =>
    have hok := h.tasks t
    rw [htask] at hok
    -- while this task reads, none stores
    have hnone : ∀ u, ¬ (s.tasks u).Storing := by
      intro u hu
      have hbetween : (s.tasks t).Between := by
        rw [htask]
        trivial
      rw [h.alone u t hu hbetween, htask] at hu
      exact hu
    refine ⟨h.differ, h.procs, h.answered, ?_, alone_update h.alone id,
      fun _ q hq => h.pair hnone q hq, h.signals⟩
    exact forall_update (P := Task.Ok _ _) (h.pair hnone pid hok) h.tasks
  | _ => exact h

/-- What passes the comparison with a daemon's start time is this daemon. -/
theorem verify_daemon (h : Sound s) {stored : Option ℕ} (hstored : OfDaemon s.answered pid stored)
    (hverify : verify pid stored s.startTime = true) :
    ∃ d, s.procs pid = some d ∧ (pid, d) ∈ s.answered := by
  obtain ⟨d, hd, rfl⟩ := hstored
  unfold verify Client.startTime at hverify
  cases hproc : s.procs pid with
  | none =>
    rw [hproc] at hverify
    cases hverify
  | some p =>
    rw [hproc] at hverify
    -- two processes of one pid are told apart by their start times
    have heq : p = d := h.differ pid p d (h.procs pid p hproc) (h.answered _ hd)
      (of_decide_eq_true hverify)
    exact ⟨d, by rw [heq], hd⟩

theorem Sound.signal (h : Sound s) (t : ℕ) : Sound (s.step (.signal t)) := by
  unfold Client.step
  dsimp only
  cases htask : s.tasks t with
  | readStart pid stored =>
    have hok := h.tasks t
    rw [htask] at hok
    have hstoring : ¬ (s.tasks t).Storing := by
      rw [htask]
      exact id
    -- a signal changes nothing else than a refusal does
    have hidle : Sound (s.setTask t .idle) :=
      ⟨h.differ, h.procs, h.answered, forall_update (P := Task.Ok _ _) trivial h.tasks,
        alone_update h.alone id, fun hnone => h.pair (not_storing_of_update hstoring hnone),
        h.signals⟩
    dsimp only
    split_ifs with hverify
    · refine ⟨hidle.differ, hidle.procs, hidle.answered, hidle.tasks, hidle.alone, hidle.pair, ?_⟩
      intro sig hsig
      rcases List.mem_cons.mp hsig with rfl | hsig
      · exact verify_daemon h hok hverify
      · exact h.signals sig hsig
    · exact hidle
  | _ => exact h

/-- **What one orderly step keeps.** -/
theorem sound_step (s : Client) (a : Action) (h : Sound s) (hs : Orderly s a) :
    Sound (s.step a) := by
  cases a with
  | spawn pid startTime => exact h.spawn pid startTime
  | exit pid => exact h.exit pid
  | answer t pid => exact h.answer t pid
  | storePid t => exact h.storePid t hs
  | capture t => exact h.capture t hs
  | storeStart t => exact h.storeStart t
  | kill t => exact h.kill t hs
  | readStart t => exact h.readStart t
  | signal t => exact h.signal t

end Steps

/-- **In an orderly run each signal goes to a daemon that answered**, which has the pid then. -/
theorem signals_daemon {acts : List Action} (h : Along Client.step Orderly .boot acts) :
    GoodSignals (Client.run acts) :=
  (h.foldl_invariant sound_step sound_boot).signals

/-- A daemon that answers, and is killed. -/
def killRun : List Action :=
  [.spawn 42 100, .answer 0 42, .storePid 0, .capture 0, .storeStart 0, .kill 1, .readStart 1,
    .signal 1]

theorem signals_daemon_killed :
    (Client.run killRun).signals = [(42, some ⟨0, 100⟩)] ∧ GoodSignals (Client.run killRun) := by
  refine ⟨by decide, signals_daemon ⟨trivial, trivial, ?_, ?_, trivial, ?_, trivial, trivial,
    trivial⟩⟩
  · exact forall_update (P := fun task => ¬ task.Between) id fun _ => id
  · rintro pid d ⟨⟩
    rfl
  · intro u
    cases u with
    | zero => exact id
    | succ u => exact id

/-- The daemon exits behind its answer and its pid is given to another process: before the start
time is read, or right after, when none was found. -/
theorem not_signals_daemon :
    ¬ GoodSignals (Client.run [.spawn 42 100, .answer 0 42, .storePid 0, .exit 42, .spawn 42 200,
      .capture 0, .storeStart 0, .kill 1, .readStart 1, .signal 1]) ∧
    ¬ GoodSignals (Client.run [.spawn 42 100, .answer 0 42, .storePid 0, .exit 42, .capture 0,
      .storeStart 0, .spawn 42 200, .kill 1, .readStart 1, .signal 1]) := by
  constructor <;>
  · intro h
    obtain ⟨d, hd, hmem⟩ := h (42, some ⟨1, 200⟩) (by decide)
    cases hd
    exact absurd hmem (by decide)

end Pantoken.ProcessIdentity
