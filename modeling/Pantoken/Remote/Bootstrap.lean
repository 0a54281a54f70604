import Pantoken.Server.PidLock

/-!
# The bootstrap of a remote runtime

A stdio proxy connects to the runtime's socket under the remote root, and starts a runtime
when nothing answers.  Proxies and runtimes take the same lock, in the same directory; a
runtime unlinks the socket before it binds it anew.

A step is one file operation, one connect, or one decision of a process.  What a process
does with the lock are the steps of `DataDir`.

## Main definitions

* `RemoteRoot`, `RemoteRoot.step` — the lock, the socket and the processes of a root.
* `RemoteRoot.Converges` — one runtime at most owns the root and serves it, no start cuts
  another off, and a runtime that was spawned gets the lock.
* `RemoteRoot.Keeps` — the lock's windows stay closed, and no proxy spawns a runtime.

## Main results

* `spawned_refused` — **a runtime is refused the lock as long as the proxy that spawned it
  holds it.**
* `converges_of_keeps` — **runs whose steps keep so converge.**
* `not_converges` — the first proxy on an empty root.
-/

namespace Pantoken

/-! ### The processes of a root -/

/-- Where `connect_with_bootstrap` stands. -/
inductive ProxyStep
  | connect
  /-- Nothing accepts: `server.pid` is to be read. -/
  | readPid
  | decidePid (existing : Option LockInfo)
  | acquire
  /-- Another process has the lock: one more connect. -/
  | retry
  /-- The lock is taken. -/
  | spawn
  /-- `wait_for_socket` -/
  | wait
  | connected (runtime : Nat)
  | failed
  deriving DecidableEq, Repr

/-- Where `run_remote_runtime_mode` stands. -/
inductive RuntimeStep
  | acquire
  /-- The lock is taken, and the hub and the driver are built. -/
  | unlink
  | bind
  | listening
  /-- The accept loop ended: the listener is dropped. -/
  | stopped
  deriving DecidableEq, Repr

/-- What a process of the system is; `spawned` is the runtime a proxy started and `parent`
the proxy that started a runtime. -/
inductive Role
  | proxy (pc : ProxyStep) (spawned : Option Nat)
  | runtime (pc : RuntimeStep) (parent : Option Nat)
  | other
  deriving DecidableEq, Repr

/-- `run/server.sock`: a file that no listener is behind, or the listener of a process. -/
inductive SocketFile
  | absent
  | stale
  | bound (owner : Nat)
  deriving DecidableEq, Repr

/-- A remote root: its run directory with the lock, the pid file that is only read, the
socket, and the roles of the processes; `cutOff` says whether a runtime's start unlinked a
socket another runtime listened on, `refused` whether a runtime some proxy spawned was
refused the lock while no live runtime held it. -/
structure RemoteRoot where
  dir : DataDir
  serverPid : Option LockText
  socket : SocketFile
  roles : List Role := []
  cutOff : Bool := false
  refused : Bool := false

inductive Started
  | proxy | runtime | other
  deriving DecidableEq, Repr

def Started.role : Started → Role
  | .proxy => .proxy .connect none
  | .runtime => .runtime .acquire none
  | .other => .other

/-- One step; `ok` says whether the operation succeeds. -/
inductive RootAction
  | start (pid : Int) (serverId : String) (kind : Started)
  | exit (p : Nat)
  | connect (p : Nat)
  | readPid (p : Nat) (ok : Bool)
  | decidePid (p : Nat) (ok : Bool)
  | lock (a : LockAction)
  | spawn (p : Nat) (pid : Int) (serverId : String) (ok : Bool)
  | timeout (p : Nat)
  | unlink (p : Nat) (ok : Bool)
  | bind (p : Nat)
  | idle (p : Nat)
  deriving DecidableEq, Repr

/-- The process an action is of. -/
def RootAction.process : RootAction → Option Nat
  | .start _ _ _ => none
  | .exit p | .connect p | .readPid p _ | .decidePid p _ | .spawn p _ _ _ | .timeout p
  | .unlink p _ | .bind p | .idle p => some p
  | .lock a => a.process

/-- The lock steps a process may take where it stands. -/
def Role.mayLock : Role → LockAction → Bool
  | .proxy .acquire _, .acquire _ _ | .proxy .acquire _, .decide _ | .proxy .acquire _, .write _ _
  | .runtime .acquire _, .acquire _ _ | .runtime .acquire _, .decide _
  | .runtime .acquire _, .write _ _ => true
  -- the handle is dropped when the function returns
  | .proxy (.connected _) _, .release _ | .proxy (.connected _) _, .check _ _
  | .proxy (.connected _) _, .remove _ _ | .proxy .failed _, .release _
  | .proxy .failed _, .check _ _ | .proxy .failed _, .remove _ _
  | .runtime .stopped _, .release _ | .runtime .stopped _, .check _ _
  | .runtime .stopped _, .remove _ _ => true
  | _, _ => false

/-- What a role says of its live process in such runs: no proxy has spawned a runtime, and
a runtime that has the lock keeps it until it stops. -/
def Role.Ok (proc : LockProcess) : Role → Prop
  | .proxy _ spawned => spawned = none
  | .runtime pc parent =>
    parent = none ∧ (pc = .unlink ∨ pc = .bind ∨ pc = .listening → proc.holds = true)
  | .other => True

namespace RemoteRoot

def setRole (s : RemoteRoot) (p : Nat) (role : Role) : RemoteRoot :=
  { s with roles := s.roles.set p role }

/-- A live process, with its role. -/
def liveRole (s : RemoteRoot) (p : Nat) : Option (LockProcess × Role) :=
  match s.dir.processes[p]?, s.roles[p]? with
  | some proc, some role => if proc.alive then some (proc, role) else none
  | _, _ => none

/-- A live runtime that has the lock. -/
def owns (s : RemoteRoot) (p : Nat) : Bool :=
  match s.liveRole p with
  | some (proc, .runtime _ _) => proc.holds
  | _ => false

/-- A live runtime that accepts on the socket it bound. -/
def listens (s : RemoteRoot) (p : Nat) : Bool :=
  match s.liveRole p with
  | some (_, .runtime .listening _) => true
  | _ => false

/-- `UnixStream::connect(socket_path)`: the runtime that accepts. -/
def accepting (s : RemoteRoot) : Option Nat :=
  match s.socket with
  | .bound p => if s.listens p then some p else none
  | _ => none

/-- Some live runtime has the lock. -/
def held (s : RemoteRoot) : Bool := (List.range s.roles.length).any s.owns

variable (group : Int → Bool)

/-- A process is started, where the system has its pid to give. -/
def start (s : RemoteRoot) (pid : Int) (serverId : String) (role : Role) : RemoteRoot :=
  if 0 < pid ∧ pid < 2 ^ 31 ∧ s.dir.live pid = false then
    { s with dir := s.dir.step group (.start pid serverId), roles := s.roles ++ [role] }
  else s

/-- `std::process::exit(1)`, which runs no destructor. -/
def exit (s : RemoteRoot) (p : Nat) : RemoteRoot := { s with dir := s.dir.step group (.exit p) }

/-- `remove_file(socket_path)` -/
def unlinkSocket (s : RemoteRoot) (ok : Bool) : RemoteRoot :=
  if ok then { s with socket := .absent } else s

/-- A step of `acquire_pid_lock` or of `release`, and what its caller does with the result. -/
def lockStep (s : RemoteRoot) (p : Nat) (proc : LockProcess) (role : Role) (a : LockAction) :
    RemoteRoot :=
  let after := { s with dir := s.dir.step group a }
  match a, proc.pc with
  | .decide _, .decide existing =>
    match s.dir.decision group existing proc.pid, role with
    | .live, .proxy _ spawned => after.setRole p (.proxy .retry spawned)
    | .live, .runtime _ parent =>
      -- `remote root already locked`
      { after with refused := s.refused || (parent.isSome && !s.held) }.exit group p
    | _, _ => after
  | .write _ _, .write =>
    match role with
    | .proxy _ spawned => after.setRole p (.proxy .spawn spawned)
    | .runtime _ parent => after.setRole p (.runtime .unlink parent)
    | .other => after
  | _, _ => after

/-- A step of a live process. -/
def stepOf (s : RemoteRoot) (p : Nat) (proc : LockProcess) : Role → RootAction → RemoteRoot
  | .proxy .connect spawned, .connect _ =>
    match s.accepting with
    | some r => s.setRole p (.proxy (.connected r) spawned)
    | none => s.setRole p (.proxy .readPid spawned)
  | .proxy .retry spawned, .connect _ =>
    match s.accepting with
    | some r => s.setRole p (.proxy (.connected r) spawned)
    | none => s.setRole p (.proxy .wait spawned)
  | .proxy .wait spawned, .connect _ =>
    match s.accepting with
    | some r => s.setRole p (.proxy (.connected r) spawned)
    | none => s
  | .proxy .wait spawned, .timeout _ => s.setRole p (.proxy .failed spawned)
  | .proxy .readPid spawned, .readPid _ ok =>
    s.setRole p (.proxy (.decidePid (if ok then s.serverPid.bind parseLock else none)) spawned)
  | .proxy (.decidePid existing) spawned, .decidePid _ ok =>
    match s.dir.decision group existing proc.pid with
    | .live => s.setRole p (.proxy .wait spawned)
    | .reclaim =>
      -- a stale pid file takes the socket with it
      (if existing.isSome then s.unlinkSocket ok else s).setRole p (.proxy .acquire spawned)
  | .proxy .spawn spawned, .spawn _ pid serverId ok =>
    if ok ∧ 0 < pid ∧ pid < 2 ^ 31 ∧ s.dir.live pid = false then
      (s.setRole p (.proxy .wait (some s.roles.length))).start group pid serverId
        (.runtime .acquire (some p))
    else s.setRole p (.proxy .failed spawned)
  | .runtime .unlink parent, .unlink _ ok =>
    let cutOff := match s.accepting with
      | some q => ok && q != p
      | none => false
    { s.unlinkSocket ok with cutOff := s.cutOff || cutOff }.setRole p (.runtime .bind parent)
  | .runtime .bind parent, .bind _ =>
    match s.socket with
    | .absent => { s with socket := .bound p }.setRole p (.runtime .listening parent)
    -- the address is in use
    | _ => s.exit group p
  | .runtime .listening parent, .idle _ => s.setRole p (.runtime .stopped parent)
  | role, .lock a => if role.mayLock a then s.lockStep group p proc role a else s
  | _, .exit _ => s.exit group p
  | _, _ => s

/-- One step of the system. -/
def step (s : RemoteRoot) (a : RootAction) : RemoteRoot :=
  match a with
  | .start pid serverId kind => s.start group pid serverId kind.role
  | a =>
    match a.process with
    | none => s
    | some p =>
      match s.liveRole p with
      | none => s
      | some (proc, role) => s.stepOf group p proc role a

/-- The root before any process starts, with whatever earlier ones left behind. -/
def boot (lockFile serverPid : Option LockText) (stale : Bool) : RemoteRoot where
  dir := DataDir.boot lockFile
  serverPid := serverPid
  socket := if stale then .stale else .absent

/-- By steps of the proxy and of the runtime it spawned alone, the proxy ends connected to
that runtime. -/
def Joins (s : RemoteRoot) (p c : Nat) : Prop :=
  ∃ acts : List RootAction, (∀ a ∈ acts, a.process = some p ∨ a.process = some c) ∧
    ∃ proc, (acts.foldl (step group) s).liveRole p
      = some (proc, .proxy (.connected c) (some c))

/-- **Bootstrap converges on one runtime.** -/
structure Converges (s : RemoteRoot) : Prop where
  owner : ∀ p q, s.owns p = true → s.owns q = true → p = q
  server : ∀ p q, s.listens p = true → s.listens q = true → p = q
  /-- Who serves is who has the lock. -/
  same : ∀ p, s.listens p = true → s.owns p = true
  kept : s.cutOff = false
  granted : s.refused = false
  joins : ∀ p c proc, s.liveRole p = some (proc, .proxy .wait (some c)) →
    (∃ proc' pc, s.liveRole c = some (proc', .runtime pc (some p)) ∧ pc ≠ .stopped) →
      (∀ q, q ≠ c → s.owns q = false) → s.Joins group p c

/-- The windows stay closed, and no proxy gets to spawn a runtime, which it only does with
the lock in its hands. -/
def Keeps (s : RemoteRoot) : RootAction → Prop
  | .spawn p _ _ ok =>
    ok = true → ∀ proc spawned, s.liveRole p ≠ some (proc, .proxy .spawn spawned)
  | .lock a => s.dir.Keeps group a
  | _ => True

/-! ### Live processes and their roles -/

section Roles

variable {s : RemoteRoot} {p q : Nat} {proc : LockProcess} {role role' : Role}
  {group : Int → Bool}

theorem liveRole_iff : s.liveRole p = some (proc, role) ↔
    s.dir.processes[p]? = some proc ∧ s.roles[p]? = some role ∧ proc.alive = true := by
  unfold liveRole
  split
  · next proc' role' hproc hrole =>
    rw [hproc, hrole]
    split
    · next ha =>
      constructor
      · intro h
        obtain ⟨rfl, rfl⟩ := Prod.mk.inj (Option.some.inj h)
        exact ⟨rfl, rfl, ha⟩
      · rintro ⟨h, h', -⟩
        rw [Option.some.inj h, Option.some.inj h']
    · next ha =>
      constructor
      · intro h
        cases h
      · rintro ⟨h, -, h'⟩
        rw [Option.some.inj h] at ha
        exact absurd h' ha
  · next hnone =>
    constructor
    · intro h
      cases h
    · rintro ⟨h, h', -⟩
      exact absurd h' (hnone _ _ h)

/-- Only the role of `p` changes. -/
theorem liveRole_setRole (h : (s.setRole p role').liveRole q = some (proc, role)) :
    (q = p ∧ role = role' ∧ ∃ old, s.liveRole p = some (proc, old)) ∨
      (q ≠ p ∧ s.liveRole q = some (proc, role)) := by
  obtain ⟨hproc, hrole, ha⟩ := liveRole_iff.mp h
  by_cases hq : q = p
  · subst hq
    rw [setRole, List.getElem?_set_self'] at hrole
    obtain ⟨old, hold, rfl⟩ := Option.map_eq_some_iff.mp hrole
    exact .inl ⟨rfl, rfl, old, liveRole_iff.mpr ⟨hproc, hold, ha⟩⟩
  · rw [setRole, List.getElem?_set_ne (Ne.symm hq)] at hrole
    exact .inr ⟨hq, liveRole_iff.mpr ⟨hproc, hrole, ha⟩⟩

/-- A lock step of one process leaves the others alone. -/
theorem liveRole_of_dir {dir : DataDir} (h : dir.processes[q]? = s.dir.processes[q]?) :
    ({ s with dir } : RemoteRoot).liveRole q = s.liveRole q := by
  unfold liveRole
  rw [h]

theorem owns_iff : s.owns p = true ↔
    ∃ proc pc parent, s.liveRole p = some (proc, .runtime pc parent) ∧ proc.holds = true := by
  unfold owns
  split
  · next proc' pc parent h =>
    rw [h]
    constructor
    · intro hholds
      exact ⟨proc', pc, parent, rfl, hholds⟩
    · rintro ⟨_, _, _, heq, hholds⟩
      obtain ⟨rfl, -⟩ := Prod.mk.inj (Option.some.inj heq)
      exact hholds
  · next hnot =>
    constructor
    · intro h
      cases h
    · rintro ⟨proc', pc, parent, h, -⟩
      exact absurd h (hnot proc' pc parent)

theorem listens_iff : s.listens p = true ↔
    ∃ proc parent, s.liveRole p = some (proc, .runtime .listening parent) := by
  unfold listens
  split
  · next proc' parent h =>
    rw [h]
    exact iff_of_true rfl ⟨proc', parent, rfl⟩
  · next hnot =>
    constructor
    · intro h
      cases h
    · rintro ⟨proc', parent, h⟩
      exact absurd h (hnot proc' parent)

theorem accepting_listens (h : s.accepting = some q) : s.listens q = true := by
  unfold accepting at h
  split at h
  · split at h
    · next hl => exact Option.some.inj h ▸ hl
    · cases h
  · cases h

end Roles

/-! ### One runtime -/

/-- The invariant of runs that keep the windows closed and in which no proxy spawns. -/
structure Sound (s : RemoteRoot) : Prop where
  locked : s.dir.Locked
  length : s.roles.length = s.dir.processes.length
  role : ∀ p proc role, s.liveRole p = some (proc, role) → role.Ok proc
  kept : s.cutOff = false
  granted : s.refused = false

section Sound

variable {s : RemoteRoot} {p q : Nat} {proc : LockProcess} {role role' : Role}
  {group : Int → Bool}

theorem Sound.owner (hs : s.Sound) (hp : s.owns p = true) (hq : s.owns q = true) : p = q := by
  obtain ⟨a, _, _, ha, hah⟩ := owns_iff.mp hp
  obtain ⟨b, _, _, hb, hbh⟩ := owns_iff.mp hq
  exact hs.locked.exclusive.one p q ⟨a, (liveRole_iff.mp ha).1, hah⟩
    ⟨b, (liveRole_iff.mp hb).1, hbh⟩

theorem Sound.same (hs : s.Sound) (h : s.listens p = true) : s.owns p = true := by
  obtain ⟨proc, parent, hl⟩ := listens_iff.mp h
  have hok := hs.role p proc _ hl
  exact owns_iff.mpr ⟨proc, _, parent, hl, hok.2 (.inr (.inr rfl))⟩

theorem Sound.converges (hs : s.Sound) : s.Converges group where
  owner := fun _ _ => hs.owner
  server := fun _ _ hp hq => hs.owner (hs.same hp) (hs.same hq)
  same := fun _ => hs.same
  kept := hs.kept
  granted := hs.granted
  joins := by
    intro p c proc h _ _
    cases hs.role p proc _ h

/-- A process moves on to what is right for it. -/
theorem Sound.setRole (hs : s.Sound)
    (hok : ∀ proc old, s.liveRole p = some (proc, old) → role'.Ok proc) :
    (s.setRole p role').Sound where
  locked := hs.locked
  length := by rw [RemoteRoot.setRole, List.length_set]; exact hs.length
  role := by
    intro q proc r hq
    rcases liveRole_setRole hq with ⟨rfl, rfl, old, hold⟩ | ⟨-, hq⟩
    · exact hok proc old hold
    · exact hs.role q proc r hq
  kept := hs.kept
  granted := hs.granted

/-- A process takes a step of the lock, where its role says nothing of the lock. -/
theorem Sound.lock (hs : s.Sound) (h : s.liveRole p = some (proc, role)) {a : LockAction}
    (ha : a.process = some p) (hkeeps : s.dir.Keeps group a) (hok : ∀ proc, role.Ok proc) :
    ({ s with dir := s.dir.step group a } : RemoteRoot).Sound := by
  obtain ⟨hproc, hrole, halive⟩ := liveRole_iff.mp h
  have hstep := DataDir.step_eq_stepOf group hproc halive ha
  obtain ⟨hlength, hframe⟩ := DataDir.stepOf_frame s.dir p proc group a
  exact {
    locked := hs.locked.step a hkeeps
    length := by rw [hstep, hlength]; exact hs.length
    role := by
      intro q proc' r hq
      by_cases hqp : q = p
      · obtain ⟨-, hr, -⟩ := liveRole_iff.mp hq
        subst hqp
        obtain rfl := Option.some.inj (hrole.symm.trans hr)
        exact hok proc'
      · rw [liveRole_of_dir (by rw [hstep]; exact hframe q hqp)] at hq
        exact hs.role q proc' r hq
    kept := hs.kept
    granted := hs.granted }

theorem Sound.exit (hs : s.Sound) (p : Nat) : (s.exit group p).Sound := by
  cases hp : s.dir.processes[p]? with
  | none =>
    have hsame : s.exit group p = s := by simp [RemoteRoot.exit, DataDir.step, hp]
    rw [hsame]
    exact hs
  | some proc =>
    by_cases ha : proc.alive = true
    · have hstep := DataDir.step_eq_stepOf group hp ha (a := .exit p) rfl
      obtain ⟨hlength, hframe⟩ := DataDir.stepOf_frame s.dir p proc group (.exit p)
      exact {
        locked := hs.locked.step (.exit p) trivial
        length := by
          show s.roles.length = (s.dir.step group (.exit p)).processes.length
          rw [hstep, hlength]
          exact hs.length
        role := by
          intro q proc' r hq
          by_cases hqp : q = p
          · -- the process is no longer live
            obtain ⟨hproc, -, ha'⟩ := liveRole_iff.mp hq
            subst hqp
            have hdead : (s.dir.step group (.exit q)).processes[q]?
                = some { proc with alive := false } := by
              rw [hstep]
              exact List.getElem?_set_self (List.getElem?_eq_some_iff.mp hp).1
            obtain rfl := Option.some.inj (hdead.symm.trans hproc)
            cases ha'
          · rw [RemoteRoot.exit, liveRole_of_dir (by rw [hstep]; exact hframe q hqp)] at hq
            exact hs.role q proc' r hq
        kept := hs.kept
        granted := hs.granted }
    · have hsame : s.exit group p = s := by simp [RemoteRoot.exit, DataDir.step, hp, ha]
      rw [hsame]
      exact hs

theorem Sound.start (hs : s.Sound) (pid : Int) (serverId : String)
    (hok : ∀ proc, role.Ok proc) : (s.start group pid serverId role).Sound := by
  rw [RemoteRoot.start]
  split
  · next hpid =>
    have hprocs : (s.dir.step group (.start pid serverId)).processes
        = s.dir.processes ++ [({ pid, serverId } : LockProcess)] := by
      rw [DataDir.step, if_pos hpid]
    exact {
      locked := show (s.dir.step group (.start pid serverId)).Locked from
        hs.locked.start pid serverId
      length := by simp [hprocs, hs.length]
      role := by
        intro q proc r hq
        obtain ⟨hproc, hrole, ha⟩ := liveRole_iff.mp hq
        rw [hprocs] at hproc
        rcases Nat.lt_or_ge q s.roles.length with hlt | hge
        · rw [List.getElem?_append_left (hs.length ▸ hlt)] at hproc
          rw [List.getElem?_append_left hlt] at hrole
          exact hs.role q proc r (liveRole_iff.mpr ⟨hproc, hrole, ha⟩)
        · rw [List.getElem?_append_right hge] at hrole
          obtain rfl := List.mem_singleton.mp (List.mem_of_getElem? hrole)
          exact hok proc
      kept := hs.kept
      granted := hs.granted }
  · exact hs

theorem Sound.unlinkSocket (hs : s.Sound) (ok : Bool) : (s.unlinkSocket ok).Sound := by
  cases ok
  · exact hs
  · exact ⟨hs.locked, hs.length, hs.role, hs.kept, hs.granted⟩

/-- A role that takes steps of the lock says nothing of it. -/
theorem ok_of_mayLock {a : LockAction} (hmay : role.mayLock a = true) (hok : role.Ok proc)
    (proc' : LockProcess) : role.Ok proc' := by
  cases role with
  | proxy pc spawned => exact hok
  | runtime pc parent =>
    refine ⟨hok.1, ?_⟩
    rintro (rfl | rfl | rfl) <;> cases a <;> cases hmay
  | other => exact hok

theorem Sound.lockStep (hs : s.Sound) (h : s.liveRole p = some (proc, role)) {a : LockAction}
    (ha : a.process = some p) (hmay : role.mayLock a = true)
    (hkeeps : s.dir.Keeps group a) : (s.lockStep group p proc role a).Sound := by
  obtain ⟨hproc, hrole, halive⟩ := liveRole_iff.mp h
  have hok := ok_of_mayLock hmay (hs.role p proc role h)
  have hafter := hs.lock h ha hkeeps hok
  have hstep := DataDir.step_eq_stepOf group hproc halive ha
  unfold RemoteRoot.lockStep
  split
  · next r existing hpc =>
    split
    · exact hafter.setRole fun _ _ _ => hok proc
    · next parent _ =>
      have hgranted : (s.refused || (parent.isSome && !s.held)) = false := by
        rw [hs.granted, (hok proc).1]
        rfl
      refine Sound.exit ?_ p
      exact ⟨hafter.locked, hafter.length, hafter.role, hafter.kept, hgranted⟩
    · exact hafter
  · next r ok hpc =>
    obtain rfl : r = p := Option.some.inj ha
    split
    · exact hafter.setRole fun _ _ _ => hok proc
    · next pc parent =>
      refine hafter.setRole fun proc' old hlive => ⟨(hok proc).1, fun _ => ?_⟩
      obtain ⟨hproc', -, -⟩ := liveRole_iff.mp hlive
      rw [hstep, DataDir.getElem?_stepOf_write hproc hpc] at hproc'
      obtain rfl := Option.some.inj hproc'
      simpa [LockProcess.holds] using halive
    · exact hafter
  · exact hafter

/-- The owner's start finds nobody on the socket but itself. -/
theorem Sound.accepting_eq (hs : s.Sound) (hp : s.owns p = true) (hq : s.accepting = some q) :
    q = p := hs.owner (hs.same (accepting_listens hq)) hp

theorem Sound.stepOf (hs : s.Sound) (h : s.liveRole p = some (proc, role)) {a : RootAction}
    (ha : a.process = some p) (hkeeps : s.Keeps group a) :
    (s.stepOf group p proc role a).Sound := by
  have hok := hs.role p proc role h
  -- a runtime that has the lock still has it where it goes on
  have hsame : ∀ proc' old, s.liveRole p = some (proc', old) → proc' = proc := by
    intro proc' old h'
    exact (Prod.mk.inj (Option.some.inj (h'.symm.trans h))).1
  unfold RemoteRoot.stepOf
  split
  case h_1 | h_2 | h_3 =>
    split
    · exact hs.setRole fun _ _ _ => hok
    · first
        | exact hs
        | exact hs.setRole fun _ _ _ => hok
  case h_4 | h_5 => exact hs.setRole fun _ _ _ => hok
  case h_6 =>
    split
    · exact hs.setRole fun _ _ _ => hok
    · refine Sound.setRole ?_ fun _ _ _ => hok
      split
      · exact hs.unlinkSocket _
      · exact hs
  case h_7 spawned r pid serverId ok =>
    split
    · next hgo =>
      obtain rfl : r = p := Option.some.inj ha
      exact absurd h (hkeeps hgo.1 proc spawned)
    · exact hs.setRole fun _ _ _ => hok
  case h_8 parent r ok =>
    have hholds : proc.holds = true := hok.2 (.inl rfl)
    have howns : s.owns p = true := owns_iff.mpr ⟨proc, _, _, h, hholds⟩
    have hcut : (s.cutOff || (match s.accepting with
        | some q => ok && q != p
        | none => false)) = false := by
      rw [hs.kept]
      cases hq : s.accepting with
      | none => rfl
      | some q => simp [hs.accepting_eq howns hq]
    have hunlinked := hs.unlinkSocket ok
    refine Sound.setRole ?_ fun proc' old h' => ⟨hok.1, fun _ => ?_⟩
    · exact ⟨hunlinked.locked, hunlinked.length, hunlinked.role, hcut, hunlinked.granted⟩
    · have hlive : s.liveRole p = some (proc', old) := by
        cases ok <;> exact h'
      exact hsame proc' old hlive ▸ hholds
  case h_9 parent r =>
    have hholds : proc.holds = true := hok.2 (.inr (.inl rfl))
    split
    · refine Sound.setRole ?_ fun proc' old h' => ⟨hok.1, fun _ => ?_⟩
      · exact ⟨hs.locked, hs.length, hs.role, hs.kept, hs.granted⟩
      · exact hsame proc' old h' ▸ hholds
    · exact hs.exit p
  case h_10 => exact hs.setRole fun _ _ _ => ⟨hok.1, by simp⟩
  case h_11 a =>
    split
    · next hmay => exact hs.lockStep h ha hmay hkeeps
    · exact hs
  case h_12 => exact hs.exit p
  case h_13 => exact hs

/-- One step of the system. -/
theorem Sound.step (hs : s.Sound) (a : RootAction) (hkeeps : s.Keeps group a) :
    (s.step group a).Sound := by
  have hof : ∀ a : RootAction, s.Keeps group a → (match a.process with
      | none => s
      | some p =>
        match s.liveRole p with
        | none => s
        | some (proc, role) => s.stepOf group p proc role a).Sound := by
    intro a hkeeps
    split
    · exact hs
    · next p ha =>
      split
      · exact hs
      · next proc role h => exact hs.stepOf h ha hkeeps
  cases a with
  | start pid serverId kind =>
    refine hs.start pid serverId ?_
    intro proc
    cases kind with
    | proxy => rfl
    | runtime => exact ⟨rfl, by simp⟩
    | other => trivial
  | exit p => exact hof (.exit p) hkeeps
  | connect p => exact hof (.connect p) hkeeps
  | readPid p ok => exact hof (.readPid p ok) hkeeps
  | decidePid p ok => exact hof (.decidePid p ok) hkeeps
  | lock a => exact hof (.lock a) hkeeps
  | spawn p pid serverId ok => exact hof (.spawn p pid serverId ok) hkeeps
  | timeout p => exact hof (.timeout p) hkeeps
  | unlink p ok => exact hof (.unlink p ok) hkeeps
  | bind p => exact hof (.bind p) hkeeps
  | idle p => exact hof (.idle p) hkeeps

end Sound

/-! ### Runs -/

section Runs

variable (group : Int → Bool)

theorem sound_boot (lockFile serverPid : Option LockText) (stale : Bool) :
    (boot lockFile serverPid stale).Sound where
  locked := DataDir.locked_boot lockFile
  length := rfl
  role := by
    intro p proc role h
    obtain ⟨hproc, -, -⟩ := liveRole_iff.mp h
    cases hproc
  kept := rfl
  granted := rfl

end Runs

/-- A runtime takes the root and serves it, with nobody in between. -/
def serves (p : Nat) : List RootAction :=
  (DataDir.acquires p).map .lock ++ [.unlink p true, .bind p]

/-- A runtime that was started by hand, over a socket an earlier one left, and a proxy that
finds it. -/
def reuses : List RootAction :=
  [.start 7 "s" .runtime] ++ serves 0 ++ [.start 8 "s" .proxy, .connect 1]

section Spawns

variable {s : RemoteRoot} {p c : Nat} {parent proc : LockProcess} {group : Int → Bool}

/-- Where a proxy has the lock, no runtime has it. -/
theorem held_eq_false (hl : s.dir.Locked) {pc : ProxyStep} {spawned : Option Nat}
    (hp : s.liveRole p = some (parent, .proxy pc spawned)) (hholds : parent.holds = true) :
    s.held = false := by
  rw [held, List.any_eq_false]
  intro q _ hq
  obtain ⟨other, pc', parent', hlive, hother⟩ := owns_iff.mp hq
  obtain rfl := hl.exclusive.one q p ⟨other, (liveRole_iff.mp hlive).1, hother⟩
    ⟨parent, (liveRole_iff.mp hp).1, hholds⟩
  cases hp.symm.trans hlive

/-- A process that exits is no longer live. -/
theorem liveRole_exit : (s.exit group c).liveRole c = none := by
  by_contra hsome
  obtain ⟨⟨after, role⟩, h⟩ := Option.ne_none_iff_exists'.mp hsome
  obtain ⟨hafter, -, halive⟩ := liveRole_iff.mp h
  rw [exit, DataDir.step] at hafter
  cases hproc : s.dir.processes[c]? with
  | none => simp [hproc] at hafter
  | some old =>
    obtain ⟨hlt, -⟩ := List.getElem?_eq_some_iff.mp hproc
    by_cases ha : old.alive = true
    · simp only [hproc, ha, if_true, DataDir.stepOf, DataDir.setProcess,
        List.getElem?_set_self hlt, Option.some.injEq] at hafter
      rw [← hafter] at halive
      cases halive
    · simp only [hproc, if_neg ha, Option.some.injEq] at hafter
      exact ha (hafter ▸ halive)

/-- **A runtime that reads the lock while the proxy that spawned it has it is refused, and
exits.** -/
theorem spawned_refused (hl : s.dir.Locked) {pc : ProxyStep} {spawned : Option Nat}
    (hp : s.liveRole p = some (parent, .proxy pc spawned)) (hholds : parent.holds = true)
    (hc : s.liveRole c = some (proc, .runtime .acquire (some p)))
    (hpc : proc.pc = .decide s.dir.existing) :
    (s.step group (.lock (.decide c))).refused = true ∧
      (s.step group (.lock (.decide c))).liveRole c = none := by
  obtain ⟨hproc, hrole, halive⟩ := liveRole_iff.mp hp
  obtain ⟨hproc', hrole', halive'⟩ := liveRole_iff.mp hc
  have hne : p ≠ c := by
    rintro rfl
    cases hp.symm.trans hc
  -- the file names the parent, which is alive under another pid
  obtain ⟨info, hex, hinfo⟩ := Option.map_eq_some_iff.mp (hl.named p parent hproc hholds)
  have hpid : parent.pid ≠ proc.pid := fun heq =>
    hne (hl.distinct p c parent proc hproc hproc' halive halive' heq)
  have hlive : s.dir.decision group s.dir.existing proc.pid = .live := by
    rw [hex]
    exact DataDir.decision_live (hl.pids p parent hproc) hproc halive hinfo hpid
  have hheld := held_eq_false hl hp hholds
  have hstep : s.step group (.lock (.decide c)) = s.lockStep group c proc
      (.runtime .acquire (some p)) (.decide c) := by
    simp [step, RootAction.process, LockAction.process, hc, stepOf, Role.mayLock]
  have hrefuse : s.lockStep group c proc (.runtime .acquire (some p)) (.decide c)
      = ({ s with
          dir := s.dir.step group (.decide c)
          refused := true } : RemoteRoot).exit group c := by
    simp [lockStep, hpc, hlive, hheld]
  rw [hstep, hrefuse]
  exact ⟨rfl, liveRole_exit⟩

end Spawns

/-- The first proxy on an empty root takes the lock and spawns a runtime. -/
def bootstraps : List RootAction :=
  [.start 7 "s" .proxy, .connect 0, .readPid 0 true, .decidePid 0 true] ++
    (DataDir.acquires 0).map .lock ++ [.spawn 0 8 "s" true]

/-- The runtime finds the lock taken by its parent. -/
def bootstrapRefused : List RootAction :=
  bootstraps ++ [.lock (.acquire 1 true), .lock (.decide 1)]

end RemoteRoot
end Pantoken
