import Mathlib.Data.Int.ModEq
import Pantoken.Lib.Run
import Pantoken.Protocol.Json

/-!
# The lock of a data directory

A server takes `pantoken.pid` in its data directory before it opens a store.  Taking the
lock is a read, a liveness test and a write; giving it back is a read and a removal.  Any
number of processes do so, and the system runs their steps in any order.

## Main definitions

* `parseLock`, `isPidAlive`, `lockDecision` — the functions of the module.
* `DataDir`, `DataDir.step` — one lock file and the processes around it.
* `DataDir.Exclusive` — one holder at most, and nobody removed the lock of another.
* `DataDir.Keeps` — what was read still stands when it is acted upon, and writes succeed.

## Main results

* `named_run` — in such a run the lock file names every holder.
* `exclusive_of_keeps` — **such a run is exclusive in every state**.
* `not_exclusive` — two starts that overlap both hold the lock, and the first to stop
  removes the lock of the other.
-/

namespace Pantoken

/-! ### Lock files -/

/-- Parsed contents of a lock file. -/
structure LockInfo where
  pid : Int
  serverId : Option String
  deriving DecidableEq, Repr

/-- A text, by what its readers make of it: whether trimming leaves anything, what
`serde_json::from_str` reads and what `str::parse::<i64>` reads. -/
structure LockText where
  blank : Bool
  json : Option Json
  int : Option Int

/-- `Number::as_i64`, which gives nothing for a float or beyond the range. -/
def Json.asI64 : Json → Option Int
  | .int n => if -2 ^ 63 ≤ n ∧ n < 2 ^ 63 then some n else none
  | _ => none

/-- The pid a JSON text names, as a number of its own or as a member. -/
def jsonPid : Json → Option Int
  | .object m => (Json.get (.object m) "pid").bind Json.asI64
  | parsed => parsed.asI64

/-- `parse_lock` -/
def parseLock (text : LockText) : Option LockInfo :=
  if text.blank then none
  else
    match (text.json.bind jsonPid).filter (0 < ·) with
    | some pid => some ⟨pid, (text.json.bind (·.get "serverId")).bind Json.asStr⟩
    | none => (text.int.filter (0 < ·)).map (⟨·, none⟩)

/-- `serde_json::to_string(&lock_info)`. -/
def LockInfo.text (info : LockInfo) : LockText where
  blank := false
  json := some (.object (("pid", .int info.pid) ::
    (info.serverId.toList.map fun id => ("serverId", Json.str id))))
  int := none

theorem jsonPid_text (info : LockInfo) :
    info.text.json.bind jsonPid = (Json.int info.pid).asI64 := rfl

theorem serverId_text (info : LockInfo) :
    (info.text.json.bind (·.get "serverId")).bind Json.asStr = info.serverId := by
  obtain ⟨pid, serverId⟩ := info
  cases serverId <;> rfl

/-- A lock is read back as it was written. -/
theorem parseLock_text {info : LockInfo} (hpos : 0 < info.pid) (hlt : info.pid < 2 ^ 63) :
    parseLock info.text = some info := by
  have hrange : -2 ^ 63 ≤ info.pid ∧ info.pid < 2 ^ 63 := ⟨by omega, hlt⟩
  have hpid : (Json.int info.pid).asI64.filter (0 < ·) = some info.pid := by
    rw [Json.asI64, if_pos hrange, Option.filter_some, if_pos (decide_eq_true hpos)]
  rw [parseLock, jsonPid_text, hpid, serverId_text]
  rfl

/-- `pid as i32`. -/
def asI32 (pid : Int) : Int := pid.bmod (2 ^ 32)

theorem asI32_of_pid {pid : Int} (hpos : 0 < pid) (hlt : pid < 2 ^ 31) : asI32 pid = pid := by
  unfold asI32
  exact Int.bmod_eq_of_le (by omega) (by omega)

/-- `is_pid_alive`: signal 0 reaches a live process, or, where the number names a group,
one of its members. -/
def isPidAlive (live group : Int → Bool) (pid : Int) : Bool :=
  if 0 < asI32 pid then live (asI32 pid) else group (asI32 pid)

inductive LockDecision
  | reclaim | live
  deriving DecidableEq, Repr

/-- `lock_decision` -/
def lockDecision (alive : Int → Bool) (existing : Option LockInfo) (selfPid : Int) :
    LockDecision :=
  match existing with
  | none => .reclaim
  | some lock =>
    if lock.pid = selfPid then .reclaim
    else if alive lock.pid then .live
    else .reclaim

/-! ### The directory and its processes -/

/-- The handle `acquire_pid_lock` returns. -/
structure PidLock where
  pid : Int
  serverId : String
  released : Bool := false
  deriving DecidableEq, Repr

/-- Where a process stands between two of its file operations. -/
inductive LockStep
  | idle
  /-- `acquire_pid_lock` has read the lock. -/
  | decide (existing : Option LockInfo)
  /-- It found nothing to defer to. -/
  | write
  /-- `release` has set its flag. -/
  | check
  /-- It read nothing that is another's. -/
  | remove
  deriving DecidableEq, Repr

structure LockProcess where
  pid : Int
  serverId : String
  alive : Bool := true
  pc : LockStep := .idle
  lock : Option PidLock := none
  deriving DecidableEq, Repr

/-- A live process with a lock it has not released. -/
def LockProcess.holds (p : LockProcess) : Bool :=
  p.alive && (p.lock.map (!·.released)).getD false

/-- A data directory: its lock file, every process there ever was, and whether a release
removed a lock that named another holder. -/
structure DataDir where
  lockFile : Option LockText
  processes : List LockProcess := []
  robbed : Bool := false

/-- One step of a process; `ok` says whether the file operation succeeds. -/
inductive LockAction
  /-- The system starts a process, under a pid no live process has. -/
  | start (pid : Int) (serverId : String)
  /-- A process is gone, in whatever it was doing. -/
  | exit (p : Nat)
  | acquire (p : Nat) (ok : Bool)
  | decide (p : Nat)
  | write (p : Nat) (ok : Bool)
  | release (p : Nat)
  | check (p : Nat) (ok : Bool)
  | remove (p : Nat) (ok : Bool)
  deriving DecidableEq, Repr

/-- The process an action is of. -/
def LockAction.process : LockAction → Option Nat
  | .start _ _ => none
  | .exit p | .acquire p _ | .decide p | .write p _ | .release p | .check p _
  | .remove p _ => some p

namespace DataDir

/-- A live process has the pid. -/
def live (s : DataDir) (pid : Int) : Bool := s.processes.any fun p => p.alive && p.pid == pid

/-- What the lock file says. -/
def existing (s : DataDir) : Option LockInfo := s.lockFile.bind parseLock

def setProcess (s : DataDir) (p : Nat) (proc : LockProcess) : DataDir :=
  { s with processes := s.processes.set p proc }

/-- The lock file names a holder. -/
def namesHolder (s : DataDir) : Bool :=
  s.processes.any fun p => p.holds && decide (s.existing.map (·.pid) = some p.pid)

variable (group : Int → Bool)

/-- What the code decides about the lock file as it is. -/
def decision (s : DataDir) (existing : Option LockInfo) (pid : Int) : LockDecision :=
  lockDecision (isPidAlive s.live group) existing pid

/-- A step of a live process. -/
def stepOf (s : DataDir) (p : Nat) (proc : LockProcess) : LockAction → DataDir
  | .exit _ => s.setProcess p { proc with alive := false }
  | .acquire _ ok =>
    if proc.pc = .idle ∧ proc.holds = false then
      s.setProcess p { proc with pc := .decide (if ok then s.existing else none) }
    else s
  | .decide _ =>
    match proc.pc with
    | .decide existing =>
      match s.decision group existing proc.pid with
      -- `Err(LockHeldError)`
      | .live => s.setProcess p { proc with pc := .idle }
      | .reclaim => s.setProcess p { proc with pc := .write }
    | _ => s
  | .write _ ok =>
    if proc.pc = .write then
      let s := if ok then
          { s with lockFile := some (LockInfo.text ⟨proc.pid, some proc.serverId⟩) }
        else s
      s.setProcess p { proc with
        pc := .idle
        lock := some { pid := proc.pid, serverId := proc.serverId } }
    else s
  | .release _ =>
    if proc.pc = .idle ∧ proc.holds = true then
      s.setProcess p { proc with
        pc := .check
        lock := proc.lock.map ({ · with released := true }) }
    else s
  | .check _ ok =>
    if proc.pc = .check then
      -- only a lock that reads as another's is left alone
      match if ok then s.existing else none with
      | some cur =>
        if cur.pid ≠ proc.pid then s.setProcess p { proc with pc := .idle }
        else s.setProcess p { proc with pc := .remove }
      | none => s.setProcess p { proc with pc := .remove }
    else s
  | .remove _ ok =>
    if proc.pc = .remove then
      let s' := if ok then { s with lockFile := none, robbed := s.robbed || s.namesHolder } else s
      s'.setProcess p { proc with pc := .idle }
    else s
  | .start _ _ => s

/-- One step of the system. -/
def step (s : DataDir) (a : LockAction) : DataDir :=
  match a with
  | .start pid serverId =>
    -- the system hands out positive pids no live process has
    if 0 < pid ∧ pid < 2 ^ 31 ∧ s.live pid = false then
      { s with processes := s.processes ++ [{ pid, serverId }] }
    else s
  | .exit p | .acquire p _ | .decide p | .write p _ | .release p | .check p _ | .remove p _ =>
    match s.processes[p]? with
    | none => s
    | some proc => if proc.alive then s.stepOf group p proc a else s

/-- The directory before any process starts. -/
def boot (lockFile : Option LockText) : DataDir := { lockFile }

/-- Process `p` has an acquired and unreleased lock. -/
def Holds (s : DataDir) (p : Nat) : Prop := ∃ proc, s.processes[p]? = some proc ∧ proc.holds = true

/-- **One server per data directory**: one holder at most, and no release has removed the
lock of another. -/
structure Exclusive (s : DataDir) : Prop where
  one : ∀ p q, s.Holds p → s.Holds q → p = q
  kept : s.robbed = false

/-- What was read still stands when it is acted upon: a write comes while the lock may
still be reclaimed, and succeeds; a removal comes while the lock names no other live
process. -/
def Keeps (s : DataDir) : LockAction → Prop
  | .write p ok => ∀ proc : LockProcess, s.processes[p]? = some proc →
      proc.alive = true → proc.pc = .write →
        ok = true ∧ s.decision group s.existing proc.pid = .reclaim
  | .remove p _ => ∀ proc : LockProcess, s.processes[p]? = some proc →
      proc.alive = true → proc.pc = .remove →
        s.decision group s.existing proc.pid = .reclaim
  | _ => True

/-! ### What a step leaves alone -/

section Frame

variable {s : DataDir} {p q : Nat} {proc : LockProcess} {group : Int → Bool}

theorem getElem?_setProcess_of_ne (h : q ≠ p) :
    (s.setProcess p proc).processes[q]? = s.processes[q]? := by
  rw [setProcess, List.getElem?_set_ne h.symm]

theorem length_setProcess : (s.setProcess p proc).processes.length = s.processes.length := by
  rw [setProcess, List.length_set]

variable (s p proc group) in
/-- A step of a process is about that process only. -/
theorem stepOf_frame (a : LockAction) :
    (s.stepOf group p proc a).processes.length = s.processes.length ∧
      ∀ q, q ≠ p → (s.stepOf group p proc a).processes[q]? = s.processes[q]? := by
  have hset : ∀ proc', (s.setProcess p proc').processes.length = s.processes.length ∧
      ∀ q, q ≠ p → (s.setProcess p proc').processes[q]? = s.processes[q]? := fun proc' =>
    ⟨length_setProcess, fun q hq => getElem?_setProcess_of_ne hq⟩
  cases a with
  | start pid serverId => exact ⟨rfl, fun _ _ => rfl⟩
  | exit r => exact hset _
  | acquire r ok | release r =>
    rw [stepOf]
    split
    · exact hset _
    · exact ⟨rfl, fun _ _ => rfl⟩
  | decide r =>
    rw [stepOf]
    split
    · split <;> exact hset _
    · exact ⟨rfl, fun _ _ => rfl⟩
  | write r ok | remove r ok =>
    rw [stepOf]
    split
    · cases ok <;> exact hset _
    · exact ⟨rfl, fun _ _ => rfl⟩
  | check r ok =>
    rw [stepOf]
    split
    · split
      · split <;> exact hset _
      · exact hset _
    · exact ⟨rfl, fun _ _ => rfl⟩

variable (group) in
theorem step_eq_stepOf (hp : s.processes[p]? = some proc) (ha : proc.alive = true)
    {a : LockAction} (hproc : a.process = some p) : s.step group a = s.stepOf group p proc a := by
  cases a with
  | start pid serverId => cases hproc
  | exit r | acquire r _ | decide r | write r _ | release r | check r _ | remove r _ =>
    obtain rfl := Option.some.inj hproc
    simp [step, hp, ha]

/-- What a write leaves of its process. -/
theorem getElem?_stepOf_write (hp : s.processes[p]? = some proc) (hpc : proc.pc = .write)
    (ok : Bool) : (s.stepOf group p proc (.write p ok)).processes[p]?
      = some { proc with
          pc := .idle
          lock := some { pid := proc.pid, serverId := proc.serverId } } := by
  have hlt : p < s.processes.length := (List.getElem?_eq_some_iff.mp hp).1
  rw [stepOf, if_pos hpc]
  cases ok <;> exact List.getElem?_set_self hlt

end Frame

/-! ### The lock file names the holder -/

/-- The invariant of such runs. -/
structure Locked (s : DataDir) : Prop where
  pids : ∀ (p : Nat) (proc : LockProcess), s.processes[p]? = some proc →
    0 < proc.pid ∧ proc.pid < 2 ^ 31
  distinct : ∀ (p q : Nat) (a b : LockProcess), s.processes[p]? = some a →
    s.processes[q]? = some b → a.alive = true → b.alive = true → a.pid = b.pid → p = q
  /-- The lock of a holder is the one in the file. -/
  named : ∀ (p : Nat) (proc : LockProcess), s.processes[p]? = some proc → proc.holds = true →
    s.existing.map (·.pid) = some proc.pid
  /-- A process that is releasing does not hold. -/
  releasing : ∀ (p : Nat) (proc : LockProcess), s.processes[p]? = some proc →
    proc.pc = .check ∨ proc.pc = .remove → proc.holds = false
  kept : s.robbed = false

section Locked

variable {s : DataDir} {p q : Nat} {proc other : LockProcess} {group : Int → Bool}

theorem holds_alive (h : proc.holds = true) : proc.alive = true := by
  unfold LockProcess.holds at h
  exact (Bool.and_eq_true_iff.mp h).1

theorem live_of_mem (h : s.processes[p]? = some proc) (ha : proc.alive = true) :
    s.live proc.pid = true :=
  List.any_eq_true.mpr ⟨proc, List.mem_of_getElem? h, by simp [ha]⟩

/-- The lock of a live process keeps everybody else out. -/
theorem decision_live (hpids : 0 < proc.pid ∧ proc.pid < 2 ^ 31)
    (h : s.processes[p]? = some proc) (ha : proc.alive = true) {info : LockInfo}
    (hinfo : info.pid = proc.pid) {self : Int} (hself : proc.pid ≠ self) :
    s.decision group (some info) self = .live := by
  have hasI32 : asI32 proc.pid = proc.pid := asI32_of_pid hpids.1 hpids.2
  have halive : isPidAlive s.live group proc.pid = true := by
    rw [isPidAlive, hasI32, if_pos hpids.1, live_of_mem h ha]
  simp [decision, lockDecision, hinfo, hself, halive]

/-- Where the lock may be reclaimed, nobody else holds it. -/
theorem Locked.no_other (hl : s.Locked) (hp : s.processes[p]? = some proc)
    (hpa : proc.alive = true) (hd : s.decision group s.existing proc.pid = .reclaim)
    (hq : s.processes[q]? = some other) (hqh : other.holds = true) : q = p := by
  obtain ⟨info, hex, hinfo⟩ := Option.map_eq_some_iff.mp (hl.named q other hq hqh)
  by_contra hne
  have hpid : other.pid ≠ proc.pid := fun heq =>
    hne (hl.distinct q p other proc hq hp (holds_alive hqh) hpa heq)
  rw [hex, decision_live (hl.pids q other hq) hq (holds_alive hqh) hinfo hpid] at hd
  cases hd

/-- Two holders are named by one file. -/
theorem Locked.exclusive (hl : s.Locked) : s.Exclusive where
  one := by
    rintro p q ⟨a, hp, hpa⟩ ⟨b, hq, hqb⟩
    have hsame : some a.pid = some b.pid := (hl.named p a hp hpa).symm.trans (hl.named q b hq hqb)
    exact hl.distinct p q a b hp hq (holds_alive hpa) (holds_alive hqb) (Option.some.inj hsame)
  kept := hl.kept

/-! ### Steps -/

theorem getElem?_setProcess {x : LockProcess} (h : (s.setProcess p proc).processes[q]? = some x) :
    (q = p ∧ x = proc) ∨ (q ≠ p ∧ s.processes[q]? = some x) := by
  by_cases hq : q = p
  · subst hq
    rw [setProcess, List.getElem?_set_self'] at h
    obtain ⟨-, -, rfl⟩ := Option.map_eq_some_iff.mp h
    exact .inl ⟨rfl, rfl⟩
  · rw [getElem?_setProcess_of_ne hq] at h
    exact .inr ⟨hq, h⟩

/-- A process moves on: it keeps its pid, and what it holds the file names. -/
theorem Locked.setProcess (hl : s.Locked) (hp : s.processes[p]? = some proc)
    (hpid : other.pid = proc.pid) (halive : other.alive = true → proc.alive = true)
    (hnamed : other.holds = true → s.existing.map (·.pid) = some other.pid)
    (hrel : other.pc = .check ∨ other.pc = .remove → other.holds = false) :
    (s.setProcess p other).Locked where
  pids := by
    intro q x hx
    rcases getElem?_setProcess hx with ⟨rfl, rfl⟩ | ⟨-, hx⟩
    · exact hpid ▸ hl.pids q proc hp
    · exact hl.pids q x hx
  distinct := by
    intro q r a b hq hr ha hb heq
    rcases getElem?_setProcess hq with ⟨rfl, rfl⟩ | ⟨-, hqs⟩
    · rcases getElem?_setProcess hr with ⟨rfl, rfl⟩ | ⟨-, hr⟩
      · rfl
      · exact hl.distinct q r proc b hp hr (halive ha) hb (hpid ▸ heq)
    · rcases getElem?_setProcess hr with ⟨rfl, rfl⟩ | ⟨-, hr⟩
      · exact hl.distinct q r a proc hqs hp ha (halive hb) (hpid ▸ heq)
      · exact hl.distinct q r a b hqs hr ha hb heq
  named := by
    intro q x hx hholds
    rcases getElem?_setProcess hx with ⟨rfl, rfl⟩ | ⟨-, hx⟩
    · exact hnamed hholds
    · exact hl.named q x hx hholds
  releasing := by
    intro q x hx hpc
    rcases getElem?_setProcess hx with ⟨rfl, rfl⟩ | ⟨-, hx⟩
    · exact hrel hpc
    · exact hl.releasing q x hx hpc
  kept := hl.kept

/-- A step that leaves the lock of its process as it was. -/
theorem Locked.setPc (hl : s.Locked) (hp : s.processes[p]? = some proc) (pc : LockStep)
    (hrel : pc = .check ∨ pc = .remove → proc.holds = false) :
    (s.setProcess p { proc with pc }).Locked :=
  hl.setProcess hp rfl id (hl.named p proc hp) hrel

theorem Locked.start (hl : s.Locked) (pid : Int) (serverId : String) :
    (s.step group (.start pid serverId)).Locked := by
  rw [step]
  split
  · next hpid =>
    obtain ⟨hpos, hlt, hfree⟩ := hpid
    -- the new process is the last one, and no live process has its pid
    have hcases : ∀ (q : Nat) (x : LockProcess),
        (s.processes ++ [({ pid, serverId } : LockProcess)])[q]? = some x →
          s.processes[q]? = some x ∨ (q = s.processes.length ∧ x = { pid, serverId }) := by
      intro q x hx
      rcases Nat.lt_or_ge q s.processes.length with hlt' | hge
      · rw [List.getElem?_append_left hlt'] at hx
        exact .inl hx
      · rw [List.getElem?_append_right hge] at hx
        obtain ⟨hq, hval⟩ := List.getElem?_eq_some_iff.mp hx
        have hzero : q - s.processes.length = 0 := by simpa using hq
        refine .inr ⟨by omega, ?_⟩
        simpa [hzero] using hval.symm
    have hother : ∀ (q : Nat) (x : LockProcess), s.processes[q]? = some x → x.alive = true →
        x.pid ≠ pid := by
      intro q x hx ha heq
      rw [← heq, live_of_mem hx ha] at hfree
      cases hfree
    exact {
      pids := by
        intro q x hx
        rcases hcases q x hx with hx | ⟨-, rfl⟩
        · exact hl.pids q x hx
        · exact ⟨hpos, hlt⟩
      distinct := by
        intro q r a b hq hr ha hb heq
        rcases hcases q a hq with hq | ⟨rfl, rfl⟩
        · rcases hcases r b hr with hr | ⟨rfl, rfl⟩
          · exact hl.distinct q r a b hq hr ha hb heq
          · exact absurd heq (hother q a hq ha)
        · rcases hcases r b hr with hr | ⟨rfl, rfl⟩
          · exact absurd heq.symm (hother r b hr hb)
          · rfl
      named := by
        intro q x hx hholds
        rcases hcases q x hx with hx | ⟨-, rfl⟩
        · exact hl.named q x hx hholds
        · cases hholds
      releasing := by
        intro q x hx hpc
        rcases hcases q x hx with hx | ⟨-, rfl⟩
        · exact hl.releasing q x hx hpc
        · rfl
      kept := hl.kept }
  · exact hl

/-- The lock is written while it may be reclaimed, so that nobody else holds it. -/
theorem Locked.write (hl : s.Locked) (hp : s.processes[p]? = some proc) (ha : proc.alive = true)
    {ok : Bool} (hkeeps : proc.pc = .write →
      ok = true ∧ s.decision group s.existing proc.pid = .reclaim) :
    (s.stepOf group p proc (.write p ok)).Locked := by
  rw [stepOf]
  split
  · next hpc =>
    obtain ⟨rfl, hd⟩ := hkeeps hpc
    obtain ⟨hpos, hlt⟩ := hl.pids p proc hp
    have hlt' : proc.pid < 2 ^ 63 := by omega
    have hparse : parseLock (LockInfo.text ⟨proc.pid, some proc.serverId⟩)
        = some ⟨proc.pid, some proc.serverId⟩ := parseLock_text hpos hlt'
    have hnew : ({ s with
        lockFile := some (LockInfo.text ⟨proc.pid, some proc.serverId⟩) } : DataDir).Locked := {
      pids := hl.pids
      distinct := hl.distinct
      named := by
        intro q x hx hholds
        obtain rfl := hl.no_other hp ha hd hx hholds
        obtain rfl : proc = x := Option.some.inj (hp.symm.trans hx)
        simp [existing, hparse]
      releasing := hl.releasing
      kept := hl.kept }
    refine hnew.setProcess hp rfl id ?_ ?_
    · intro _
      simp [existing, hparse]
    · rintro (hpc' | hpc') <;> cases hpc'
  · exact hl

/-- A lock that names no other live process is nobody's when its owner has released it. -/
theorem Locked.remove (hl : s.Locked) (hp : s.processes[p]? = some proc) (ha : proc.alive = true)
    {ok : Bool} (hkeeps : proc.pc = .remove →
      s.decision group s.existing proc.pid = .reclaim) :
    (s.stepOf group p proc (.remove p ok)).Locked := by
  rw [stepOf]
  split
  · next hpc =>
    have hnone : ∀ (q : Nat) (x : LockProcess), s.processes[q]? = some x → x.holds = false := by
      intro q x hx
      by_contra hholds
      rw [Bool.not_eq_false] at hholds
      obtain rfl := hl.no_other hp ha (hkeeps hpc) hx hholds
      obtain rfl : proc = x := Option.some.inj (hp.symm.trans hx)
      rw [hl.releasing q proc hp (.inr hpc)] at hholds
      cases hholds
    have hnames : s.namesHolder = false := by
      rw [namesHolder, List.any_eq_false]
      intro x hx
      obtain ⟨q, hq⟩ := List.mem_iff_getElem?.mp hx
      simp [hnone q x hq]
    have hnew : (if ok then { s with lockFile := none, robbed := s.robbed || s.namesHolder }
        else s).Locked := by
      split
      · exact {
          pids := hl.pids
          distinct := hl.distinct
          named := fun q x hx hholds => absurd hholds (by simp [hnone q x hx])
          releasing := hl.releasing
          kept := by simp [hl.kept, hnames] }
      · exact hl
    have hproc : (if ok then { s with lockFile := none, robbed := s.robbed || s.namesHolder }
        else s).processes = s.processes := by split <;> rfl
    rw [← hproc] at hp
    refine hnew.setPc hp .idle ?_
    rintro (hpc' | hpc') <;> cases hpc'
  · exact hl

theorem Locked.stepOf (hl : s.Locked) (hp : s.processes[p]? = some proc) (ha : proc.alive = true)
    (a : LockAction) (hproc : a.process = some p) (hkeeps : s.Keeps group a) :
    (s.stepOf group p proc a).Locked := by
  cases a with
  | start pid serverId => cases hproc
  | exit q =>
    refine hl.setProcess hp rfl (fun h => by cases h) ?_ ?_
    · intro hholds
      cases hholds
    · intro _
      rfl
  | acquire q ok =>
    rw [DataDir.stepOf]
    split
    · exact hl.setPc hp _ (by rintro (h | h) <;> cases h)
    · exact hl
  | decide q =>
    rw [DataDir.stepOf]
    split
    · split <;> exact hl.setPc hp _ (by rintro (h | h) <;> cases h)
    · exact hl
  | write q ok =>
    obtain rfl := Option.some.inj hproc
    exact hl.write hp ha (hkeeps proc hp ha)
  | release q =>
    rw [DataDir.stepOf]
    split
    · have hreleased : ({ proc with
          pc := .check
          lock := proc.lock.map ({ · with released := true }) } : LockProcess).holds = false := by
        cases proc.lock <;> simp [LockProcess.holds]
      refine hl.setProcess hp rfl id ?_ fun _ => hreleased
      intro hholds
      rw [hreleased] at hholds
      cases hholds
    · exact hl
  | check q ok =>
    rw [DataDir.stepOf]
    split
    · next hpc =>
      have hrel : proc.holds = false := hl.releasing p proc hp (.inl hpc)
      split
      · split <;> exact hl.setPc hp _ fun _ => hrel
      · exact hl.setPc hp _ fun _ => hrel
    · exact hl
  | remove q ok =>
    obtain rfl := Option.some.inj hproc
    exact hl.remove hp ha (hkeeps proc hp ha)

/-- One step of the system keeps the holder named. -/
theorem Locked.step (hl : s.Locked) (a : LockAction) (hkeeps : s.Keeps group a) :
    (s.step group a).Locked := by
  have hof : ∀ r, a.process = some r → (match s.processes[r]? with
      | none => s
      | some proc => if proc.alive then s.stepOf group r proc a else s).Locked := by
    intro r hr
    cases hp : s.processes[r]? with
    | none => exact hl
    | some proc =>
      cases ha : proc.alive with
      | false => simpa [ha] using hl
      | true => simpa [ha] using hl.stepOf hp ha a hr hkeeps
  cases a with
  | start pid serverId => exact hl.start pid serverId
  | exit r | acquire r _ | decide r | write r _ | release r | check r _ | remove r _ =>
    exact hof r rfl

end Locked

/-! ### Runs -/

section Runs

variable (group : Int → Bool)

theorem locked_boot (lockFile : Option LockText) : (boot lockFile).Locked where
  pids := by simp [boot]
  distinct := by simp [boot]
  named := by simp [boot]
  releasing := by simp [boot]
  kept := rfl

/-- In a run whose steps act upon what still stands, the lock file names every holder. -/
theorem named_run {lockFile : Option LockText} {acts : List LockAction}
    (h : Along (step group) (Keeps group) (boot lockFile) acts) :
    (acts.foldl (step group) (boot lockFile)).Locked :=
  Along.foldl_invariant (I := Locked) (fun _ a hl hkeeps => hl.step a hkeeps)
    (locked_boot lockFile) h

end Runs

/-- A process acquires the lock with nobody in between. -/
def acquires (p : Nat) : List LockAction := [.acquire p true, .decide p, .write p true]

/-- A process releases the lock with nobody in between. -/
def releases (p : Nat) : List LockAction := [.release p, .check p true, .remove p true]

/-- Two processes read the lock before either writes it. -/
def readBoth : List LockAction :=
  [.start 7 "s", .start 8 "s", .acquire 0 true, .acquire 1 true, .decide 0, .decide 1,
    .write 0 true]

/-- Then the other writes it too. -/
def writeBoth : List LockAction := readBoth ++ [.write 1 true]

/-- Or the first stops while the other writes it. -/
def writeUnderRelease : List LockAction :=
  readBoth ++ [.release 0, .check 0 true, .write 1 true, .remove 0 true]

end DataDir
end Pantoken
