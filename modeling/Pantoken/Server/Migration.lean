import Pantoken.Lib.Relocate
import Pantoken.Lib.Run
import Pantoken.Server.Indices
import Pantoken.Server.PidLock
import Pantoken.Server.Worktrees

/-!
# Moving the legacy data directory

Data used to be kept below the state directory of the user.  A server that starts without
`PANTOKEN_DATA_DIR` renames the old directory to the new one if only the old one exists, and then
takes the lock of its data directory and opens the index of the worktrees there.  Paths in the index
and in the repositories are absolute, and stay as they are.  Servers of other versions, or with a
data directory of their own, start and stop at the same time.

## Main definitions

* `Checkout`, `CleansUp` — a worktree on the disk, and what its removal takes.
* `Tracks` — an index holds a worktree as live, and it can be removed.
* `Disk`, `Launch`, `Machine.step` — the disk, a server from its start to its end, and any number
  of them.
* `Machine.StrandsNothing` — the worktrees of the legacy index are tracked by every index that is
  opened, and no directory is moved whose lock is held.
* `Machine.Accounted` — what becomes of them by design.

## Main results

* `Machine.accounted` — **in every run they are accounted for.**
* `Machine.not_strandsNothing` — runs that strand a worktree, or move a directory that is locked.
-/

namespace Pantoken.Migration

open FileTree (Under Table rebase)

/-! ### Worktrees on the disk -/

/-- A worktree: where its repository and its directory are, and the path that git has recorded. -/
structure Checkout where
  vcs : Vcs
  repo : List Char
  /-- The name of the workspace, of jj. -/
  name : String
  recorded : List Char
  path : List Char
  deriving DecidableEq

namespace Checkout

/-- It is below a directory, or its repository is. -/
def Below (root : List Char) (c : Checkout) : Prop := Under root c.path ∨ Under root c.repo

instance (root : List Char) (c : Checkout) : Decidable (c.Below root) :=
  inferInstanceAs (Decidable (_ ∨ _))

/-- A directory is renamed.  What is recorded stays. -/
def rename (old new : List Char) (c : Checkout) : Checkout :=
  { c with repo := rebase old new c.repo, path := rebase old new c.path }

/-- The removal planned for a record cleans the worktree up: its command finds the worktree, and the
directory that is removed is that of the worktree.  Git refuses another path than it recorded. -/
def CleansUp (c : Checkout) (m : WorktreeMeta) (force : Bool) : Prop :=
  let plan := planWorktreeRemoval m force
  let repo := String.ofList c.repo
  match c.vcs with
  | .jj =>
    plan.command = "jj" ∧ plan.args = ["-R", repo, "workspace", "forget", c.name] ∧
      plan.removeDir = true ∧ m.path = String.ofList c.path
  | .git =>
    plan.command = "git" ∧ plan.args.take 2 = ["-C", repo] ∧
      plan.args.getLast? = some (String.ofList c.path) ∧ c.recorded = c.path

instance (c : Checkout) (m : WorktreeMeta) (force : Bool) : Decidable (c.CleansUp m force) := by
  unfold CleansUp
  cases c.vcs <;> infer_instance

section Rename

variable {old new : List Char} {c : Checkout}

theorem rename_of_not_below (h : ¬ c.Below old) : c.rename old new = c := by
  rw [Below, not_or] at h
  rw [rename, FileTree.rebase_of_not_under h.1, FileTree.rebase_of_not_under h.2]

theorem rename_rename (h : FileTree.Apart old new) (c : Checkout) :
    (c.rename old new).rename old new = c.rename old new := by
  simp only [rename, FileTree.rebase_rebase h]

end Rename

end Checkout

/-- The index holds the worktree as live under its path, and it can be cleaned up. -/
def Tracks (store : WorktreeStore) (c : Checkout) : Prop :=
  ∃ m ∈ store.live (String.ofList c.path), ∀ force, c.CleansUp m force

instance (store : WorktreeStore) (c : Checkout) : Decidable (Tracks store c) :=
  inferInstanceAs (Decidable (∃ m ∈ store.live _, _))

/-! ### The disk -/

/-- What a data directory holds. -/
structure DataFiles where
  /-- The text of `server-id`, trimmed. -/
  serverId : Option String := none
  lockFile : Option LockText := none
  /-- The text of `worktrees.json`, by what is read from it. -/
  worktrees : Option (Option (List PersistedWorktree)) := none
  /-- There is something else. -/
  other : Bool := false

def DataFiles.isEmpty (d : DataFiles) : Bool :=
  d.serverId.isNone && d.lockFile.isNone && d.worktrees.isNone && !d.other

/-- `WorktreeStore::new`, of the file. -/
def loadWorktrees : Option (Option (List PersistedWorktree)) → WorktreeStore
  | some (some arr) => .load arr
  | _ => .empty

structure Disk where
  files : Table DataFiles
  checkouts : List Checkout

/-- The default data directories, of old and of now. -/
structure Dirs where
  legacyDataDir : List Char
  defaultDataDir : List Char

namespace Disk

/-- `exists` -/
def present (d : Disk) (p : List Char) : Bool :=
  d.files.present p || d.checkouts.any fun c => c.Below p

/-- The directory is not there, or there is nothing in it. -/
def Vacant (d : Disk) (p : List Char) : Prop :=
  (∀ e ∈ d.files, Under p e.1 → e.1 = p ∧ e.2.isEmpty = true) ∧ ∀ c ∈ d.checkouts, ¬ c.Below p

instance (d : Disk) (p : List Char) : Decidable (d.Vacant p) := inferInstanceAs (Decidable (_ ∧ _))

/-- The index in a data directory. -/
def worktreesAt (d : Disk) (p : List Char) : Option (Option (List PersistedWorktree)) :=
  (d.files.get? p).bind (·.worktrees)

/-- The data directory has a `server-id`. -/
def Minted (d : Disk) (p : List Char) : Prop := ((d.files.get? p).bind (·.serverId)).isSome

/-- `create_dir_all` -/
def ensure (d : Disk) (p : List Char) : Disk := { d with files := d.files.ensure p {} }

/-- The files of a data directory change. -/
def modify (d : Disk) (p : List Char) (f : DataFiles → DataFiles) : Disk :=
  { d with files := Table.modify d.files p f }

variable (dirs : Dirs)

/-- `rename` can move the legacy directory: it is there, is not moved into itself, and nothing is in
the way. -/
def Renames (d : Disk) : Prop :=
  d.present dirs.legacyDataDir = true ∧ ¬ Under dirs.legacyDataDir dirs.defaultDataDir ∧
    d.Vacant dirs.defaultDataDir

instance (d : Disk) : Decidable (d.Renames dirs) := inferInstanceAs (Decidable (_ ∧ _))

def rename (d : Disk) : Disk where
  files := d.files.rename dirs.legacyDataDir dirs.defaultDataDir
  checkouts := d.checkouts.map (·.rename dirs.legacyDataDir dirs.defaultDataDir)

/-! What a file operation leaves alone -/

/-- Worktrees and indices stay, and nothing is removed that starts look for. -/
structure Kept (d d' : Disk) : Prop where
  checkouts : d'.checkouts = d.checkouts
  worktrees : ∀ p, d'.worktreesAt p = d.worktreesAt p
  minted : ∀ p, d.Minted p → d'.Minted p
  present : ∀ p, d.present p = true → d'.present p = true

section Kept

variable {dirs : Dirs} {d : Disk} {p : List Char}

theorem Kept.refl (d : Disk) : d.Kept d := ⟨rfl, fun _ => rfl, fun _ h => h, fun _ h => h⟩

theorem kept_ensure (d : Disk) (p : List Char) : d.Kept (d.ensure p) := by
  have hget : ∀ {α : Type} (f : DataFiles → Option α), f {} = none → ∀ q,
      (((d.ensure p).files.get? q).bind f) = (d.files.get? q).bind f := by
    intro α f hf q
    rw [ensure, Table.get?_ensure]
    split_ifs with hq
    · subst hq
      cases d.files.get? q with
      | none => exact hf
      | some files => rfl
    · rfl
  refine ⟨rfl, hget _ rfl, fun q h => ?_, fun q h => ?_⟩
  · rw [Minted, hget _ rfl]
    exact h
  · unfold Disk.present at h ⊢
    rw [Bool.or_eq_true] at h ⊢
    refine h.imp_left fun hfiles => ?_
    obtain ⟨e, he, hunder⟩ := Table.present_iff.mp hfiles
    refine Table.present_iff.mpr ⟨e, ?_, hunder⟩
    unfold ensure Table.ensure
    split
    · exact he
    · exact List.mem_append_left _ he

theorem kept_modify (d : Disk) (p : List Char) {f : DataFiles → DataFiles}
    (hworktrees : ∀ files, (f files).worktrees = files.worktrees)
    (hid : ∀ files, files.serverId.isSome → (f files).serverId.isSome) : d.Kept (d.modify p f) := by
  refine ⟨rfl, fun q => ?_, fun q h => ?_, fun q h => ?_⟩
  · rw [worktreesAt, worktreesAt, modify, Table.get?_modify]
    split_ifs with hq
    · subst hq
      cases d.files.get? q with
      | none => rfl
      | some files => exact hworktrees files
    · rfl
  · rw [Minted, modify, Table.get?_modify]
    split_ifs with hq
    · subst hq
      unfold Minted at h
      cases hfiles : d.files.get? q with
      | none => rwa [hfiles] at h
      | some files =>
        rw [hfiles] at h
        exact hid files h
    · exact h
  · unfold Disk.present at h ⊢
    rw [Bool.or_eq_true] at h ⊢
    refine h.imp_left fun hfiles => ?_
    obtain ⟨e, he, hunder⟩ := Table.present_iff.mp hfiles
    refine Table.present_iff.mpr ⟨_, List.mem_map_of_mem he, ?_⟩
    split <;> exact hunder

/-- A directory with an id is not vacant. -/
theorem Vacant.not_minted (h : d.Vacant p) : ¬ d.Minted p := by
  unfold Minted
  cases hfiles : d.files.get? p with
  | none => simp
  | some files =>
    have hempty := (h.1 _ (Table.mem_of_get? hfiles) (.refl p)).2
    simp only [DataFiles.isEmpty, Bool.and_eq_true, Option.isNone_iff_eq_none] at hempty
    simp [hempty.1.1.1]

theorem Vacant.worktreesAt_eq (h : d.Vacant p) : d.worktreesAt p = none := by
  unfold worktreesAt
  cases hfiles : d.files.get? p with
  | none => rfl
  | some files =>
    have hempty := (h.1 _ (Table.mem_of_get? hfiles) (.refl p)).2
    simp only [DataFiles.isEmpty, Bool.and_eq_true, Option.isNone_iff_eq_none] at hempty
    exact hempty.1.2

/-- What is there is not vacant, but for an empty directory. -/
theorem Renames.apart (h : d.Renames dirs) :
    FileTree.Apart dirs.legacyDataDir dirs.defaultDataDir := by
  obtain ⟨hpresent, hinto, hfiles, hcheckouts⟩ := h
  refine ⟨hinto, fun habove => ?_⟩
  unfold Disk.present at hpresent
  rw [Bool.or_eq_true] at hpresent
  rcases hpresent with hpresent | hpresent
  · obtain ⟨e, he, hunder⟩ := Table.present_iff.mp hpresent
    have hname := (hfiles e he (habove.trans hunder)).1
    exact hinto (hname ▸ hunder)
  · obtain ⟨c, hc, hbelow⟩ := List.any_eq_true.mp hpresent
    have hbelow : c.Below dirs.legacyDataDir := of_decide_eq_true hbelow
    exact hcheckouts c hc (hbelow.imp habove.trans habove.trans)

theorem worktreesAt_rename_default (h : FileTree.Apart dirs.legacyDataDir dirs.defaultDataDir)
    (d : Disk) :
    (d.rename dirs).worktreesAt dirs.defaultDataDir = d.worktreesAt dirs.legacyDataDir := by
  have hne : dirs.legacyDataDir ≠ dirs.defaultDataDir := fun heq => h.1 (heq ▸ .refl _)
  rw [worktreesAt, rename, Table.get?_rename_new hne]
  rfl

theorem worktreesAt_rename_legacy (h : FileTree.Apart dirs.legacyDataDir dirs.defaultDataDir)
    (d : Disk) :
    (d.rename dirs).worktreesAt dirs.legacyDataDir = none := by
  rw [worktreesAt, rename, Table.get?_rename_old h]
  rfl

theorem worktreesAt_rename_of_not_under (hold : ¬ Under dirs.legacyDataDir p)
    (hnew : ¬ Under dirs.defaultDataDir p) (d : Disk) :
    (d.rename dirs).worktreesAt p = d.worktreesAt p := by
  rw [worktreesAt, rename, Table.get?_rename_of_not_under hold hnew]
  rfl

end Kept

end Disk

/-! ### Servers -/

/-- Where a server stands between two of its file operations. -/
inductive LaunchStep
  /-- In `migrate_legacy_data_dir`. -/
  | checkLegacy | checkNew | makeParent | rename
  /-- In `mint_or_read_server_id`. -/
  | makeDir | readId | mint
  /-- In `acquire_pid_lock`. -/
  | lockDir | readLock | decide (existing : Option LockInfo) | writeLock
  /-- `WorktreeStore::new` is called. -/
  | openStore
  | running
  /-- In `release`. -/
  | checkLock | removeLock
  | done
  deriving DecidableEq

/-- The server is about to rename the legacy directory. -/
def LaunchStep.aboutToRename : LaunchStep → Bool
  | makeParent | rename => true
  | _ => false

/-- The server has its id. -/
def LaunchStep.hasId : LaunchStep → Bool
  | checkLegacy | checkNew | makeParent | rename | makeDir | readId | mint => false
  | _ => true

structure Launch where
  pid : Int
  /-- `PANTOKEN_DATA_DIR` -/
  explicit : Option (List Char)
  pc : LaunchStep
  alive : Bool := true
  serverId : String := ""
  lock : Option PidLock := none
  /-- The index it has opened. -/
  index : Option WorktreeStore := none

/-- The start of a server: a data directory that is chosen is not migrated. -/
def Launch.start (pid : Int) (explicit : Option (List Char)) : Launch :=
  { pid, explicit, pc := if explicit.isSome then .makeDir else .checkLegacy }

/-- `cfg.data_dir` -/
def Launch.dataDir (dirs : Dirs) (proc : Launch) : List Char :=
  proc.explicit.getD dirs.defaultDataDir

/-- A live server with a lock it has not released. -/
def Launch.holds (proc : Launch) : Bool := proc.alive && (proc.lock.map (!·.released)).getD false

/-- The disk and every server there ever was; for the record, of each time the legacy directory was
moved whether a live server held a lock in it. -/
structure Machine where
  disk : Disk
  servers : List Launch := []
  moves : List Bool := []

inductive LaunchAct
  /-- The system starts a server, under a pid no live process has. -/
  | launch (pid : Int) (explicit : Option (List Char))
  /-- The next file operation of a server, which may fail; the id it would mint. -/
  | proceed (p : ℕ) (ok : Bool) (id : String)
  /-- The server shuts down. -/
  | stop (p : ℕ)
  /-- The process is gone. -/
  | exit (p : ℕ)

namespace Machine

/-- A live process has the pid. -/
def live (s : Machine) (pid : Int) : Bool := s.servers.any fun proc => proc.alive && proc.pid == pid

def setServer (s : Machine) (p : ℕ) (proc : Launch) : Machine :=
  { s with servers := s.servers.set p proc }

def setDisk (s : Machine) (disk : Disk) : Machine := { s with disk }

section Step

variable (dirs : Dirs) (group : Int → Bool)

/-- A live server holds the lock of the legacy directory, or of one in it. -/
def held (s : Machine) : Bool :=
  s.servers.any fun proc => proc.holds && Under dirs.legacyDataDir (proc.dataDir dirs)

/-- The legacy directory is moved. -/
def move (s : Machine) : Machine :=
  { s with disk := s.disk.rename dirs, moves := s.moves ++ [s.held dirs] }

/-- The next file operation of a server. -/
def proceed (s : Machine) (p : ℕ) (proc : Launch) (ok : Bool) (id : String) : Machine :=
  let dir := proc.dataDir dirs
  match proc.pc with
  | .checkLegacy =>
    s.setServer p { proc with
      pc := if s.disk.present dirs.legacyDataDir then .checkNew else .makeDir }
  | .checkNew =>
    s.setServer p { proc with
      pc := if s.disk.present dirs.defaultDataDir then .makeDir else .makeParent }
  | .makeParent => s.setServer p { proc with pc := if ok then .rename else .makeDir }
  | .rename =>
    -- a failure is only reported
    (if ok = true ∧ s.disk.Renames dirs then s.move dirs else s).setServer p
      { proc with pc := .makeDir }
  | .makeDir =>
    if ok then (s.setDisk (s.disk.ensure dir)).setServer p { proc with pc := .readId }
    else s.setServer p { proc with alive := false }
  | .readId =>
    let existing := (s.disk.files.get? dir).bind (·.serverId)
    -- an id that cannot be read is minted anew
    match (if ok then existing else none).filter (· ≠ "") with
    | some existing => s.setServer p { proc with serverId := existing, pc := .lockDir }
    | none => s.setServer p { proc with pc := .mint }
  | .mint =>
    if ok = true ∧ (s.disk.files.get? dir).isSome then
      (s.setDisk (s.disk.modify dir ({ · with serverId := some id }))).setServer p
        { proc with serverId := id, pc := .lockDir }
    else s.setServer p { proc with alive := false }
  | .lockDir =>
    (if ok then s.setDisk (s.disk.ensure dir) else s).setServer p { proc with pc := .readLock }
  | .readLock =>
    let existing := ((s.disk.files.get? dir).bind (·.lockFile)).bind parseLock
    s.setServer p { proc with pc := .decide (if ok then existing else none) }
  | .decide existing =>
    match lockDecision (isPidAlive s.live group) existing proc.pid with
    -- `LockHeldError`
    | .live => s.setServer p { proc with alive := false }
    | .reclaim => s.setServer p { proc with pc := .writeLock }
  | .writeLock =>
    let lockFile := LockInfo.text ⟨proc.pid, some proc.serverId⟩
    let locked := s.disk.modify dir ({ · with lockFile := some lockFile })
    (if ok then s.setDisk locked else s).setServer p { proc with
      pc := .openStore
      lock := some { pid := proc.pid, serverId := proc.serverId } }
  | .openStore =>
    if ok then
      (s.setDisk (s.disk.ensure dir)).setServer p { proc with
        pc := .running
        index := some (loadWorktrees (s.disk.worktreesAt dir)) }
    -- it panics, and the lock is dropped
    else s.setServer p { proc with
      pc := .checkLock
      lock := proc.lock.map ({ · with released := true }) }
  | .checkLock =>
    let existing := ((s.disk.files.get? dir).bind (·.lockFile)).bind parseLock
    -- only a lock that reads as another's is left alone
    match if ok then existing else none with
    | some cur =>
      s.setServer p { proc with pc := if cur.pid ≠ proc.pid then .done else .removeLock }
    | none => s.setServer p { proc with pc := .removeLock }
  | .removeLock =>
    (if ok then s.setDisk (s.disk.modify dir ({ · with lockFile := none })) else s).setServer p
      { proc with pc := .done }
  | .running | .done => s

/-- One step of the system. -/
def step (s : Machine) : LaunchAct → Machine
  | .launch pid explicit =>
    if 0 < pid ∧ pid < 2 ^ 31 ∧ s.live pid = false then
      { s with servers := s.servers ++ [.start pid explicit] }
    else s
  | .proceed p ok id =>
    match s.servers[p]? with
    | none => s
    | some proc => if proc.alive then s.proceed dirs group p proc ok id else s
  | .stop p =>
    match s.servers[p]? with
    | none => s
    | some proc =>
      if proc.pc = .running ∧ proc.holds = true then
        s.setServer p { proc with
          pc := .checkLock
          lock := proc.lock.map ({ · with released := true }) }
      else s
  | .exit p =>
    match s.servers[p]? with
    | none => s
    | some proc => s.setServer p { proc with alive := false }

/-- A disk before any server starts. -/
def boot (disk : Disk) : Machine := { disk }

/-- The index that a server has opened which migrates. -/
def Opened (s : Machine) (store : WorktreeStore) : Prop :=
  ∃ proc ∈ s.servers, proc.explicit = none ∧ proc.index = some store

end Step

/-! ### What becomes of the worktrees -/

section Properties

variable (dirs : Dirs)

/-- **Nothing is stranded**: every index that is opened tracks the worktrees that the legacy index
tracked, where they now are, and no directory is moved whose lock a live server holds. -/
structure StrandsNothing (s₀ s : Machine) : Prop where
  tracked : ∀ (i : ℕ) c₀ c, s₀.disk.checkouts[i]? = some c₀ → s.disk.checkouts[i]? = some c →
    Tracks (loadWorktrees (s₀.disk.worktreesAt dirs.legacyDataDir)) c₀ →
    ∀ store, s.Opened store → Tracks store c
  unheld : true ∉ s.moves

/-- **Where the worktrees of the legacy index are**: as long as the legacy directory is not moved,
in their places and tracked by the index there, and the index of the new directory is opened as it
was; once it is moved, those outside it are in their places and tracked by every index that is
opened, and those in it are where it is now. -/
structure Accounted (s₀ s : Machine) : Prop where
  inPlace : s.moves = [] →
    (∀ (i : ℕ) c, s₀.disk.checkouts[i]? = some c →
      Tracks (loadWorktrees (s₀.disk.worktreesAt dirs.legacyDataDir)) c →
      s.disk.checkouts[i]? = some c ∧
        Tracks (loadWorktrees (s.disk.worktreesAt dirs.legacyDataDir)) c) ∧
    ∀ store, s.Opened store →
      store = loadWorktrees (s₀.disk.worktreesAt dirs.defaultDataDir)
  moved : s.moves ≠ [] → ∀ (i : ℕ) c, s₀.disk.checkouts[i]? = some c →
    Tracks (loadWorktrees (s₀.disk.worktreesAt dirs.legacyDataDir)) c →
    ¬ c.Below dirs.legacyDataDir →
    s.disk.checkouts[i]? = some c ∧ ∀ store, s.Opened store → Tracks store c
  /-- What is in the legacy directory is moved with it. -/
  carried : s.moves ≠ [] → ∀ (i : ℕ) c, s₀.disk.checkouts[i]? = some c →
    s.disk.checkouts[i]? = some (c.rename dirs.legacyDataDir dirs.defaultDataDir)
  /-- No other directory is moved. -/
  elsewhere : ∀ p, ¬ Under dirs.legacyDataDir p → ¬ Under dirs.defaultDataDir p →
    s.disk.worktreesAt p = s₀.disk.worktreesAt p
  /-- Of two directories the new one is used. -/
  both : s₀.disk.present dirs.defaultDataDir = true → s.moves = []

end Properties

/-! ### Steps -/

/-- What a step makes of a server, on the disk that is there then. -/
structure Advances (dirs : Dirs) (disk : Disk) (proc proc' : Launch) : Prop where
  explicit : proc'.explicit = proc.explicit
  hasId : proc'.pc.hasId = true → proc.pc.hasId = true ∨ disk.Minted (proc.dataDir dirs)
  keepsId : proc.pc.hasId = true → proc'.pc.hasId = true
  aboutToRename : proc'.pc.aboutToRename = true →
    proc.pc.aboutToRename = true ∨ disk.present dirs.defaultDataDir = false
  index : ∀ store ∈ proc'.index, proc.index = some store ∨
    proc.pc.hasId = true ∧ store = loadWorktrees (disk.worktreesAt (proc.dataDir dirs))

section Steps

variable {dirs : Dirs} {group : Int → Bool} {s : Machine} {p : ℕ} {proc : Launch}

theorem not_aboutToRename {pc : LaunchStep} (h : pc.hasId = true) : pc.aboutToRename = false := by
  cases pc <;> first | rfl | cases h

/-- A server without an id goes on. -/
theorem Advances.early {disk : Disk} {proc' : Launch} (hexplicit : proc'.explicit = proc.explicit)
    (hindex : proc'.index = proc.index) (hpc : proc.pc.hasId = false)
    (hpc' : proc'.pc.hasId = false)
    (hrename : proc'.pc.aboutToRename = true →
      proc.pc.aboutToRename = true ∨ disk.present dirs.defaultDataDir = false) :
    Advances dirs disk proc proc' where
  explicit := hexplicit
  hasId h := absurd h (Bool.eq_false_iff.mp hpc')
  keepsId h := absurd h (Bool.eq_false_iff.mp hpc)
  aboutToRename := hrename
  index _ h := .inl (hindex ▸ h)

/-- A server gets the id of its directory. -/
theorem Advances.minted {disk : Disk} {proc' : Launch} (hexplicit : proc'.explicit = proc.explicit)
    (hindex : proc'.index = proc.index) (hpc : proc.pc.hasId = false)
    (hpc' : proc'.pc.hasId = true) (hminted : disk.Minted (proc.dataDir dirs)) :
    Advances dirs disk proc proc' where
  explicit := hexplicit
  hasId _ := .inr hminted
  keepsId h := absurd h (Bool.eq_false_iff.mp hpc)
  aboutToRename h := absurd h (Bool.eq_false_iff.mp (not_aboutToRename hpc'))
  index _ h := .inl (hindex ▸ h)

/-- A server with an id goes on, and keeps its index. -/
theorem Advances.late {disk : Disk} {proc' : Launch} (hexplicit : proc'.explicit = proc.explicit)
    (hindex : proc'.index = proc.index) (hpc : proc.pc.hasId = true)
    (hpc' : proc'.pc.hasId = true) : Advances dirs disk proc proc' where
  explicit := hexplicit
  hasId _ := .inl hpc
  keepsId _ := hpc'
  aboutToRename h := absurd h (Bool.eq_false_iff.mp (not_aboutToRename hpc'))
  index _ h := .inl (hindex ▸ h)

/-- A server that does not move on. -/
theorem Advances.same {disk : Disk} {proc' : Launch} (hexplicit : proc'.explicit = proc.explicit)
    (hindex : proc'.index = proc.index) (hpc : proc'.pc = proc.pc) :
    Advances dirs disk proc proc' where
  explicit := hexplicit
  hasId h := .inl (hpc ▸ h)
  keepsId h := hpc ▸ h
  aboutToRename h := .inl (hpc ▸ h)
  index _ h := .inl (hindex ▸ h)

/-- **A file operation of a server moves the legacy directory, or leaves what was there.** -/
theorem proceed_cases (hp : s.servers[p]? = some proc) (ok : Bool) (id : String) :
    (proc.pc = .rename ∧ s.disk.Renames dirs ∧ s.proceed dirs group p proc ok id =
      (s.move dirs).setServer p { proc with pc := .makeDir }) ∨
    ∃ disk proc', s.proceed dirs group p proc ok id = (s.setDisk disk).setServer p proc' ∧
      s.disk.Kept disk ∧ Advances dirs disk proc proc' := by
  have hkept := Disk.Kept.refl s.disk
  have hsame : s = (s.setDisk s.disk).setServer p proc := by
    obtain ⟨hlt, rfl⟩ := List.getElem?_eq_some_iff.mp hp
    rw [setServer, setDisk, List.set_getElem_self]
  cases hpc : proc.pc with
  | checkLegacy =>
    refine .inr ⟨s.disk, _, by simp only [proceed, hpc]; rfl, hkept, ?_⟩
    refine .early rfl rfl (by rw [hpc]; rfl) (by dsimp only; split <;> rfl) fun h => ?_
    dsimp only at h
    split at h <;> cases h
  | checkNew =>
    refine .inr ⟨s.disk, _, by simp only [proceed, hpc]; rfl, hkept, ?_⟩
    refine .early rfl rfl (by rw [hpc]; rfl) (by dsimp only; split <;> rfl) fun h => .inr ?_
    dsimp only at h
    split at h
    · cases h
    · exact Bool.eq_false_iff.mpr ‹_›
  | makeParent =>
    refine .inr ⟨s.disk, _, by simp only [proceed, hpc]; rfl, hkept, ?_⟩
    exact .early rfl rfl (by rw [hpc]; rfl) (by dsimp only; split <;> rfl)
      fun _ => .inl (by rw [hpc]; rfl)
  | rename =>
    by_cases hmove : ok = true ∧ s.disk.Renames dirs
    · exact .inl ⟨rfl, hmove.2, by simp only [proceed, hpc, if_pos hmove]⟩
    · refine .inr ⟨s.disk, _, by simp only [proceed, hpc, if_neg hmove]; rfl, hkept, ?_⟩
      exact .early rfl rfl (by rw [hpc]; rfl) rfl (by rintro ⟨⟩)
  | makeDir =>
    cases ok with
    | true =>
      refine .inr ⟨_, _, by simp only [proceed, hpc]; rfl, Disk.kept_ensure _ _, ?_⟩
      exact .early rfl rfl (by rw [hpc]; rfl) rfl (by rintro ⟨⟩)
    | false =>
      refine .inr ⟨s.disk, _, by simp only [proceed, hpc]; rfl, hkept, ?_⟩
      exact .same rfl rfl hpc.symm
  | readId =>
    have hearly : proc.pc.hasId = false := by rw [hpc]; rfl
    cases hid : (if ok then (s.disk.files.get? (proc.dataDir dirs)).bind (·.serverId)
        else none).filter (· ≠ "") with
    | none =>
      refine .inr ⟨s.disk, _, by simp only [proceed, hpc, hid]; rfl, hkept, ?_⟩
      exact .early rfl rfl hearly rfl (by rintro ⟨⟩)
    | some existing =>
      refine .inr ⟨s.disk, _, by simp only [proceed, hpc, hid]; rfl, hkept, ?_⟩
      have hread := (Option.filter_eq_some_iff.mp hid).1
      have hminted : s.disk.Minted (proc.dataDir dirs) := by
        split_ifs at hread
        rw [Disk.Minted, hread]
        rfl
      exact .minted rfl rfl hearly rfl hminted
  | mint =>
    by_cases hwrite : ok = true ∧ (s.disk.files.get? (proc.dataDir dirs)).isSome
    · refine .inr ⟨_, _, by simp only [proceed, hpc, if_pos hwrite]; rfl, ?_, ?_⟩
      · exact Disk.kept_modify _ _ (fun _ => rfl) fun _ _ => rfl
      · obtain ⟨files, hfiles⟩ := Option.isSome_iff_exists.mp hwrite.2
        refine .minted rfl rfl (by rw [hpc]; rfl) rfl ?_
        rw [Disk.Minted, Disk.modify, Table.get?_modify, if_pos rfl, hfiles]
        rfl
    · refine .inr ⟨s.disk, _, by simp only [proceed, hpc, if_neg hwrite]; rfl, hkept, ?_⟩
      exact .same rfl rfl hpc.symm
  | lockDir =>
    have hadv : ∀ disk, Advances dirs disk proc { proc with pc := .readLock } :=
      fun _ => .late rfl rfl (by rw [hpc]; rfl) rfl
    cases ok with
    | true =>
      exact .inr ⟨_, _, by simp only [proceed, hpc]; rfl, Disk.kept_ensure _ _, hadv _⟩
    | false => exact .inr ⟨s.disk, _, by simp only [proceed, hpc]; rfl, hkept, hadv _⟩
  | readLock =>
    refine .inr ⟨s.disk, _, by simp only [proceed, hpc]; rfl, hkept, ?_⟩
    exact .late rfl rfl (by rw [hpc]; rfl) rfl
  | decide existing =>
    cases hdecision : lockDecision (isPidAlive s.live group) existing proc.pid with
    | live =>
      refine .inr ⟨s.disk, _, by simp only [proceed, hpc, hdecision]; rfl, hkept, ?_⟩
      exact .same rfl rfl hpc.symm
    | reclaim =>
      refine .inr ⟨s.disk, _, by simp only [proceed, hpc, hdecision]; rfl, hkept, ?_⟩
      exact .late rfl rfl (by rw [hpc]; rfl) rfl
  | writeLock =>
    cases ok with
    | true =>
      refine .inr ⟨_, _, by simp only [proceed, hpc]; rfl, ?_, ?_⟩
      · exact Disk.kept_modify _ _ (fun _ => rfl) fun _ h => h
      · exact .late rfl rfl (by rw [hpc]; rfl) rfl
    | false =>
      refine .inr ⟨s.disk, _, by simp only [proceed, hpc]; rfl, hkept, ?_⟩
      exact .late rfl rfl (by rw [hpc]; rfl) rfl
  | openStore =>
    have hlate : proc.pc.hasId = true := by rw [hpc]; rfl
    cases ok with
    | true =>
      refine .inr ⟨_, _, by simp only [proceed, hpc]; rfl, Disk.kept_ensure _ _, ?_⟩
      refine ⟨rfl, fun _ => .inl hlate, fun _ => rfl, (by rintro ⟨⟩), ?_⟩
      rintro store ⟨rfl⟩
      exact .inr ⟨hlate, congrArg loadWorktrees ((Disk.kept_ensure _ _).worktrees _).symm⟩
    | false =>
      refine .inr ⟨s.disk, _, by simp only [proceed, hpc]; rfl, hkept, ?_⟩
      exact .late rfl rfl hlate rfl
  | checkLock =>
    have hlate : proc.pc.hasId = true := by rw [hpc]; rfl
    cases hcur : (if ok then
        ((s.disk.files.get? (proc.dataDir dirs)).bind (·.lockFile)).bind parseLock else none) with
    | none =>
      refine .inr ⟨s.disk, _, by simp only [proceed, hpc, hcur]; rfl, hkept, ?_⟩
      exact .late rfl rfl hlate rfl
    | some cur =>
      refine .inr ⟨s.disk, _, by simp only [proceed, hpc, hcur]; rfl, hkept, ?_⟩
      exact .late rfl rfl hlate (by dsimp only; split <;> rfl)
  | removeLock =>
    cases ok with
    | true =>
      refine .inr ⟨_, _, by simp only [proceed, hpc]; rfl, ?_, ?_⟩
      · exact Disk.kept_modify _ _ (fun _ => rfl) fun _ h => h
      · exact .late rfl rfl (by rw [hpc]; rfl) rfl
    | false =>
      refine .inr ⟨s.disk, _, by simp only [proceed, hpc]; rfl, hkept, ?_⟩
      exact .late rfl rfl (by rw [hpc]; rfl) rfl
  | running | done =>
    exact .inr ⟨s.disk, proc, by simp only [proceed, hpc]; exact hsame, hkept, .same rfl rfl rfl⟩

/-- **What a step does**: nothing, a server starts, the legacy directory is moved, or a server goes
on and leaves what was there. -/
theorem step_cases (dirs : Dirs) (group : Int → Bool) (s : Machine) (a : LaunchAct) :
    s.step dirs group a = s ∨
    (∃ pid explicit,
      s.step dirs group a = { s with servers := s.servers ++ [.start pid explicit] }) ∨
    ∃ p proc, s.servers[p]? = some proc ∧
      ((proc.pc = .rename ∧ s.disk.Renames dirs ∧
          s.step dirs group a = (s.move dirs).setServer p { proc with pc := .makeDir }) ∨
        ∃ disk proc', s.step dirs group a = (s.setDisk disk).setServer p proc' ∧
          s.disk.Kept disk ∧ Advances dirs disk proc proc') := by
  cases a with
  | launch pid explicit =>
    rw [step]
    split
    · exact .inr (.inl ⟨pid, explicit, rfl⟩)
    · exact .inl rfl
  | proceed p ok id =>
    rw [step]
    cases hp : s.servers[p]? with
    | none => exact .inl rfl
    | some proc =>
      dsimp only
      split
      · exact .inr (.inr ⟨p, proc, hp, proceed_cases hp ok id⟩)
      · exact .inl rfl
  | stop p =>
    rw [step]
    cases hp : s.servers[p]? with
    | none => exact .inl rfl
    | some proc =>
      dsimp only
      split
      · rename_i hrunning
        refine .inr (.inr ⟨p, proc, hp, .inr ⟨s.disk, _, rfl, .refl _, ?_⟩⟩)
        exact .late rfl rfl (by rw [hrunning.1]; rfl) rfl
      · exact .inl rfl
  | exit p =>
    rw [step]
    cases hp : s.servers[p]? with
    | none => exact .inl rfl
    | some proc =>
      exact .inr (.inr ⟨p, proc, hp, .inr ⟨s.disk, _, rfl, .refl _, .same rfl rfl rfl⟩⟩)

end Steps

/-! ### Runs -/

/-- What holds in every state of a run. -/
structure Inv (dirs : Dirs) (s₀ s : Machine) : Prop where
  stayed : s.moves = [] → s.disk.checkouts = s₀.disk.checkouts ∧
    ∀ p, s.disk.worktreesAt p = s₀.disk.worktreesAt p
  moved : s.moves ≠ [] → FileTree.Apart dirs.legacyDataDir dirs.defaultDataDir ∧
    s.disk.checkouts =
      s₀.disk.checkouts.map (·.rename dirs.legacyDataDir dirs.defaultDataDir) ∧
    s.disk.worktreesAt dirs.defaultDataDir = s₀.disk.worktreesAt dirs.legacyDataDir ∧
    s.disk.worktreesAt dirs.legacyDataDir = none
  elsewhere : ∀ p, ¬ Under dirs.legacyDataDir p → ¬ Under dirs.defaultDataDir p →
    s.disk.worktreesAt p = s₀.disk.worktreesAt p
  /-- A server that has its id has started on a directory that is not vacant. -/
  minted : ∀ proc ∈ s.servers, proc.pc.hasId = true → proc.dataDir dirs = dirs.defaultDataDir →
    s.disk.Minted dirs.defaultDataDir
  opened : ∀ proc ∈ s.servers, ∀ store ∈ proc.index, proc.pc.hasId = true ∧
    (proc.explicit = none → store = loadWorktrees (s.disk.worktreesAt dirs.defaultDataDir))

section Runs

variable {dirs : Dirs} {group : Int → Bool} {s₀ s : Machine} {p : ℕ} {proc proc' : Launch}

theorem dataDir_eq (h : proc.explicit = none) : proc.dataDir dirs = dirs.defaultDataDir := by
  rw [Launch.dataDir, h, Option.getD_none]

theorem inv_boot (disk : Disk) : Inv dirs (boot disk) (boot disk) where
  stayed _ := ⟨rfl, fun _ => rfl⟩
  moved h := absurd rfl h
  elsewhere _ _ _ := rfl
  minted _ h := absurd h List.not_mem_nil
  opened _ h := absurd h List.not_mem_nil

theorem Inv.launch (h : Inv dirs s₀ s) (pid : Int) (explicit : Option (List Char)) :
    Inv dirs s₀ { s with servers := s.servers ++ [.start pid explicit] } where
  stayed := h.stayed
  moved := h.moved
  elsewhere := h.elsewhere
  minted proc hproc hid := by
    rcases List.mem_append.mp hproc with hproc | hproc
    · exact h.minted proc hproc hid
    · obtain rfl := List.mem_singleton.mp hproc
      cases explicit <;> cases hid
  opened proc hproc store hstore := by
    rcases List.mem_append.mp hproc with hproc | hproc
    · exact h.opened proc hproc store hstore
    · obtain rfl := List.mem_singleton.mp hproc
      cases hstore

/-- A file operation that leaves what was there. -/
theorem Inv.advance (h : Inv dirs s₀ s) (hp : s.servers[p]? = some proc) {disk : Disk}
    (hkept : s.disk.Kept disk) (hadv : Advances dirs disk proc proc') :
    Inv dirs s₀ ((s.setDisk disk).setServer p proc') := by
  have hproc := List.mem_of_getElem? hp
  have hdir : proc'.dataDir dirs = proc.dataDir dirs := by
    rw [Launch.dataDir, hadv.explicit, Launch.dataDir]
  constructor
  · intro hmoves
    obtain ⟨hcheckouts, hworktrees⟩ := h.stayed hmoves
    exact ⟨hkept.checkouts.trans hcheckouts, fun q => (hkept.worktrees q).trans (hworktrees q)⟩
  · intro hmoves
    obtain ⟨hapart, hcheckouts, hdefault, hlegacy⟩ := h.moved hmoves
    exact ⟨hapart, hkept.checkouts.trans hcheckouts, (hkept.worktrees _).trans hdefault,
      (hkept.worktrees _).trans hlegacy⟩
  · exact fun q hold hnew => (hkept.worktrees q).trans (h.elsewhere q hold hnew)
  · intro other hother hid hdefault
    rcases List.mem_or_eq_of_mem_set hother with hother | rfl
    · exact hkept.minted _ (h.minted other hother hid hdefault)
    · rw [hdir] at hdefault
      rcases hadv.hasId hid with hid | hminted
      · exact hkept.minted _ (h.minted proc hproc hid hdefault)
      · exact hdefault ▸ hminted
  · intro other hother store hstore
    change _ ∧ (_ → store = loadWorktrees (disk.worktreesAt dirs.defaultDataDir))
    rcases List.mem_or_eq_of_mem_set hother with hother | rfl
    · rw [hkept.worktrees]
      exact h.opened other hother store hstore
    · rcases hadv.index store hstore with hold | ⟨hid, rfl⟩
      · rw [hkept.worktrees, hadv.explicit]
        exact (h.opened proc hproc store hold).imp_left hadv.keepsId
      · refine ⟨hadv.keepsId hid, fun hnone => ?_⟩
        rw [← hdir, dataDir_eq hnone]

/-- **The legacy directory is moved**: nobody has started on the new one. -/
theorem Inv.move (h : Inv dirs s₀ s) (hp : s.servers[p]? = some proc) (hpc : proc.pc = .rename)
    (hrenames : s.disk.Renames dirs) :
    Inv dirs s₀ ((s.move dirs).setServer p { proc with pc := .makeDir }) := by
  have hapart := hrenames.apart
  have hvacant := hrenames.2.2
  have hproc := List.mem_of_getElem? hp
  have hnobody : ∀ other ∈ s.servers, other.pc.hasId = true →
      other.dataDir dirs ≠ dirs.defaultDataDir :=
    fun other hother hid hdefault => hvacant.not_minted (h.minted other hother hid hdefault)
  constructor
  · exact fun hmoves => absurd hmoves (List.append_ne_nil_of_right_ne_nil _ (List.cons_ne_nil _ _))
  · intro _
    refine ⟨hapart, ?_, ?_, Disk.worktreesAt_rename_legacy hapart s.disk⟩
    · change s.disk.checkouts.map _ = _
      by_cases hmoves : s.moves = []
      · rw [(h.stayed hmoves).1]
      · -- it was moved before, and nothing is left to be moved again
        rw [(h.moved hmoves).2.1, List.map_map]
        exact List.map_congr_left fun c _ => Checkout.rename_rename hapart c
    · refine (Disk.worktreesAt_rename_default hapart s.disk).trans ?_
      by_cases hmoves : s.moves = []
      · exact (h.stayed hmoves).2 _
      · obtain ⟨-, -, hdefault, hlegacy⟩ := h.moved hmoves
        rw [hlegacy, ← hdefault, hvacant.worktreesAt_eq]
  · intro q hold hnew
    exact (Disk.worktreesAt_rename_of_not_under hold hnew s.disk).trans (h.elsewhere q hold hnew)
  · intro other hother hid hdefault
    rcases List.mem_or_eq_of_mem_set hother with hother | rfl
    · exact absurd hdefault (hnobody other hother hid)
    · cases hid
  · intro other hother store hstore
    rcases List.mem_or_eq_of_mem_set hother with hother | rfl
    · have hid := (h.opened other hother store hstore).1
      exact ⟨hid, fun hnone => absurd (dataDir_eq hnone) (hnobody other hother hid)⟩
    · have hid := (h.opened proc hproc store hstore).1
      rw [hpc] at hid
      cases hid

theorem Inv.step (h : Inv dirs s₀ s) (a : LaunchAct) : Inv dirs s₀ (s.step dirs group a) := by
  rcases step_cases dirs group s a with
    heq | ⟨pid, explicit, heq⟩ |
    ⟨p, proc, hp, ⟨hpc, hrenames, heq⟩ | ⟨disk, proc', heq, hkept, hadv⟩⟩ <;> rw [heq]
  · exact h
  · exact h.launch pid explicit
  · exact h.move hp hpc hrenames
  · exact h.advance hp hkept hadv

/-- Nobody renames a directory where the new one is there. -/
structure Settled (dirs : Dirs) (s : Machine) : Prop where
  present : s.disk.present dirs.defaultDataDir = true
  renames : ∀ proc ∈ s.servers, proc.pc.aboutToRename = false
  moves : s.moves = []

theorem Settled.step (h : Settled dirs s) (a : LaunchAct) : Settled dirs (s.step dirs group a) := by
  rcases step_cases dirs group s a with
    heq | ⟨pid, explicit, heq⟩ |
    ⟨p, proc, hp, ⟨hpc, hrenames, heq⟩ | ⟨disk, proc', heq, hkept, hadv⟩⟩
  · rwa [heq]
  · rw [heq]
    refine ⟨h.present, fun proc hproc => ?_, h.moves⟩
    rcases List.mem_append.mp hproc with hproc | hproc
    · exact h.renames proc hproc
    · obtain rfl := List.mem_singleton.mp hproc
      cases explicit <;> rfl
  · have hnot := h.renames proc (List.mem_of_getElem? hp)
    rw [hpc] at hnot
    cases hnot
  · rw [heq]
    have hpresent := hkept.present _ h.present
    refine ⟨hpresent, fun other hother => ?_, h.moves⟩
    rcases List.mem_or_eq_of_mem_set hother with hother | rfl
    · exact h.renames other hother
    · refine Bool.eq_false_iff.mpr fun habout => ?_
      rcases hadv.aboutToRename habout with hold | habsent
      · rw [h.renames proc (List.mem_of_getElem? hp)] at hold
        cases hold
      · rw [hpresent] at habsent
        cases habsent

theorem Inv.carried (h : Inv dirs s₀ s) (hmoves : s.moves ≠ []) {i : ℕ} {c : Checkout}
    (hc : s₀.disk.checkouts[i]? = some c) :
    s.disk.checkouts[i]? = some (c.rename dirs.legacyDataDir dirs.defaultDataDir) := by
  rw [(h.moved hmoves).2.1, List.getElem?_map, hc, Option.map_some]

theorem Inv.tracked (h : Inv dirs s₀ s) (hmoves : s.moves ≠ []) {c : Checkout}
    (htracks : Tracks (loadWorktrees (s₀.disk.worktreesAt dirs.legacyDataDir)) c)
    {store : WorktreeStore} (hopened : s.Opened store) : Tracks store c := by
  obtain ⟨proc, hproc, hnone, hindex⟩ := hopened
  rw [(h.opened proc hproc store hindex).2 hnone, (h.moved hmoves).2.2.1]
  exact htracks

variable (dirs group) in
/-- **In every run the worktrees of the legacy index are accounted for.** -/
theorem accounted (disk : Disk) (acts : List LaunchAct) :
    Accounted dirs (boot disk) (acts.foldl (step dirs group) (boot disk)) := by
  have hinv : Inv dirs (boot disk) (acts.foldl (step dirs group) (boot disk)) :=
    foldl_invariant (fun _ a h => h.step a) (inv_boot disk) acts
  constructor
  · intro hmoves
    obtain ⟨hcheckouts, hworktrees⟩ := hinv.stayed hmoves
    refine ⟨fun i c hc htracks => ?_, fun store hopened => ?_⟩
    · rw [hcheckouts, hworktrees]
      exact ⟨hc, htracks⟩
    · obtain ⟨proc, hproc, hnone, hindex⟩ := hopened
      rw [(hinv.opened proc hproc store hindex).2 hnone, hworktrees]
  · intro hmoves i c hc htracks hout
    refine ⟨?_, fun store hopened => hinv.tracked hmoves htracks hopened⟩
    rw [hinv.carried hmoves hc, Checkout.rename_of_not_below hout]
  · exact fun hmoves i c hc => hinv.carried hmoves hc
  · exact hinv.elsewhere
  · intro hpresent
    have hboot : Settled dirs (boot disk) := ⟨hpresent, fun _ h => absurd h List.not_mem_nil, rfl⟩
    exact (foldl_invariant (fun _ a h => h.step a) hboot acts).moves

end Runs

/-! ### Stranded worktrees -/

/-- An index is opened that does not track a worktree which the legacy index tracked. -/
def Stranded (dirs : Dirs) (s₀ s : Machine) : Prop :=
  ∃ cs ∈ s₀.disk.checkouts.zip s.disk.checkouts,
    Tracks (loadWorktrees (s₀.disk.worktreesAt dirs.legacyDataDir)) cs.1 ∧
      ∃ proc ∈ s.servers, proc.explicit = none ∧ ∃ store ∈ proc.index, ¬ Tracks store cs.2

instance (dirs : Dirs) (s₀ s : Machine) : Decidable (Stranded dirs s₀ s) :=
  inferInstanceAs (Decidable (∃ cs ∈ s₀.disk.checkouts.zip s.disk.checkouts, _ ∧
    ∃ proc ∈ s.servers, _ ∧ ∃ store ∈ proc.index, ¬ _))

theorem Stranded.not_strandsNothing {dirs : Dirs} {s₀ s : Machine} (h : Stranded dirs s₀ s) :
    ¬ StrandsNothing dirs s₀ s := by
  obtain ⟨⟨c₀, c⟩, hmem, htracks, proc, hproc, hnone, store, hstore, hnot⟩ := h
  obtain ⟨i, hi⟩ := List.mem_iff_getElem?.mp hmem
  obtain ⟨hc₀, hc⟩ := List.getElem?_zip_eq_some.mp hi
  exact fun hall => hnot (hall.tracked i c₀ c hc₀ hc htracks store ⟨proc, hproc, hnone, hstore⟩)

/-- **A worktree is stranded**, though it is not in the legacy directory, where the new one is there
or the rename fails; and, where the rename succeeds, if it is in the legacy directory.  A directory
is moved in which a server of old runs. -/
theorem not_strandsNothing :
    let dirs : Dirs := ⟨"/u/.local/state/pantoken".toList, "/u/.local/share/pantoken".toList⟩
    let disk (path : String) (others : Table DataFiles) : Disk :=
      { files := (dirs.legacyDataDir,
          { worktrees := some (some [⟨⟨path, "/src/app", .git, "pantoken-a"⟩, none⟩]) }) :: others
        checkouts := [⟨.git, "/src/app".toList, "pantoken-a", path.toList, path.toList⟩] }
    let start (p : ℕ) (explicit : Option (List Char)) (ok : ℕ → Bool) : List LaunchAct :=
      .launch (100 + p) explicit :: (List.range 12).map fun i => .proceed p (ok i) "id"
    let run (d : Disk) (acts : List LaunchAct) : Machine :=
      acts.foldl (step dirs fun _ => false) (boot d)
    let outside := disk "/wt/a"
    let inside := disk "/u/.local/state/pantoken/worktrees/src-app/pantoken-a" []
    ¬ StrandsNothing dirs (boot (outside [(dirs.defaultDataDir, {})]))
        (run (outside [(dirs.defaultDataDir, {})]) (start 0 none fun _ => true)) ∧
      ¬ StrandsNothing dirs (boot (outside [])) (run (outside []) (start 0 none (· ≠ 3))) ∧
      ¬ StrandsNothing dirs (boot inside) (run inside (start 0 none fun _ => true)) ∧
      ¬ StrandsNothing dirs (boot (outside [])) (run (outside [])
        (start 0 (some dirs.legacyDataDir) (fun _ => true) ++ start 1 none fun _ => true)) := by
  refine ⟨Stranded.not_strandsNothing ?_, Stranded.not_strandsNothing ?_,
    Stranded.not_strandsNothing ?_, fun h => h.unheld ?_⟩
  · decide +kernel
  · decide +kernel
  · decide +kernel
  · decide +kernel

end Machine

end Pantoken.Migration
