import Pantoken.Lib.PMap
import Pantoken.Server.IndexJson

/-!
# The stores of the server

The server keeps its worktrees, archived sessions and push subscriptions in memory and
writes all of a kind to one file at a change; its settings it reads again for each change.
A file that cannot be read at a start counts as empty, and the next write takes its place.

## Main definitions

* `WorktreeStore`, `ArchiveStore`, `PushSubscriptionStore` — the stores, and what their
  functions do to them.
* `readPantokenSettings`, `writePantokenSettings` — the settings.
* `StoresAct` — what happens to the four files, restarts of the server among it.
* `Stores.Survive` — every store shows the operations in effect.
* `Stores.Keeps` — no read finds a file that it cannot read, and no settings are written
  after some that were not.

## Main results

* `Stores.survive_of_keeps` — **then the stores survive every restart and every write that
  is refused or cut short.**
* `Stores.not_survive` — a read that fails once empties the archive, and the next session
  archived takes the place of all the others.
-/

namespace Pantoken

/-! ### Worktrees -/

/-- `WorktreeStore`, apart from its file. -/
@[ext] structure WorktreeStore where
  byPath : PMap String WorktreeMeta
  reaped : String → Bool
  /-- A worktree is kept under its path. -/
  path_eq : ∀ p m, byPath p = some m → m.path = p
  /-- No path is reaped that was never added. -/
  known : ∀ p, reaped p = true → (byPath p).isSome

namespace WorktreeStore

def empty : WorktreeStore where
  byPath := .empty
  reaped _ := false
  path_eq _ _ h := by cases h
  known _ h := by cases h

def get (s : WorktreeStore) (path : String) : Option WorktreeMeta := s.byPath path

def live (s : WorktreeStore) (path : String) : Option WorktreeMeta :=
  if s.reaped path then none else s.byPath path

def isReaped (s : WorktreeStore) (path : String) : Bool := s.reaped path

/-- The records with one more, under its path. -/
theorem path_eq_insert (s : WorktreeStore) (m : WorktreeMeta) (p : String) (m' : WorktreeMeta)
    (h : s.byPath.insert m.path m p = some m') : m'.path = p := by
  rw [PMap.insert_apply] at h
  split at h
  · cases h
    exact Eq.symm ‹_›
  · exact s.path_eq p m' h

theorem isSome_insert {α : Type*} {m : PMap String α} {p q : String} (a : α)
    (h : (m q).isSome) : (m.insert p a q).isSome := by
  rw [PMap.insert_apply]
  split
  · rfl
  · exact h

/-- `add`, before it writes. -/
def add (s : WorktreeStore) (m : WorktreeMeta) : WorktreeStore where
  byPath := s.byPath.insert m.path m
  reaped p := if p = m.path then false else s.reaped p
  path_eq := s.path_eq_insert m
  known p h := by
    split at h
    · cases h
    · exact isSome_insert m (s.known p h)

/-- Whether `mark_reaped` changes anything. -/
def marks (s : WorktreeStore) (path : String) : Bool := (s.byPath path).isSome && !s.reaped path

/-- `mark_reaped`, before it writes. -/
def markReaped (s : WorktreeStore) (path : String) : WorktreeStore :=
  if h : s.marks path then
    { s with
      reaped := fun p => if p = path then true else s.reaped p
      known := fun p hp => by
        split at hp
        · subst p
          exact (Bool.and_eq_true_iff.mp h).1
        · exact s.known p hp }
  else s

/-- `load` for one entry. -/
def loadEntry (s : WorktreeStore) (e : PersistedWorktree) : WorktreeStore where
  byPath := s.byPath.insert e.worktree.path e.worktree
  reaped p := if e.reaped.getD false ∧ p = e.worktree.path then true else s.reaped p
  path_eq := s.path_eq_insert e.worktree
  known p h := by
    split at h
    · rename_i he
      rw [he.2, PMap.insert_self, Option.isSome_some]
    · exact isSome_insert _ (s.known p h)

/-- `load` of a file that was parsed. -/
def load (arr : List PersistedWorktree) : WorktreeStore := arr.foldl loadEntry empty

/-- What `persist` writes, for the values of `by_path` in the order they are walked. -/
def persisted (s : WorktreeStore) (values : List WorktreeMeta) : List PersistedWorktree :=
  values.map fun m => ⟨m, if s.reaped m.path then some true else none⟩

/-- `values` walks `by_path`. -/
def Walks (s : WorktreeStore) (values : List WorktreeMeta) : Prop :=
  s.byPath.Enumerates (values.map fun m => (m.path, m))

/-! What an operation on one worktree does to the others -/

theorem get_add_of_ne (s : WorktreeStore) {m : WorktreeMeta} {p : String} (h : p ≠ m.path) :
    (s.add m).get p = s.get p ∧ (s.add m).isReaped p = s.isReaped p :=
  ⟨PMap.insert_of_ne _ _ h, if_neg h⟩

theorem get_markReaped_of_ne (s : WorktreeStore) {path p : String} (h : p ≠ path) :
    (s.markReaped path).get p = s.get p ∧ (s.markReaped path).isReaped p = s.isReaped p := by
  unfold markReaped
  split
  · exact ⟨rfl, if_neg h⟩
  · exact ⟨rfl, rfl⟩

theorem byPath_foldl (values : List WorktreeMeta) (f : WorktreeMeta → Option Bool)
    (s : WorktreeStore) :
    ((values.map fun m => (⟨m, f m⟩ : PersistedWorktree)).foldl loadEntry s).byPath
      = (values.map fun m => (m.path, m)).foldl (fun m e => m.insert e.1 e.2) s.byPath := by
  induction values generalizing s with
  | nil => rfl
  | cons m values ih => exact ih (s.loadEntry ⟨m, f m⟩)

theorem reaped_foldl (s : WorktreeStore) (values : List WorktreeMeta) (s₀ : WorktreeStore)
    (p : String) :
    ((s.persisted values).foldl loadEntry s₀).reaped p
      = (s₀.reaped p || (s.reaped p && p ∈ values.map WorktreeMeta.path)) := by
  induction values generalizing s₀ with
  | nil => simp [persisted]
  | cons m values ih =>
    have hcons : (s.persisted (m :: values)).foldl loadEntry s₀
        = (s.persisted values).foldl loadEntry
            (s₀.loadEntry ⟨m, if s.reaped m.path then some true else none⟩) := rfl
    rw [hcons, ih]
    by_cases hp : p = m.path
    · subst hp
      cases s.reaped m.path <;> simp [loadEntry]
    · simp [loadEntry, hp]

/-- What was written of a store is read as the store. -/
theorem load_persisted (s : WorktreeStore) {values : List WorktreeMeta} (h : s.Walks values) :
    load (s.persisted values) = s := by
  have hbyPath : (load (s.persisted values)).byPath = s.byPath :=
    (byPath_foldl values _ empty).trans (PMap.foldl_insert_eq h)
  have hreaped : (load (s.persisted values)).reaped = s.reaped := by
    funext p
    rw [load, reaped_foldl]
    cases hr : s.reaped p with
    | false => simp [empty]
    | true =>
      obtain ⟨m, hm⟩ := Option.isSome_iff_exists.mp (s.known p hr)
      have hmem : (p, m) ∈ values.map fun m => (m.path, m) := (h.mem_iff p m).mpr hm
      have hp : p ∈ values.map WorktreeMeta.path := by
        obtain ⟨m', hm', heq⟩ := List.mem_map.mp hmem
        exact List.mem_map.mpr ⟨m', hm', (Prod.mk.inj heq).1⟩
      simp [hp]
  exact WorktreeStore.ext hbyPath hreaped

end WorktreeStore

/-- The operations of a `WorktreeStore`. -/
inductive WorktreeOp where
  | add (m : WorktreeMeta)
  | markReaped (path : String)
  deriving DecidableEq, Repr

/-- The worktree index.  A write that fails panics when the memory has changed; the lock
around the store is not poisoned, and the memory stays as it is. -/
def worktreeStore (c : StoreCodecs) :
    FileStore WorktreeStore WorktreeOp (List PersistedWorktree) (List WorktreeMeta) where
  empty := .empty
  act
    | s, .add m => s.add m
    | s, .markReaped path => s.markReaped path
  writes
    | _, .add _ => true
    | s, .markReaped path => s.marks path
  Walks := WorktreeStore.Walks
  out := WorktreeStore.persisted
  load := WorktreeStore.load
  load_out s _ h := s.load_persisted h
  format := c.worktrees.plain id fun _ => rfl

/-! ### Archived sessions -/

/-- `ArchiveStore`, apart from its file. -/
@[ext] structure ArchiveStore where
  archived : String → Bool

namespace ArchiveStore

def empty : ArchiveStore := ⟨fun _ => false⟩

def has (s : ArchiveStore) (path : String) : Bool := s.archived path

/-- `changed` of `set`. -/
def changed (s : ArchiveStore) (path : String) (archived : Bool) : Bool :=
  if archived then !s.archived path else s.archived path

/-- `set`, before it writes. -/
def set (s : ArchiveStore) (path : String) (archived : Bool) : ArchiveStore :=
  if s.changed path archived then ⟨fun p => if p = path then archived else s.archived p⟩ else s

/-- `load` of a file that was parsed. -/
def load (arr : List String) : ArchiveStore :=
  arr.foldl (fun s path => ⟨fun p => if p = path then true else s.archived p⟩) empty

/-- `paths` walks the set. -/
def Walks (s : ArchiveStore) (paths : List String) : Prop :=
  paths.Nodup ∧ ∀ p, p ∈ paths ↔ s.archived p = true

theorem walks_empty : empty.Walks [] := ⟨List.nodup_nil, by simp [empty]⟩

/-- A walk of the store with one more session. -/
theorem Walks.set {s : ArchiveStore} {paths : List String} {path : String} (h : s.Walks paths)
    (hpath : s.archived path = false) : (s.set path true).Walks (path :: paths) := by
  have hset : s.set path true = ⟨fun p => if p = path then true else s.archived p⟩ :=
    if_pos (by rw [changed, if_pos rfl, hpath, Bool.not_false])
  refine ⟨List.nodup_cons.mpr ⟨fun hmem => ?_, h.1⟩, fun p => ?_⟩
  · rw [h.2, hpath] at hmem
    cases hmem
  · rw [hset, List.mem_cons, h.2]
    by_cases hp : p = path <;> simp [hp]

/-- What archiving one session does to the others. -/
theorem has_set_of_ne (s : ArchiveStore) {path p : String} (archived : Bool) (h : p ≠ path) :
    (s.set path archived).has p = s.has p := by
  unfold set
  split
  · exact if_neg h
  · rfl

theorem archived_foldl (paths : List String) (s : ArchiveStore) (p : String) :
    (paths.foldl (fun s path => ⟨fun p => if p = path then true else s.archived p⟩) s).archived p
      = (s.archived p || p ∈ paths) := by
  induction paths generalizing s with
  | nil => simp
  | cons path paths ih =>
    rw [List.foldl_cons, ih]
    by_cases hp : p = path <;> simp [hp]

theorem load_paths (s : ArchiveStore) {paths : List String} (h : s.Walks paths) :
    load paths = s := by
  ext p
  rw [load, archived_foldl]
  simp [empty, h.2 p]

end ArchiveStore

/-- The operations of an `ArchiveStore`. -/
inductive ArchiveOp where
  | set (path : String) (archived : Bool)
  deriving DecidableEq, Repr

/-- The archive index.  A write that fails is logged. -/
def archiveStore (c : StoreCodecs) :
    FileStore ArchiveStore ArchiveOp (List String) (List String) where
  empty := .empty
  act := fun s (.set path archived) => s.set path archived
  writes := fun s (.set path archived) => s.changed path archived
  Walks := ArchiveStore.Walks
  out _ paths := paths
  load := ArchiveStore.load
  load_out s _ h := s.load_paths h
  format := c.archived.plain id fun _ => rfl

/-! ### Push subscriptions -/

/-- `PushSubscriptionStore`, apart from its file. -/
@[ext] structure PushSubscriptionStore where
  subs : PMap String PushSubscription
  /-- A subscription is kept under its endpoint. -/
  endpoint_eq : ∀ e s, subs e = some s → s.endpoint = e

namespace PushSubscriptionStore

def empty : PushSubscriptionStore := ⟨.empty, fun _ _ h => by cases h⟩

/-- `add`, before it writes, and `load` for one entry. -/
def add (s : PushSubscriptionStore) (sub : PushSubscription) : PushSubscriptionStore where
  subs := s.subs.insert sub.endpoint sub
  endpoint_eq e sub' h := by
    rw [PMap.insert_apply] at h
    split at h
    · cases h
      exact Eq.symm ‹_›
    · exact s.endpoint_eq e sub' h

/-- `remove`, before it writes. -/
def remove (s : PushSubscriptionStore) (endpoint : String) : PushSubscriptionStore where
  subs := s.subs.erase endpoint
  endpoint_eq e sub h := by
    rw [PMap.erase_apply] at h
    split at h
    · cases h
    · exact s.endpoint_eq e sub h

/-- `prune`, before it writes. -/
def prune (s : PushSubscriptionStore) (dead : List String) : PushSubscriptionStore :=
  dead.foldl remove s

/-- `load` of a file that was parsed. -/
def load (arr : List PushSubscription) : PushSubscriptionStore := arr.foldl add empty

/-- `values` walks `subs`. -/
def Walks (s : PushSubscriptionStore) (values : List PushSubscription) : Prop :=
  s.subs.Enumerates (values.map fun sub => (sub.endpoint, sub))

/-! What an operation on one subscription does to the others -/

theorem subs_add_of_ne (s : PushSubscriptionStore) {sub : PushSubscription} {e : String}
    (h : e ≠ sub.endpoint) : (s.add sub).subs e = s.subs e := PMap.insert_of_ne _ _ h

theorem subs_remove_of_ne (s : PushSubscriptionStore) {endpoint e : String} (h : e ≠ endpoint) :
    (s.remove endpoint).subs e = s.subs e := PMap.erase_of_ne _ h

theorem subs_prune_of_notMem (s : PushSubscriptionStore) {dead : List String} {e : String}
    (h : e ∉ dead) : (s.prune dead).subs e = s.subs e := by
  induction dead generalizing s with
  | nil => rfl
  | cons endpoint dead ih =>
    rw [List.mem_cons, not_or] at h
    rw [prune, List.foldl_cons, ← prune, ih _ h.2, subs_remove_of_ne _ h.1]

theorem subs_foldl (values : List PushSubscription) (s : PushSubscriptionStore) :
    (values.foldl add s).subs
      = (values.map fun sub => (sub.endpoint, sub)).foldl (fun m e => m.insert e.1 e.2) s.subs := by
  induction values generalizing s with
  | nil => rfl
  | cons sub values ih => exact ih (s.add sub)

theorem load_values (s : PushSubscriptionStore) {values : List PushSubscription}
    (h : s.Walks values) : load values = s :=
  PushSubscriptionStore.ext ((subs_foldl values empty).trans (PMap.foldl_insert_eq h))

end PushSubscriptionStore

/-- The operations of a `PushSubscriptionStore`. -/
inductive PushOp where
  | add (sub : PushSubscription)
  | remove (endpoint : String)
  | prune (dead : List String)
  deriving DecidableEq, Repr

/-- The push subscriptions.  A write that fails is not noticed. -/
def pushStore (c : StoreCodecs) :
    FileStore PushSubscriptionStore PushOp (List PushSubscription) (List PushSubscription) where
  empty := .empty
  act
    | s, .add sub => s.add sub
    | s, .remove endpoint => s.remove endpoint
    | s, .prune dead => s.prune dead
  writes
    | _, .add _ => true
    | s, .remove endpoint => (s.subs endpoint).isSome
    | _, .prune dead => !dead.isEmpty
  Walks := PushSubscriptionStore.Walks
  out _ values := values
  load := PushSubscriptionStore.load
  load_out s _ h := s.load_values h
  format := c.subscriptions.line id fun _ => rfl

/-! ### Settings -/

/-- `PantokenSettings::default` -/
def PantokenSettings.default : PantokenSettings := ⟨none, none, none⟩

/-- The `next` of `write_pantoken_settings`: a field of the patch, if it has it, else the
current one. -/
def PantokenSettings.patched (current : PantokenSettings) (patch : PartialSettings) :
    PantokenSettings where
  loginShell := (patch.loginShell.orElse fun _ => some current.loginShell).join
  backgroundModel := (patch.backgroundModel.orElse fun _ => some current.backgroundModel).join
  enabledExtensions :=
    (patch.enabledExtensions.orElse fun _ => some current.enabledExtensions).join

/-- `read_pantoken_settings` -/
def readPantokenSettings (c : StoreCodecs) (fails : Bool) :
    Option (List UInt8) → PantokenSettings
  | none => .default
  | some bytes =>
    if fails then .default
    else
      match c.settings.ofBytes bytes with
      | some p => p.flatten
      | none => .default

/-- `write_pantoken_settings`: the settings it returns and the file it leaves. -/
def writePantokenSettings (c : StoreCodecs) (file : Option (List UInt8)) (patch : PartialSettings)
    (fails : Bool) (w : FileWrite) : PantokenSettings × Option (List UInt8) :=
  let next := (readPantokenSettings c fails file).patched patch
  (next, w.leaves (c.settings.toBytes next ++ [10]) file)

/-- The settings.  A write that fails is not noticed. -/
def settingsStore (c : StoreCodecs) : PatchStore PantokenSettings PartialSettings where
  default := .default
  merge := .patched
  format := c.settings.line PartialSettings.flatten PantokenSettings.flatten_asPartial

theorem current_settingsStore (c : StoreCodecs) (fails : Bool) (file : Option (List UInt8)) :
    (settingsStore c).current fails file = readPantokenSettings c fails file := by
  rcases file with _ | bytes
  · rfl
  · cases fails
    · have hread : (settingsStore c).format.read bytes
          = (c.settings.ofBytes bytes).map PartialSettings.flatten := rfl
      rw [PatchStore.current, readPantokenSettings, hread]
      cases c.settings.ofBytes bytes <;> rfl
    · rfl

/-- A change of the settings is `write_pantoken_settings`. -/
theorem step_settingsStore (c : StoreCodecs) (s : PatchStoreState) (patch : PartialSettings)
    (fails : Bool) (w : FileWrite) :
    ((settingsStore c).step s (.update patch fails w)).file
      = (writePantokenSettings c s.file patch fails w).2 := by
  rw [PatchStore.step, current_settingsStore]
  rfl

/-! ### The server -/

/-- What happens to the stores of a server. -/
inductive StoresAct where
  /-- An operation on the worktrees; the values walked if they are written, and how the
  write ends. -/
  | worktrees (o : WorktreeOp) (values : List WorktreeMeta) (w : FileWrite)
  /-- One on the archive. -/
  | archive (o : ArchiveOp) (paths : List String) (w : FileWrite)
  /-- One on the push subscriptions. -/
  | push (o : PushOp) (values : List PushSubscription) (w : FileWrite)
  /-- `write_pantoken_settings`; whether its read fails, and how its write ends. -/
  | writeSettings (patch : PartialSettings) (fails : Bool) (w : FileWrite)
  /-- `read_pantoken_settings`; whether it fails. -/
  | readSettings (fails : Bool)
  /-- The server starts again; which reads of the three files fail. -/
  | restart (worktrees archive push : Bool)

namespace StoresAct

/-- What it is to the worktrees. -/
def onWorktrees : StoresAct → Option (FileStoreAct WorktreeOp (List WorktreeMeta))
  | .worktrees o values w => some (.op o values w)
  | .restart fails _ _ => some (.restart fails)
  | _ => none

/-- What it is to the archive. -/
def onArchive : StoresAct → Option (FileStoreAct ArchiveOp (List String))
  | .archive o paths w => some (.op o paths w)
  | .restart _ fails _ => some (.restart fails)
  | _ => none

/-- What it is to the push subscriptions. -/
def onPush : StoresAct → Option (FileStoreAct PushOp (List PushSubscription))
  | .push o values w => some (.op o values w)
  | .restart _ _ fails => some (.restart fails)
  | _ => none

/-- What it is to the settings. -/
def onSettings : StoresAct → Option (PatchStoreAct PartialSettings)
  | .writeSettings patch fails w => some (.update patch fails w)
  | .readSettings fails => some (.look fails)
  | .restart _ _ _ => some .restart
  | _ => none

end StoresAct

namespace Stores

variable (c : StoreCodecs) (acts : List StoresAct)

/-- Every record is walked once where the records are written. -/
structure Walked : Prop where
  worktrees : Along (worktreeStore c).step (worktreeStore c).Walked (worktreeStore c).init
    (acts.filterMap StoresAct.onWorktrees)
  archive : Along (archiveStore c).step (archiveStore c).Walked (archiveStore c).init
    (acts.filterMap StoresAct.onArchive)
  push : Along (pushStore c).step (pushStore c).Walked (pushStore c).init
    (acts.filterMap StoresAct.onPush)

/-- No start and no read of the settings finds a file that cannot be read or parsed, unless
no write of it was ever completed; and no settings are written after a write of them, in
the same life of the server, that was not completed. -/
structure Keeps : Prop where
  worktrees : Along (worktreeStore c).step (worktreeStore c).Keeps (worktreeStore c).init
    (acts.filterMap StoresAct.onWorktrees)
  archive : Along (archiveStore c).step (archiveStore c).Keeps (archiveStore c).init
    (acts.filterMap StoresAct.onArchive)
  push : Along (pushStore c).step (pushStore c).Keeps (pushStore c).init
    (acts.filterMap StoresAct.onPush)
  settings : Along (settingsStore c).step (settingsStore c).Keeps PatchStore.init
    (acts.filterMap StoresAct.onSettings)

/-- Every store shows at every step the operations in effect: all of them but some of the
last before a restart, and none missing whose write was completed. -/
structure Survive : Prop where
  worktrees : Followed (worktreeStore c).step (worktreeStore c).event (worktreeStore c).Shows
    History.start (worktreeStore c).init (acts.filterMap StoresAct.onWorktrees)
  archive : Followed (archiveStore c).step (archiveStore c).event (archiveStore c).Shows
    History.start (archiveStore c).init (acts.filterMap StoresAct.onArchive)
  push : Followed (pushStore c).step (pushStore c).event (pushStore c).Shows
    History.start (pushStore c).init (acts.filterMap StoresAct.onPush)
  settings : Followed (settingsStore c).step PatchStore.event (settingsStore c).Shows
    History.start PatchStore.init (acts.filterMap StoresAct.onSettings)

/-- **The stores survive every restart and every write that is refused or cut short**, as
long as no read finds a file that it cannot read and no settings are written after some
that were not. -/
theorem survive_of_keeps (hwalked : Walked c acts) (hkeeps : Keeps c acts) : Survive c acts where
  worktrees := (worktreeStore c).followed hwalked.worktrees hkeeps.worktrees
  archive := (archiveStore c).followed hwalked.archive hkeeps.archive
  push := (pushStore c).followed hwalked.push hkeeps.push
  settings := (settingsStore c).followed hkeeps.settings

set_option maxRecDepth 20000 in
/-- A server whose first archive is cut short, and that starts twice, a write of each kind
being refused in between. -/
theorem survive_two_lives :
    Survive .pretty
      [.worktrees (.add ⟨"/wt-a", "/repo", .jj, "wt-a"⟩) [⟨"/wt-a", "/repo", .jj, "wt-a"⟩] .done,
        .archive (.set "/s" true) ["/s"] (.cut 0),
        .push (.add ⟨"/e", "key", "auth"⟩) [⟨"/e", "key", "auth"⟩] .done,
        .writeSettings ⟨some (some "/bin/zsh"), none, none⟩ false .done,
        .restart false true false,
        .worktrees (.markReaped "/wt-a") [⟨"/wt-a", "/repo", .jj, "wt-a"⟩] .refused,
        .archive (.set "/t" true) ["/t"] .done,
        .push (.remove "/e") [] .refused,
        .writeSettings ⟨none, some (some "sonnet"), none⟩ false .refused,
        .restart false false false,
        .readSettings false] := by
  refine survive_of_keeps _ _
    ⟨⟨?_, trivial, ?_, trivial, trivial⟩, ⟨?_, trivial, ?_, trivial, trivial⟩,
      ⟨?_, trivial, ?_, trivial, trivial⟩⟩
    ⟨⟨trivial, ?_, trivial, ?_, trivial⟩, ⟨trivial, ?_, trivial, ?_, trivial⟩,
      ⟨trivial, ?_, trivial, ?_, trivial⟩,
      ⟨⟨?_, rfl⟩, trivial, ⟨?_, rfl⟩, trivial, ?_, trivial⟩⟩
  · exact fun _ => PMap.enumerates_empty.insert "/wt-a" _
  · intro _
    rw [(worktreeStore .pretty).mem_restart_of_text ((worktreeStore .pretty).file_done rfl _)]
    exact PMap.enumerates_empty.insert "/wt-a" _
  · exact fun _ => ArchiveStore.walks_empty.set rfl
  · exact fun _ => ArchiveStore.walks_empty.set rfl
  · exact fun _ => PMap.enumerates_empty.insert "/e" _
  · intro _
    rw [(pushStore .pretty).mem_restart_of_text ((pushStore .pretty).file_done rfl _)]
    exact (PMap.enumerates_empty.insert "/e" _).erase "/e"
  -- the files
  · exact (worktreeStore .pretty).keeps_restart_of_text ((worktreeStore .pretty).file_done rfl _)
  · exact (worktreeStore .pretty).keeps_restart_of_text
      (((worktreeStore .pretty).file_refused _ _ _).trans
        (((worktreeStore .pretty).file_restart _ _).trans
          ((worktreeStore .pretty).file_done rfl _)))
  · rintro bytes ⟨rfl⟩
    exact .inr ⟨rfl, rfl⟩
  · exact (archiveStore .pretty).keeps_restart_of_text ((archiveStore .pretty).file_done rfl _)
  · exact (pushStore .pretty).keeps_restart_of_text ((pushStore .pretty).file_done rfl _)
  · exact (pushStore .pretty).keeps_restart_of_text
      (((pushStore .pretty).file_refused _ _ _).trans
        (((pushStore .pretty).file_restart _ _).trans ((pushStore .pretty).file_done rfl _)))
  · intro bytes hbytes
    cases hbytes
  · exact (settingsStore .pretty).reads_of_text rfl
  · exact (settingsStore .pretty).reads_of_text rfl

/-- **A read that fails once empties the archive**, and the next session archived takes the
place of the one whose write had been completed. -/
theorem not_survive :
    let acts : List StoresAct :=
      [.archive (.set "/a" true) ["/a"] .done, .restart false true false,
        .archive (.set "/b" true) ["/b"] .done, .restart false false false]
    Walked .pretty acts ∧ ¬ Survive .pretty acts := by
  refine ⟨⟨⟨trivial, trivial, trivial⟩, ⟨?_, trivial, ?_, trivial, trivial⟩,
    ⟨trivial, trivial, trivial⟩⟩, fun hs => ?_⟩
  · exact fun _ => ArchiveStore.walks_empty.set rfl
  · exact fun _ => ArchiveStore.walks_empty.set rfl
  · obtain ⟨_, rfl, _, _, ⟨k, hk, rfl⟩, ⟨hmem, _⟩, _⟩ := hs.archive
    have hk' : 1 ≤ k := hk
    have htake : [ArchiveOp.set "/a" true].take k = [.set "/a" true] :=
      List.take_of_length_le hk'
    -- the memory has no session, the operations in effect archive one
    have hhas : ArchiveStore.empty.has "/a"
        = ((archiveStore .pretty).after ([ArchiveOp.set "/a" true].take k)).has "/a" :=
      congrArg (ArchiveStore.has · "/a") hmem
    rw [htake] at hhas
    exact absurd hhas (by decide)

end Stores

end Pantoken
