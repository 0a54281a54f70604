import Pantoken.Lib.Run
import Pantoken.Server.Applier
import Pantoken.Server.Indices

/-!
# Removing worktrees

A worktree is removed when its session is archived, when the user asks for it, and when the
session it was created for cannot be started.  A command of `jj` or `git` does it, for `jj`
the directory is deleted afterwards, and the index then marks the worktree as reaped.  A
session that cannot be started marks its worktree whatever came of the removal.

## Main definitions

* `planWorktreeRemoval`, `Effects`, `remove` — a removal, and what it finds.
* `Worktrees`, `Worktrees.step` — the index and the operations on worktrees that wait for
  a command, in any order.
* `Worktrees.ReapedIffGone` — the reaped worktrees are those a removal reported removed.
* `Worktrees.Keeps` — no session that cannot be started fails to remove its worktree.

## Main results

* `reportsRemoved_remove_iff` — when a removal reports the worktree removed.
* `Worktrees.along_keeps_iff` — **the index is right in every state of a run exactly when no
  session that cannot be started fails to remove its worktree.**
* `Worktrees.not_reapedIffGone` — a worktree that is there and counts as reaped.
-/

namespace Pantoken

/-! ### One removal -/

/-- `Output`, its texts as `from_utf8_lossy` reads them. -/
structure CommandOutput where
  success : Bool
  /-- The exit status, as it is displayed. -/
  status : String
  stdout : String
  stderr : String
  deriving DecidableEq, Repr

/-- What `remove_dir_all` comes to. -/
inductive DirRemoval where
  | removed
  | notFound
  | failed (err : String)
  deriving DecidableEq, Repr

/-- What a removal finds. -/
structure Effects where
  /-- What the command of `is_clean` gives, if it can be run. -/
  status : Except String CommandOutput
  /-- What the command of the plan gives. -/
  command : Except String CommandOutput
  dir : DirRemoval

structure WorktreeRemovalPlan where
  command : String
  args : List String
  removeDir : Bool
  deriving DecidableEq, Repr

structure RemoveResult where
  removed : Bool
  reason : Option String
  deriving DecidableEq, Repr

/-- `plan_worktree_removal` -/
def planWorktreeRemoval (m : WorktreeMeta) (force : Bool) : WorktreeRemovalPlan :=
  match m.vcs with
  | .jj => ⟨"jj", ["-R", m.base, "workspace", "forget", m.name], true⟩
  | .git =>
    ⟨"git", ["-C", m.base, "worktree", "remove"] ++ (if force then ["--force"] else []) ++
      [m.path], false⟩

/-- `is_clean` -/
def isClean : Except String CommandOutput → Bool
  | .ok output => output.success && Server.trim output.stdout = ""
  | .error _ => false

/-- `run` -/
def runCommand (command : String) (args : List String) :
    Except String CommandOutput → Except String Unit
  | .error err => .error s!"failed to run {command}: {err}"
  | .ok output =>
    if output.success then .ok ()
    else
      let stderr := Server.trim output.stderr
      let detail := if stderr ≠ "" then stderr else Server.trim output.stdout
      let colon := if detail = "" then "" else ": "
      let joined := " ".intercalate args
      let status := output.status
      .error s!"{command} {joined} failed with status {status}{colon}{detail}"

/-- `remove` -/
def remove (m : WorktreeMeta) (force : Bool) (e : Effects) : Except String RemoveResult :=
  if !force && !isClean e.status then .ok ⟨false, some "worktree has uncommitted changes"⟩
  else
    let plan := planWorktreeRemoval m force
    match runCommand plan.command plan.args e.command, plan.removeDir, e.dir with
    | .error err, _, _ => .error err
    | .ok (), true, .failed err =>
      let path := m.path
      .error s!"failed to remove {path}: {err}"
    | .ok (), _, _ => .ok ⟨true, none⟩

/-- The removal reports the worktree removed, or not there any more. -/
def reportsRemoved : Except String RemoveResult → Bool
  | .ok res => res.removed
  | .error _ => false

/-- Nothing is in the way of a removal. -/
structure Effects.Clears (m : WorktreeMeta) (force : Bool) (e : Effects) : Prop where
  clean : force = true ∨ isClean e.status = true
  command : ∃ output, e.command = .ok output ∧ output.success = true
  dir : m.vcs = .jj → ∀ err, e.dir ≠ .failed err

theorem runCommand_ok_iff {command : String} {args : List String}
    {r : Except String CommandOutput} :
    runCommand command args r = .ok () ↔ ∃ output, r = .ok output ∧ output.success = true := by
  rcases r with err | output
  · exact iff_of_false (fun h => by cases h) (fun ⟨_, h, _⟩ => by cases h)
  · rw [runCommand]
    split_ifs with hs
    · exact iff_of_true rfl ⟨output, rfl, hs⟩
    · refine iff_of_false (fun h => by cases h) ?_
      rintro ⟨_, ⟨rfl⟩, h⟩
      exact hs h

/-- **When a removal reports the worktree removed.** -/
theorem reportsRemoved_remove_iff (m : WorktreeMeta) (force : Bool) (e : Effects) :
    reportsRemoved (remove m force e) = true ↔ e.Clears m force := by
  have hjj : (planWorktreeRemoval m force).removeDir = true ↔ m.vcs = .jj := by
    cases hv : m.vcs <;> simp [planWorktreeRemoval, hv]
  unfold remove
  dsimp only
  split
  · rename_i hdirty
    refine iff_of_false (fun h => by cases h) fun h => ?_
    rcases h.clean with hclean | hclean <;> simp [hclean] at hdirty
  · rename_i hclean
    have hforce : force = true ∨ isClean e.status = true := by
      cases force
      · exact .inr (by simpa using hclean)
      · exact .inl rfl
    split
    · rename_i herr
      refine iff_of_false (fun h => by cases h) fun h => ?_
      rw [runCommand_ok_iff.mpr h.command] at herr
      cases herr
    · rename_i err _ hdir hfailed
      refine iff_of_false (fun h => by cases h) fun h => ?_
      exact h.dir (hjj.mp hdir) err hfailed
    · rename_i hok hdir
      refine iff_of_true rfl ⟨hforce, runCommand_ok_iff.mp hok, fun hv err hfailed => ?_⟩
      exact hdir err (hjj.mpr hv) hfailed

/-! ### The index -/

namespace WorktreeStore

variable (s : WorktreeStore)

theorem byPath_markReaped (path : String) : (s.markReaped path).byPath = s.byPath := by
  unfold markReaped
  split <;> rfl

theorem isReaped_markReaped {path : String} (h : (s.byPath path).isSome) (p : String) :
    (s.markReaped path).isReaped p = if p = path then true else s.isReaped p := by
  unfold markReaped
  split
  · rfl
  · rename_i hmarks
    have hreaped : s.reaped path = true := by simpa [marks, h] using hmarks
    split
    · subst p
      exact hreaped
    · rfl

theorem isSome_add {m : WorktreeMeta} {p : String} (h : (s.byPath p).isSome) :
    ((s.add m).byPath p).isSome := isSome_insert m h

theorem isSome_add_self (m : WorktreeMeta) : ((s.add m).byPath m.path).isSome := by
  have hself : s.byPath.insert m.path m m.path = some m := PMap.insert_self _ _ _
  exact Option.isSome_of_eq_some hself

theorem live_eq_some {path : String} {m : WorktreeMeta} (h : s.live path = some m) :
    m.path = path ∧ (s.byPath path).isSome := by
  unfold live at h
  split at h
  · cases h
  · exact ⟨s.path_eq path m h, by rw [h]; rfl⟩

end WorktreeStore

/-! ### Operations -/

inductive ReapOutcome where
  /-- No live worktree at this path. -/
  | noWorktree
  /-- The worktree was removed and marked. -/
  | reaped
  /-- The worktree was left in place. -/
  | retained (reason : String)
  deriving DecidableEq, Repr

/-- What the client is told. -/
inductive WorktreeReply where
  /-- `WorktreeCleanupResult` -/
  | cleanup (removed : Bool) (reason : Option String)
  /-- `ArchiveResult`: the path of a retained worktree, and why it was retained. -/
  | archive (worktreeRetained : Option (String × String))
  | newSession (result : Except String Unit)

/-- Who reaps. -/
inductive Reaper where
  | cleanupWorktree
  | setArchived
  deriving DecidableEq, Repr

/-- The results of `cleanup_worktree` and `set_archived`. -/
def Reaper.reply (cwd : String) : Reaper → ReapOutcome → WorktreeReply
  | .cleanupWorktree, .noWorktree => .cleanup false (some "no pantoken worktree at this path")
  | .cleanupWorktree, .reaped => .cleanup true none
  | .cleanupWorktree, .retained reason => .cleanup false (some reason)
  | .setArchived, .retained reason => .archive (some (cwd, reason))
  | .setArchived, _ => .archive none

/-- `reap_worktree`, after the removal. -/
def reapWorktree (store : WorktreeStore) (cwd : String) :
    Except String RemoveResult → WorktreeStore × ReapOutcome
  | .ok res =>
    if res.removed then (store.markReaped cwd, .reaped)
    else (store, .retained (res.reason.getD "uncommitted changes"))
  | .error e => (store, .retained e)

/-- An operation that waits. -/
inductive WorktreeJob where
  /-- `reap_worktree`, for its removal. -/
  | reap (m : WorktreeMeta) (cwd : String) (force : Bool) (reaper : Reaper)
  /-- `new_session`, for the session; the worktree created for it. -/
  | warming (created : Option WorktreeMeta)
  /-- `new_session`, for the removal after an error. -/
  | discard (m : WorktreeMeta) (err : String)
  deriving DecidableEq, Repr

structure Worktrees where
  store : WorktreeStore
  jobs : List WorktreeJob
  replies : List WorktreeReply
  /-- The paths at which a removal reported the worktree removed, and none was created since.
  No part of the program. -/
  gone : String → Bool

inductive WorktreesAct where
  /-- `cleanup_worktree`; whether a warm session has the path as its directory. -/
  | cleanup (path : String) (force active : Bool)
  /-- `set_archived`; the directory of the session, if it is found. -/
  | setArchived (archived : Bool) (cwd : Option String)
  /-- `new_session` in a directory; what `create` comes to, if a worktree is asked for, and
  whether the index can be written. -/
  | newSession (created : Option (Except String WorktreeMeta)) (written : Bool)
  /-- The session of an operation is there, or cannot be started. -/
  | warmed (i : ℕ) (result : Except String Unit)
  /-- The removal of an operation ends. -/
  | removed (i : ℕ) (e : Effects)

namespace Worktrees

def start (store : WorktreeStore) : Worktrees := ⟨store, [], [], store.isReaped⟩

def reply (s : Worktrees) (r : WorktreeReply) : Worktrees := { s with replies := s.replies ++ [r] }

/-- The operation is over. -/
def finish (s : Worktrees) (i : ℕ) : Worktrees := { s with jobs := s.jobs.eraseIdx i }

/-- `reap_worktree`, up to its removal. -/
def startReap (s : Worktrees) (cwd : String) (force : Bool) (reaper : Reaper) : Worktrees :=
  match s.store.live cwd with
  | none => s.reply (reaper.reply cwd .noWorktree)
  | some m => { s with jobs := s.jobs ++ [.reap m cwd force reaper] }

/-- What a removal says about the worktree at a path. -/
def heard (s : Worktrees) (path : String) (r : Except String RemoveResult) : String → Bool :=
  fun p => if p = path then reportsRemoved r || s.gone p else s.gone p

def step (s : Worktrees) : WorktreesAct → Worktrees
  | .cleanup path force active =>
    if active then s.reply (.cleanup false (some "session is active"))
    else s.startReap path force .cleanupWorktree
  | .setArchived archived cwd =>
    match archived, cwd with
    | true, some cwd => s.startReap cwd false .setArchived
    | _, _ => s.reply (.archive none)
  | .newSession created written =>
    match created with
    | none => { s with jobs := s.jobs ++ [.warming none] }
    | some (.error err) => s.reply (.newSession (.error err))
    | some (.ok m) =>
      -- `add` panics where it cannot write
      { s with
        store := s.store.add m
        gone := fun p => if p = m.path then false else s.gone p
        jobs := if written then s.jobs ++ [.warming (some m)] else s.jobs }
  | .warmed i result =>
    match s.jobs[i]?, result with
    | some (.warming _), .ok () => (s.finish i).reply (.newSession (.ok ()))
    | some (.warming none), .error err => (s.finish i).reply (.newSession (.error err))
    | some (.warming (some m)), .error err => { s with jobs := s.jobs.set i (.discard m err) }
    | _, _ => s
  | .removed i e =>
    match s.jobs[i]? with
    | some (.reap m cwd force reaper) =>
      let r := remove m force e
      let out := reapWorktree s.store cwd r
      { s.finish i with
        store := out.1
        gone := s.heard m.path r
        replies := s.replies ++ [reaper.reply cwd out.2] }
    | some (.discard m err) =>
      -- the result of the removal is logged
      { s.finish i with
        store := s.store.markReaped m.path
        gone := s.heard m.path (remove m true e)
        replies := s.replies ++ [.newSession (.error err)] }
    | _ => s

/-- **The reaped worktrees are those that a removal reported removed**, or not there. -/
def ReapedIffGone (s : Worktrees) : Prop :=
  ∀ p m, s.store.get p = some m → s.store.isReaped p = s.gone p

/-- No session that cannot be started fails to remove its worktree, unless another removal
did. -/
def Keeps (s : Worktrees) : WorktreesAct → Prop
  | .removed i e =>
    match s.jobs[i]? with
    | some (.discard m _) => e.Clears m true ∨ s.gone m.path = true
    | _ => True
  | _ => True

/-! ### Waiting operations -/

/-- The index has the worktree of a waiting operation. -/
def JobKnown (store : WorktreeStore) : WorktreeJob → Prop
  | .reap m cwd _ _ => m.path = cwd ∧ (store.byPath cwd).isSome
  | .warming created => ∀ m, created = some m → (store.byPath m.path).isSome
  | .discard m _ => (store.byPath m.path).isSome

def Known (s : Worktrees) : Prop := ∀ job ∈ s.jobs, JobKnown s.store job

/-- The invariant of a run whose steps keep to the condition. -/
structure Sound (s : Worktrees) : Prop where
  reapedIffGone : s.ReapedIffGone
  known : s.Known

variable {s s' : Worktrees}

theorem JobKnown.mono {store store' : WorktreeStore} {job : WorktreeJob}
    (hle : ∀ p, (store.byPath p).isSome → (store'.byPath p).isSome) (h : JobKnown store job) :
    JobKnown store' job := by
  cases job with
  | reap m cwd force reaper => exact ⟨h.1, hle _ h.2⟩
  | warming created => exact fun m hm => hle _ (h m hm)
  | discard m err => exact hle _ h

/-- The waiting operations after a change of the index that drops no record. -/
theorem Known.of_le (h : s.Known)
    (hle : ∀ p, (s.store.byPath p).isSome → (s'.store.byPath p).isSome)
    (hjobs : ∀ job ∈ s'.jobs, job ∈ s.jobs ∨ JobKnown s'.store job) : s'.Known := by
  intro job hjob
  rcases hjobs job hjob with hold | hnew
  · exact (h job hold).mono hle
  · exact hnew

/-- One more waits. -/
theorem Known.concat (h : s.Known) {job : WorktreeJob} (hjob : JobKnown s.store job) :
    Known { s with jobs := s.jobs ++ [job] } := by
  refine h.of_le (fun _ => id) fun job' hjob' => ?_
  rcases List.mem_append.mp hjob' with hold | hnew
  · exact .inl hold
  · exact .inr (List.mem_singleton.mp hnew ▸ hjob)

theorem Known.finish (h : s.Known) (i : ℕ) : (s.finish i).Known :=
  fun job hjob => h job (List.mem_of_mem_eraseIdx hjob)

theorem Known.startReap (h : s.Known) (cwd : String) (force : Bool) (reaper : Reaper) :
    (s.startReap cwd force reaper).Known := by
  unfold Worktrees.startReap
  split
  · exact h
  · rename_i m hlive
    exact h.concat (s.store.live_eq_some hlive)

/-- A worktree is created. -/
theorem ReapedIffGone.add (h : s.ReapedIffGone) {m : WorktreeMeta}
    (hstore : s'.store = s.store.add m)
    (hgone : ∀ p, s'.gone p = if p = m.path then false else s.gone p) : s'.ReapedIffGone := by
  intro p m' hp
  rw [hgone]
  by_cases hpath : p = m.path
  · have hreaped : (s.store.add m).isReaped p = false := if_pos hpath
    rw [hstore, hreaped, if_pos hpath]
  · obtain ⟨hget, hreaped⟩ := s.store.get_add_of_ne hpath
    rw [hstore, hget] at hp
    rw [hstore, hreaped, if_neg hpath]
    exact h p m' hp

/-- **A worktree is marked**: that is right where its removal reported it removed, or one
before it did. -/
theorem ReapedIffGone.markReaped_iff (h : s.ReapedIffGone) {path : String}
    {r : Except String RemoveResult} (hpath : (s.store.byPath path).isSome)
    (hstore : s'.store = s.store.markReaped path) (hgone : s'.gone = s.heard path r) :
    s'.ReapedIffGone ↔ reportsRemoved r = true ∨ s.gone path = true := by
  have hget : s'.store.get = s.store.get := by
    rw [hstore]
    exact s.store.byPath_markReaped path
  have hreaped p : s'.store.isReaped p = if p = path then true else s.store.isReaped p := by
    rw [hstore]
    exact s.store.isReaped_markReaped hpath p
  constructor
  · -- the mark of that worktree is the only one that changes
    intro h'
    obtain ⟨m, hm⟩ := Option.isSome_iff_exists.mp hpath
    have := h' path m ((congrFun hget path).trans hm)
    rw [hreaped, if_pos rfl, hgone, heard, if_pos rfl] at this
    exact Bool.or_eq_true_iff.mp this.symm
  · intro hr p m hp
    rw [hreaped, hgone, heard]
    split
    · exact (Bool.or_eq_true_iff.mpr (by subst p; exact hr)).symm
    · exact h p m ((congrFun hget p).symm.trans hp)

/-- A removal that is refused or fails changes nothing. -/
theorem heard_of_not {path : String} {r : Except String RemoveResult}
    (hr : reportsRemoved r = false) : s.heard path r = s.gone := by
  funext p
  rw [heard, hr, Bool.false_or, ite_self]

/-- `reap_worktree` marks the worktree exactly where its removal reported it removed. -/
theorem reapWorktree_fst (store : WorktreeStore) (cwd : String)
    (r : Except String RemoveResult) : (reapWorktree store cwd r).1
      = if reportsRemoved r then store.markReaped cwd else store := by
  rcases r with err | res
  · rfl
  · unfold reapWorktree reportsRemoved
    dsimp only
    split <;> rfl

theorem byPath_reapWorktree (store : WorktreeStore) (cwd : String)
    (r : Except String RemoveResult) : (reapWorktree store cwd r).1.byPath = store.byPath := by
  rw [reapWorktree_fst]
  split
  · exact store.byPath_markReaped cwd
  · rfl

theorem Known.step (h : s.Known) (a : WorktreesAct) : (s.step a).Known := by
  cases a with
  | cleanup path force active =>
    unfold Worktrees.step
    dsimp only
    split
    · exact h
    · exact h.startReap path force .cleanupWorktree
  | setArchived archived cwd =>
    unfold Worktrees.step
    dsimp only
    split
    · exact h.startReap _ false .setArchived
    · exact h
  | newSession created written =>
    rcases created with _ | err | m
    · have hnone : JobKnown s.store (.warming none) := fun m hm => by cases hm
      exact h.concat hnone
    · exact h
    · have hadd : Known { s with store := s.store.add m } :=
        h.of_le (fun _ => s.store.isSome_add) fun _ => .inl
      cases written with
      | false => exact hadd
      | true =>
        have hnew : JobKnown (s.store.add m) (.warming (some m)) := by
          rintro _ ⟨rfl⟩
          exact s.store.isSome_add_self m
        exact hadd.concat hnew
  | warmed i result =>
    unfold Worktrees.step
    dsimp only
    split
    · exact h.finish i
    · exact h.finish i
    · rename_i m err hi
      refine h.of_le (fun _ => id) fun job hjob => ?_
      rcases List.mem_or_eq_of_mem_set hjob with hold | rfl
      · exact .inl hold
      · exact .inr (h _ (List.mem_of_getElem? hi) m rfl)
    · exact h
  | removed i e =>
    unfold Worktrees.step
    dsimp only
    split
    · refine (h.finish i).of_le (fun p hp => ?_) fun _ => .inl
      rwa [byPath_reapWorktree]
    · refine (h.finish i).of_le (fun p hp => ?_) fun _ => .inl
      rwa [WorktreeStore.byPath_markReaped]
    · exact h

/-- The end of `reap_worktree`. -/
theorem ReapedIffGone.reap (h : s.ReapedIffGone) {path : String}
    {r : Except String RemoveResult} (hpath : (s.store.byPath path).isSome)
    (hstore : s'.store = (reapWorktree s.store path r).1) (hgone : s'.gone = s.heard path r) :
    s'.ReapedIffGone := by
  rw [reapWorktree_fst] at hstore
  cases hr : reportsRemoved r with
  | false =>
    rw [hr, if_neg (by decide)] at hstore
    rw [heard_of_not hr] at hgone
    unfold ReapedIffGone
    rw [hstore, hgone]
    exact h
  | true =>
    rw [hr, if_pos rfl] at hstore
    exact (h.markReaped_iff hpath hstore hgone).mpr (.inl hr)

/-- **A step keeps a right index right exactly when it meets the condition.** -/
theorem Sound.step_iff (h : s.Sound) (a : WorktreesAct) :
    s.Keeps a ↔ (s.step a).ReapedIffGone := by
  cases a with
  | cleanup path force active =>
    refine iff_of_true trivial ?_
    unfold step startReap
    dsimp only
    split
    · exact h.reapedIffGone
    · split <;> exact h.reapedIffGone
  | setArchived archived cwd =>
    refine iff_of_true trivial ?_
    unfold step startReap
    dsimp only
    split
    · split <;> exact h.reapedIffGone
    · exact h.reapedIffGone
  | newSession created written =>
    refine iff_of_true trivial ?_
    rcases created with _ | err | m
    · exact h.reapedIffGone
    · exact h.reapedIffGone
    · exact h.reapedIffGone.add (m := m) rfl fun _ => rfl
  | warmed i result =>
    refine iff_of_true trivial ?_
    unfold step
    dsimp only
    split <;> exact h.reapedIffGone
  | removed i e =>
    have hknown job (hi : s.jobs[i]? = some job) := h.known job (List.mem_of_getElem? hi)
    unfold Keeps step
    dsimp only
    rcases hi : s.jobs[i]? with _ | ⟨m, cwd, force, reaper⟩ | created | ⟨m, err⟩
    · exact iff_of_true trivial h.reapedIffGone
    · obtain ⟨rfl, hpath⟩ := hknown _ hi
      exact iff_of_true trivial (h.reapedIffGone.reap hpath rfl rfl)
    · exact iff_of_true trivial h.reapedIffGone
    · -- the worktree is marked whatever the removal reports
      dsimp only
      rw [← reportsRemoved_remove_iff]
      exact (h.reapedIffGone.markReaped_iff (hknown _ hi) rfl rfl).symm

theorem sound_start (store : WorktreeStore) : (start store).Sound :=
  ⟨fun _ _ _ => rfl, fun _ hjob => absurd hjob List.not_mem_nil⟩

/-- **The index is right in every state of a run exactly when no session that cannot be
started fails to remove its worktree.** -/
theorem along_keeps_iff (store : WorktreeStore) (acts : List WorktreesAct) :
    Along step Keeps (start store) acts ↔
      ∀ pre, pre <+: acts → (pre.foldl step (start store)).ReapedIffGone :=
  along_iff_forall_part_of
    (fun _ a h hkeeps => Sound.mk ((h.step_iff a).mp hkeeps) (h.known.step a))
    (fun _ h => h.reapedIffGone) (fun _ a h => (h.step_iff a).mpr) (sound_start store) acts

/-- **A worktree is there and counts as reaped**: its session cannot be started, and `git` does
not remove it. -/
theorem not_reapedIffGone :
    let m : WorktreeMeta := ⟨"/wt/repo/pantoken-calm-otter", "/repo", .git, "pantoken-calm-otter"⟩
    let s := [.newSession (some (.ok m)) true, .warmed 0 (.error "spawn failed"),
      .removed 0 ⟨.error "", .ok ⟨false, "exit status: 128", "", "fatal: locked"⟩, .removed⟩].foldl
        step (start .empty)
    s.store.isReaped m.path = true ∧ s.gone m.path = false ∧ ¬ s.ReapedIffGone := by
  refine ⟨rfl, rfl, fun h => ?_⟩
  exact absurd (h "/wt/repo/pantoken-calm-otter" _ rfl) (by decide)

end Worktrees

end Pantoken
