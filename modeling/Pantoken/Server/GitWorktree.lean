import Pantoken.Lib.CommitGraph
import Pantoken.Lib.PMap
import Pantoken.Lib.WorkTree
import Pantoken.Server.WorktreePlan
import Pantoken.Server.Worktrees

/-!
# Removing the worktree of a git repository

A worktree has its own HEAD, which is detached at first, and shares the branches of its repository.
It is removed when `git status` reports nothing and `git worktree remove` succeeds; its HEAD is gone
with it, and so are the commits that no branch and no other HEAD reaches.  The command may also fail
when it has deleted a part of the worktree.

## Main definitions

* `GitWorktree`, `GitWorktree.step` — a worktree in its repository, and what is done in it.
* `GitWorktree.created` — the worktree that `create` makes.
* `GitWorktree.Lossless` — a removal that is reported keeps files and commits, and one that fails
  leaves the worktree as it was or can be finished.
* `GitWorktree.Safe` — the condition on the state before it, and on what a failure leaves.

## Main results

* `GitWorktree.isClean_status` — when the worktree is found clean.
* `GitWorktree.safe_iff_lossless` — **a step is lossless exactly when it is safe.**
* `GitWorktree.along_safe_iff` — **so is every run in a worktree that was created.**
* `GitWorktree.not_lossless` — a clean worktree whose commit is lost.
-/

namespace Pantoken

open WorkTree

/-! ### What a command comes to -/

/-- How a command fails. -/
inductive CommandFault where
  /-- It cannot be run. -/
  | spawn (err : String)
  | exit (status stdout stderr : String)

def CommandFault.result : CommandFault → Except String CommandOutput
  | .spawn err => .error err
  | .exit status stdout stderr => .ok ⟨false, status, stdout, stderr⟩

theorem CommandFault.isClean_result (fault : CommandFault) : isClean fault.result = false := by
  cases fault <;> rfl

theorem CommandFault.not_success (fault : CommandFault) :
    ¬ ∃ output, fault.result = .ok output ∧ output.success = true := by
  rintro ⟨output, h, hsuccess⟩
  cases fault with
  | spawn err => cases h
  | exit status stdout stderr =>
    cases h
    cases hsuccess

/-- A command that succeeds. -/
def succeeded (stdout : String) : Except String CommandOutput :=
  .ok ⟨true, "exit status: 0", stdout, ""⟩

/-- A text without anything but blanks. -/
theorem trim_eq_empty_iff {s : String} :
    Server.trim s = "" ↔ ∀ c ∈ s.toList, Cut.isWhitespace c = true := by
  rw [Server.trim, String.ofList_eq_empty_iff, Cut.trim_eq_nil_iff]

theorem isClean_succeeded {stdout : String} :
    isClean (succeeded stdout) = true ↔ ∀ c ∈ stdout.toList, Cut.isWhitespace c = true := by
  rw [← trim_eq_empty_iff]
  simp [isClean, succeeded]

/-! ### The worktree -/

abbrev SourceFiles := Files String String

abbrev SourceCommit := Commit SourceFiles

/-- How a commit is named. -/
inductive GitRev where
  | head
  | branch (name : String)
  /-- The HEAD of another worktree. -/
  | other (i : ℕ)
  /-- A commit that was made here, by its hash. -/
  | made (i : ℕ)
  | parent (rev : GitRev) (i : ℕ)

/-- What a removal that fails has left. -/
structure Leftover where
  keeps : String → Bool
  /-- The directory is there. -/
  present : Bool
  /-- The repository has the worktree in its list. -/
  registered : Bool

/-- What fails in a removal. -/
structure GitFaults where
  status : Option CommandFault
  command : Option CommandFault
  /-- Where the command fails after it started. -/
  left : Leftover

inductive GitAct where
  /-- A file is written, or deleted. -/
  | write (path : String) (content : Option String)
  /-- The files at some paths are committed; the commits that are merged. -/
  | commit (paths : List String) (merged : List GitRev)
  /-- `git checkout --detach` -/
  | detach (rev : GitRev)
  /-- `git switch` -/
  | switch (name : String)
  /-- `git switch --create` -/
  | create (name : String)
  /-- `remove` -/
  | remove (force : Bool) (faults : GitFaults)

structure GitWorktree where
  record : WorktreeMeta
  vcs_eq : record.vcs = .git
  branches : PMap String SourceCommit
  /-- The HEADs of the repository and its other worktrees. -/
  others : List SourceCommit
  head : SourceCommit
  /-- The branch HEAD is on. -/
  branch : Option String
  work : SourceFiles
  present : Bool
  registered : Bool
  /-- The commits made here.  No part of the repository. -/
  made : List SourceCommit
  /-- The worktree was reported removed. -/
  gone : Bool

namespace GitWorktree

/-- What the repository reaches without this worktree. -/
def Root (s : GitWorktree) (c : SourceCommit) : Prop :=
  (∃ name, s.branches name = some c) ∨ c ∈ s.others

def Anchored (s : GitWorktree) (c : SourceCommit) : Prop := c.Reached s.Root

def resolve (s : GitWorktree) : GitRev → Option SourceCommit
  | .head => some s.head
  | .branch name => s.branches name
  | .other i => s.others[i]?
  | .made i => s.made[i]?
  | .parent rev i => (s.resolve rev).bind (·.parents[i]?)

/-- Commands of git run in the worktree. -/
def usable (s : GitWorktree) : Bool := s.present && s.registered

def commit (s : GitWorktree) (paths : List String) (merged : List SourceCommit) : GitWorktree :=
  let c := .mk (take paths s.work s.head.tree) (s.head :: merged)
  { s with
    head := c
    made := c :: s.made
    branches := match s.branch with
      | some name => s.branches.insert name c
      | none => s.branches }

/-- HEAD is set to a commit, unless a changed file is in the way. -/
def checkout (s : GitWorktree) (c : SourceCommit) (branch : Option String) : GitWorktree :=
  match checkOut s.head.tree c.tree s.work with
  | some work => { s with head := c, branch, work }
  | none => s

variable (ignored : String → Bool)

/-! ### Removal -/

/-- A line of `git status --porcelain`. -/
def porcelainLine (tree work : SourceFiles) (path : String) : String :=
  (match tree.lookup path, work.lookup path with
    | none, _ => "?? "
    | some _, none => " D "
    | some _, some _ => " M ") ++ path ++ "\n"

/-- `git status --porcelain` -/
def status (s : GitWorktree) : Option CommandFault → Except String CommandOutput
  | some fault => fault.result
  | none =>
    if s.usable then
      succeeded (String.join ((changed ignored s.head.tree s.work).map
        (porcelainLine s.head.tree s.work)))
    else .ok ⟨false, "exit status: 128", "", "fatal: not a git repository"⟩

/-- `git worktree remove` refuses what is not in the list, and a changed worktree. -/
def refuses (s : GitWorktree) (force : Bool) : Bool :=
  !s.registered || (!force && s.present && !(changed ignored s.head.tree s.work).isEmpty)

/-- `git worktree remove` -/
def command (s : GitWorktree) (force : Bool) : Option CommandFault → Except String CommandOutput
  | some fault => fault.result
  | none =>
    if s.refuses ignored force then .ok ⟨false, "exit status: 128", "", "fatal: not removed"⟩
    else succeeded ""

def effects (s : GitWorktree) (force : Bool) (f : GitFaults) : Effects where
  status := s.status ignored f.status
  command := s.command ignored force f.command
  dir := .notFound

/-- What `remove` returns. -/
def removal (s : GitWorktree) (force : Bool) (f : GitFaults) : Except String RemoveResult :=
  remove s.record force (s.effects ignored force f)

/-- A removal that stopped in the middle. -/
def leave (s : GitWorktree) (left : Leftover) : GitWorktree :=
  { s with
    work := s.work.filter fun file => left.keeps file.1
    present := left.present
    registered := left.registered }

def deleted (s : GitWorktree) : GitWorktree :=
  { s with work := [], present := false, registered := false, gone := true }

/-- What the commands of `remove` do. -/
def afterRemoval (s : GitWorktree) (force : Bool) (f : GitFaults) : GitWorktree :=
  if !force && !isClean (s.status ignored f.status) then s
  else if s.refuses ignored force then s
  else
    match f.command with
    | none => s.deleted
    | some (.spawn _) => s
    | some (.exit ..) => s.leave f.left

/-- A worktree that was removed is not live any more, and nothing is done to it. -/
def step (s : GitWorktree) : GitAct → GitWorktree
  | .write path content => if s.present then { s with work := write s.work path content } else s
  | .commit paths merged =>
    match s.usable, merged.mapM s.resolve with
    | true, some merged => s.commit paths merged
    | _, _ => s
  | .detach rev =>
    match s.usable, s.resolve rev with
    | true, some c => s.checkout c none
    | _, _ => s
  | .switch name =>
    match s.usable, s.branches name with
    | true, some c => s.checkout c (some name)
    | _, _ => s
  | .create name =>
    match s.usable, s.branches name with
    | true, none =>
      { s with branches := s.branches.insert name s.head, branch := some name }
    | _, _ => s
  | .remove force f => if s.gone then s else s.afterRemoval ignored force f

/-- The worktree that `create` makes of a plan: HEAD is detached at the commit of the branch it is
based on, or at the HEAD of the repository. -/
def created (plan : WorktreePlan) (branches : PMap String SourceCommit)
    (head : SourceCommit) (others : List SourceCommit) (baseBranch : Option String) :
    Option GitWorktree :=
  let base := match baseBranch with
    | some name => branches name
    | none => some head
  base.map fun c =>
    { record := ⟨String.ofList plan.path, String.ofList plan.base, .git, String.ofList plan.name⟩
      vcs_eq := rfl
      branches
      others := head :: others
      head := c
      branch := none
      work := c.tree
      present := true
      registered := true
      made := []
      gone := false }

/-! ### What is asked of a removal -/

/-- **No work is lost**: the commits that were made are reached without the worktree, and so is
every file that is not ignored. -/
structure KeepsWork (s s' : GitWorktree) : Prop where
  commits : ∀ c ∈ s.made, s'.Anchored c
  files : ∀ path text, s.work.lookup path = some text →
    counts ignored s.head.tree path = true → ∃ c, s'.Anchored c ∧ c.tree.lookup path = some text

/-- What a removal comes to: one without `force` that is reported loses no work, and one that fails
leaves the worktree as it was, or can be finished. -/
structure Finishes (s s' : GitWorktree) (force : Bool) (f : GitFaults) : Prop where
  keepsWork : reportsRemoved (s.removal ignored force f) = true → force = false →
    s.KeepsWork ignored s'
  retry : reportsRemoved (s.removal ignored force f) = false →
    s' = s ∨ ∃ f', reportsRemoved (s'.removal ignored force f') = true

/-- Every removal does, until one was reported. -/
def Lossless (s : GitWorktree) : GitAct → Prop
  | .remove force f =>
    s.gone = false → s.Finishes ignored (s.step ignored (.remove force f)) force f
  | _ => True

/-- Nothing is reported of the worktree. -/
structure Clean (s : GitWorktree) : Prop where
  usable : s.usable = true
  unchanged : changed ignored s.head.tree s.work = []

/-- A removal without `force` of a clean worktree finds the commits that were made in a branch or
below another HEAD, or stops in the middle of a worktree that it leaves clean; one with `force` does
not take the worktree from the list when it stops. -/
def Safe (s : GitWorktree) : GitAct → Prop
  | .remove false f =>
    s.gone = false → s.Clean ignored → f.status = none →
      match f.command with
      | none => ∀ c ∈ s.made, s.Anchored c
      | some (.spawn _) => True
      | some (.exit ..) => (s.leave f.left).Clean ignored
  | .remove true f =>
    s.gone = false →
      match f.command with
      | some (.exit ..) => f.left.registered = true
      | _ => True
  | _ => True

/-! ### The commands -/

variable {ignored} {s s' : GitWorktree} {c : SourceCommit} {force : Bool} {f : GitFaults}

theorem not_blank_porcelainLine (tree work : SourceFiles) (path : String) :
    ∃ d ∈ (porcelainLine tree work path).toList, Cut.isWhitespace d = false := by
  have hmark : ∀ (mark : String) (d : Char),
      d ∈ mark.toList → d ∈ (mark ++ path ++ "\n").toList := by
    intro mark d hd
    rw [String.toList_append, String.toList_append]
    exact List.mem_append_left _ (List.mem_append_left _ hd)
  unfold porcelainLine
  split
  · exact ⟨'?', hmark _ _ (by decide), by decide⟩
  · exact ⟨'D', hmark _ _ (by decide), by decide⟩
  · exact ⟨'M', hmark _ _ (by decide), by decide⟩

/-- **When a worktree is found clean**: when the command does not fail and reports nothing. -/
theorem isClean_status {fault : Option CommandFault} :
    isClean (s.status ignored fault) = true ↔ s.Clean ignored ∧ fault = none := by
  cases fault with
  | some fault =>
    rw [status, fault.isClean_result]
    exact iff_of_false Bool.false_ne_true fun h => by cases h.2
  | none =>
    by_cases husable : s.usable = true
    · rw [status, if_pos husable, isClean_succeeded]
      constructor
      · intro hblank
        refine ⟨⟨husable, List.eq_nil_iff_forall_not_mem.mpr fun path hpath => ?_⟩, rfl⟩
        obtain ⟨d, hd, hnot⟩ := not_blank_porcelainLine s.head.tree s.work path
        have hmem : d ∈ (String.join ((changed ignored s.head.tree s.work).map
            (porcelainLine s.head.tree s.work))).toList := by
          rw [String.toList_join, List.mem_flatMap]
          exact ⟨_, List.mem_map_of_mem hpath, hd⟩
        rw [hblank d hmem] at hnot
        cases hnot
      · rintro ⟨hclean, -⟩ d hd
        rw [hclean.unchanged] at hd
        cases hd
    · rw [status, if_neg husable]
      exact iff_of_false Bool.false_ne_true fun h => husable h.1.usable

theorem succeeds_command_iff :
    (∃ output, s.command ignored force f.command = .ok output ∧ output.success = true) ↔
      s.refuses ignored force = false ∧ f.command = none := by
  cases hf : f.command with
  | some fault => exact iff_of_false fault.not_success fun h => by cases h.2
  | none =>
    unfold command
    cases hrefuses : s.refuses ignored force with
    | true => simp
    | false => simp [succeeded]

/-- When a removal is reported. -/
theorem reportsRemoved_removal_iff :
    reportsRemoved (s.removal ignored force f) = true ↔
      (force = true ∨ s.Clean ignored ∧ f.status = none) ∧
        s.refuses ignored force = false ∧ f.command = none := by
  have hdir : s.record.vcs = .jj → ∀ err, DirRemoval.notFound ≠ .failed err := by
    intro _ _ h
    cases h
  rw [removal, reportsRemoved_remove_iff, ← isClean_status, ← succeeds_command_iff]
  exact ⟨fun h => ⟨h.clean, h.command⟩, fun h => ⟨h.1, h.2, hdir⟩⟩

theorem refuses_true : s.refuses ignored true = !s.registered := by simp [refuses]

theorem Clean.refuses (h : s.Clean ignored) (force : Bool) : s.refuses ignored force = false := by
  have husable := h.usable
  rw [GitWorktree.usable, Bool.and_eq_true] at husable
  simp [GitWorktree.refuses, husable.2, h.unchanged]

/-- What a removal does when it comes to its command. -/
theorem afterRemoval_of_runs (hruns : force = true ∨ s.Clean ignored ∧ f.status = none)
    (hrefuses : s.refuses ignored force = false) :
    s.afterRemoval ignored force f =
      match f.command with
      | none => s.deleted
      | some (.spawn _) => s
      | some (.exit ..) => s.leave f.left := by
  have hclean : ¬ (!force && !isClean (s.status ignored f.status)) = true := by
    rcases hruns with rfl | hclean
    · simp
    · simp [isClean_status.mpr hclean]
  rw [afterRemoval, if_neg hclean, hrefuses]
  rfl

theorem afterRemoval_of_not_clean (h : ¬ (s.Clean ignored ∧ f.status = none)) :
    s.afterRemoval ignored false f = s := by
  have hclean : (!false && !isClean (s.status ignored f.status)) = true := by
    rw [← isClean_status, Bool.not_eq_true] at h
    simp [h]
  rw [afterRemoval, if_pos hclean]

/-! ### The commits of a worktree -/

/-- The commit was made here, or is reached without the worktree. -/
def Known (s : GitWorktree) (c : SourceCommit) : Prop := c ∈ s.made ∨ s.Anchored c

/-- The invariant. -/
structure Sound (s : GitWorktree) : Prop where
  registered : s.gone = false → s.registered = true
  head : s.Known s.head
  parents : ∀ c ∈ s.made, ∀ p ∈ c.parents, s.Known p
  branch : ∀ name, s.branch = some name → s.branches name = some s.head

theorem Known.mono (hmade : ∀ c ∈ s.made, c ∈ s'.made) (hroot : ∀ r, s.Root r → s'.Anchored r)
    (h : s.Known c) : s'.Known c :=
  h.imp (hmade c) (·.of_roots hroot)

theorem Sound.resolve (h : s.Sound) {rev : GitRev} (hrev : s.resolve rev = some c) :
    s.Known c := by
  induction rev generalizing c with
  | head =>
    cases hrev
    exact h.head
  | branch name => exact .inr (.root (.inl ⟨name, hrev⟩))
  | other i => exact .inr (.root (.inr (List.mem_of_getElem? hrev)))
  | made i => exact .inl (List.mem_of_getElem? hrev)
  | parent rev i ih =>
    obtain ⟨d, hd, hparent⟩ := Option.bind_eq_some_iff.mp hrev
    have hmem : c ∈ d.parents := List.mem_of_getElem? hparent
    rcases ih hd with hmade | hanchored
    · exact h.parents d hmade c hmem
    · exact .inr (hanchored.parent hmem)

theorem exists_resolve {revs : List GitRev} {cs : List SourceCommit}
    (h : revs.mapM s.resolve = some cs) : ∀ c ∈ cs, ∃ rev, s.resolve rev = some c := by
  induction revs generalizing cs with
  | nil =>
    cases h
    simp
  | cons rev revs ih =>
    rw [List.mapM_cons] at h
    obtain ⟨d, hd, h⟩ := Option.bind_eq_some_iff.mp h
    obtain ⟨ds, hds, h⟩ := Option.bind_eq_some_iff.mp h
    cases h
    intro c hc
    rcases List.mem_cons.mp hc with rfl | hc
    · exact ⟨rev, hd⟩
    · exact ih hds c hc

/-- A commit on a branch takes the branch along. -/
theorem Sound.commit (h : s.Sound) (paths : List String) {merged : List SourceCommit}
    (hmerged : ∀ c ∈ merged, s.Known c) : (s.commit paths merged).Sound := by
  have hroot : ∀ r, s.Root r → (s.commit paths merged).Anchored r := by
    rintro r (⟨name, hname⟩ | hother)
    · cases hbranch : s.branch with
      | none => exact .root (.inl ⟨name, by simpa [GitWorktree.commit, hbranch] using hname⟩)
      | some current =>
        by_cases hne : name = current
        · -- what the branch was at is the parent of the commit
          subst hne
          rw [h.branch name hbranch] at hname
          cases hname
          have hnew : (s.commit paths merged).Anchored (s.commit paths merged).head :=
            .root (.inl ⟨name, by simp [GitWorktree.commit, hbranch]⟩)
          exact hnew.parent List.mem_cons_self
        · exact .root (.inl ⟨name, by simpa [GitWorktree.commit, hbranch, hne] using hname⟩)
    · exact .root (.inr hother)
  have hmono : ∀ c, s.Known c → (s.commit paths merged).Known c :=
    fun c => Known.mono (fun c hc => List.mem_cons_of_mem _ hc) hroot
  refine ⟨h.registered, .inl List.mem_cons_self, fun c hc p hp => ?_, fun name hname => ?_⟩
  · rcases List.mem_cons.mp hc with rfl | hc
    · rcases List.mem_cons.mp hp with rfl | hp
      · exact hmono _ h.head
      · exact hmono p (hmerged p hp)
    · exact hmono p (h.parents c hc p hp)
  · have hbranch : s.branch = some name := hname
    simp [GitWorktree.commit, hbranch]

theorem Sound.checkout (h : s.Sound) (hc : s.Known c) {branch : Option String}
    (hbranch : ∀ name, branch = some name → s.branches name = some c) :
    (s.checkout c branch).Sound := by
  unfold GitWorktree.checkout
  split
  · exact ⟨h.registered, hc, h.parents, hbranch⟩
  · exact h

theorem Sound.create (h : s.Sound) {name : String} (hname : s.branches name = none) :
    Sound { s with branches := s.branches.insert name s.head, branch := some name } := by
  have hroot : ∀ r, s.Root r →
      Anchored { s with branches := s.branches.insert name s.head, branch := some name } r := by
    rintro r (⟨other, hother⟩ | hother)
    · have hne : other ≠ name := by
        rintro rfl
        rw [hname] at hother
        cases hother
      exact .root (.inl ⟨other, by simpa [hne] using hother⟩)
    · exact .root (.inr hother)
  have hmono : ∀ c, s.Known c →
      Known { s with branches := s.branches.insert name s.head, branch := some name } c :=
    fun c => Known.mono (fun _ => id) hroot
  refine ⟨h.registered, hmono _ h.head, fun c hc p hp => hmono p (h.parents c hc p hp), ?_⟩
  rintro _ ⟨rfl⟩
  exact PMap.insert_self _ _ _

/-! ### Steps and runs -/

theorem Sound.leave (h : s.Sound) {left : Leftover}
    (hleft : s.gone = false → left.registered = true) : (s.leave left).Sound :=
  ⟨hleft, h.head, h.parents, h.branch⟩

theorem Sound.deleted (h : s.Sound) : s.deleted.Sound :=
  ⟨fun hgone => (Bool.noConfusion hgone), h.head, h.parents, h.branch⟩

theorem Clean.registered (h : s.Clean ignored) : s.registered = true :=
  ((Bool.and_eq_true _ _).mp h.usable).2

theorem Sound.remove (h : s.Sound) (hsafe : s.Safe ignored (.remove force f)) :
    (s.step ignored (.remove force f)).Sound := by
  rw [GitWorktree.step]
  split
  · exact h
  · rename_i hgone
    rw [Bool.not_eq_true] at hgone
    by_cases hruns : force = true ∨ s.Clean ignored ∧ f.status = none
    · have hrefuses : s.refuses ignored force = false := by
        cases force with
        | true => rw [refuses_true, h.registered hgone, Bool.not_true]
        | false => exact (hruns.resolve_left Bool.false_ne_true).1.refuses false
      rw [afterRemoval_of_runs hruns hrefuses]
      split
      · exact h.deleted
      · exact h
      · rename_i hcommand
        refine h.leave fun _ => ?_
        cases force with
        | true => simpa [Safe, hcommand] using hsafe hgone
        | false =>
          obtain ⟨hclean, hstatus⟩ := hruns.resolve_left Bool.false_ne_true
          have hleft := hsafe hgone hclean hstatus
          rw [hcommand] at hleft
          exact hleft.registered
    · rw [not_or, Bool.not_eq_true] at hruns
      obtain ⟨rfl, hruns⟩ := hruns
      rw [afterRemoval_of_not_clean hruns]
      exact h

/-- **What a safe step keeps.** -/
theorem Sound.step (h : s.Sound) {a : GitAct} (hsafe : s.Safe ignored a) :
    (s.step ignored a).Sound := by
  cases a with
  | write path content =>
    rw [GitWorktree.step]
    split
    · exact ⟨h.registered, h.head, h.parents, h.branch⟩
    · exact h
  | commit paths merged =>
    rw [GitWorktree.step]
    split
    · rename_i hmerged
      refine h.commit paths fun c hc => ?_
      obtain ⟨rev, hrev⟩ := exists_resolve hmerged c hc
      exact h.resolve hrev
    · exact h
  | detach rev =>
    rw [GitWorktree.step]
    split
    · rename_i hrev
      exact h.checkout (h.resolve hrev) fun name hname => by cases hname
    · exact h
  | switch name =>
    rw [GitWorktree.step]
    split
    · rename_i hname
      refine h.checkout (.inr (.root (.inl ⟨name, hname⟩))) ?_
      rintro _ ⟨rfl⟩
      exact hname
    · exact h
  | create name =>
    rw [GitWorktree.step]
    split
    · rename_i hname
      exact h.create hname
    · exact h
  | remove force f => exact h.remove hsafe

/-- Everything in a clean worktree is in the tree of its HEAD. -/
theorem Sound.keepsWork_iff (h : s.Sound) (hclean : s.Clean ignored) :
    s.KeepsWork ignored s.deleted ↔ ∀ c ∈ s.made, s.Anchored c := by
  refine ⟨fun hkeeps => hkeeps.commits, fun hmade => ⟨hmade, fun path text htext hcounts => ?_⟩⟩
  refine ⟨s.head, h.head.elim (hmade _) id, ?_⟩
  rw [changed_eq_nil_iff.mp hclean.unchanged path hcounts]
  exact htext

/-- Nothing fails. -/
def noFaults : GitFaults := ⟨none, none, fun _ => true, true, true⟩

/-- When a removal can be finished. -/
theorem exists_removal_iff : (∃ f', reportsRemoved (s.removal ignored force f') = true) ↔
    (force = true ∨ s.Clean ignored) ∧ s.refuses ignored force = false := by
  constructor
  · rintro ⟨f', h⟩
    obtain ⟨hruns, hrefuses, -⟩ := reportsRemoved_removal_iff.mp h
    exact ⟨hruns.imp id And.left, hrefuses⟩
  · rintro ⟨hruns, hrefuses⟩
    refine ⟨noFaults, reportsRemoved_removal_iff.mpr ⟨?_, hrefuses, rfl⟩⟩
    exact hruns.imp id fun hclean => ⟨hclean, rfl⟩

theorem finishes_self (h : reportsRemoved (s.removal ignored force f) = false) :
    s.Finishes ignored s force f where
  keepsWork := by
    rw [h]
    exact fun hreported => Bool.noConfusion hreported
  retry := fun _ => .inl rfl

theorem finishes_iff_of_not_reported (h : reportsRemoved (s.removal ignored force f) = false) :
    s.Finishes ignored s' force f ↔
      s' = s ∨ ∃ f', reportsRemoved (s'.removal ignored force f') = true := by
  refine ⟨fun hfinishes => hfinishes.retry h, fun hretry => ⟨?_, fun _ => hretry⟩⟩
  rw [h]
  exact fun hreported => Bool.noConfusion hreported

theorem finishes_iff_of_reported (h : reportsRemoved (s.removal ignored force f) = true) :
    s.Finishes ignored s' force f ↔ (force = false → s.KeepsWork ignored s') := by
  refine ⟨fun hfinishes => hfinishes.keepsWork h, fun hkeeps => ⟨fun _ => hkeeps, ?_⟩⟩
  rw [h]
  exact fun hreported => Bool.noConfusion hreported

/-- A removal that fails at its command. -/
theorem removal_eq_false {fault : CommandFault} (hcommand : f.command = some fault) :
    reportsRemoved (s.removal ignored force f) = false := by
  rw [← Bool.not_eq_true, reportsRemoved_removal_iff, hcommand]
  exact fun h => Option.some_ne_none _ h.2.2

theorem Sound.safe_false_iff (h : s.Sound) (hgone : s.gone = false) :
    s.Safe ignored (.remove false f) ↔
      s.Finishes ignored (s.afterRemoval ignored false f) false f := by
  by_cases hruns : s.Clean ignored ∧ f.status = none
  · obtain ⟨hclean, hstatus⟩ := hruns
    have hrefuses := hclean.refuses false
    rw [afterRemoval_of_runs (.inr ⟨hclean, hstatus⟩) hrefuses]
    simp only [Safe, hgone, hclean, hstatus, forall_const]
    cases hcommand : f.command with
    | none =>
      have hreported : reportsRemoved (s.removal ignored false f) = true :=
        reportsRemoved_removal_iff.mpr ⟨.inr ⟨hclean, hstatus⟩, hrefuses, hcommand⟩
      rw [finishes_iff_of_reported hreported, h.keepsWork_iff hclean]
      exact ⟨fun hmade _ => hmade, fun hmade => hmade rfl⟩
    | some fault =>
      have hfailed : reportsRemoved (s.removal ignored false f) = false :=
        removal_eq_false hcommand
      cases fault with
      | spawn err => exact iff_of_true trivial (finishes_self hfailed)
      | exit status stdout stderr =>
        rw [finishes_iff_of_not_reported hfailed, exists_removal_iff]
        constructor
        · exact fun hleft => .inr ⟨.inr hleft, hleft.refuses false⟩
        · rintro (hsame | ⟨hleft, -⟩)
          · have hintact : s.leave f.left = s := hsame
            change (s.leave f.left).Clean ignored
            rw [hintact]
            exact hclean
          · exact hleft.resolve_left Bool.false_ne_true
  · have hfailed : reportsRemoved (s.removal ignored false f) = false := by
      rw [← Bool.not_eq_true, reportsRemoved_removal_iff]
      exact fun hreported => hruns (hreported.1.resolve_left Bool.false_ne_true)
    rw [afterRemoval_of_not_clean hruns]
    refine iff_of_true ?_ (finishes_self hfailed)
    exact fun _ hclean hstatus => absurd ⟨hclean, hstatus⟩ hruns

theorem Sound.safe_true_iff (h : s.Sound) (hgone : s.gone = false) :
    s.Safe ignored (.remove true f) ↔
      s.Finishes ignored (s.afterRemoval ignored true f) true f := by
  have hrefuses : s.refuses ignored true = false := by
    rw [refuses_true, h.registered hgone, Bool.not_true]
  rw [afterRemoval_of_runs (.inl rfl) hrefuses]
  simp only [Safe, hgone, forall_const]
  cases hcommand : f.command with
  | none =>
    have hreported : reportsRemoved (s.removal ignored true f) = true :=
      reportsRemoved_removal_iff.mpr ⟨.inl rfl, hrefuses, hcommand⟩
    rw [finishes_iff_of_reported hreported]
    exact iff_of_true trivial fun hforce => Bool.noConfusion hforce
  | some fault =>
    have hfailed : reportsRemoved (s.removal ignored true f) = false := removal_eq_false hcommand
    cases fault with
    | spawn err => exact iff_of_true trivial (finishes_self hfailed)
    | exit status stdout stderr =>
      rw [finishes_iff_of_not_reported hfailed, exists_removal_iff, refuses_true,
        Bool.not_eq_false']
      constructor
      · exact fun hleft => .inr ⟨.inl rfl, hleft⟩
      · rintro (hsame | ⟨-, hleft⟩)
        · have hintact : s.leave f.left = s := hsame
          change (s.leave f.left).registered = true
          rw [hintact]
          exact h.registered hgone
        · exact hleft

/-- **A step is lossless exactly when it is safe.** -/
theorem Sound.safe_iff_lossless (h : s.Sound) (a : GitAct) :
    s.Safe ignored a ↔ s.Lossless ignored a := by
  cases a with
  | remove force f =>
    rw [Lossless, GitWorktree.step]
    cases hgone : s.gone with
    | true => cases force <;> simp [Safe, hgone]
    | false =>
      rw [if_neg Bool.false_ne_true]
      simp only [forall_const]
      cases force with
      | true => exact h.safe_true_iff hgone
      | false => exact h.safe_false_iff hgone
  | _ => exact Iff.rfl

theorem sound_created {plan : WorktreePlan} {branches : PMap String SourceCommit}
    {head : SourceCommit} {others : List SourceCommit} {baseBranch : Option String}
    (h : created plan branches head others baseBranch = some s) : s.Sound := by
  obtain ⟨c, hc, rfl⟩ := Option.map_eq_some_iff.mp h
  refine ⟨fun _ => rfl, .inr (.root ?_), fun c hc => ?_, fun name hname => ?_⟩
  · cases baseBranch with
    | none =>
      cases hc
      exact .inr List.mem_cons_self
    | some name => exact .inl ⟨name, hc⟩
  · cases hc
  · cases hname

/-- **Every run in a worktree that was created is lossless exactly when its steps are safe.** -/
theorem along_safe_iff (ignored : String → Bool) {plan : WorktreePlan}
    {branches : PMap String SourceCommit} {head : SourceCommit} {others : List SourceCommit}
    {baseBranch : Option String} (h : created plan branches head others baseBranch = some s)
    (acts : List GitAct) :
    Along (step ignored) (Safe ignored) s acts ↔ Along (step ignored) (Lossless ignored) s acts :=
  along_iff_along (fun _ _ hsound hsafe => hsound.step hsafe)
    (fun _ a hsound => hsound.safe_iff_lossless a) (sound_created h) acts

/-- A repository with one commit reaches no other. -/
theorem Anchored.eq_first {first : SourceCommit} (h : s.Anchored c) (hfirst : first.parents = [])
    (hbranches : ∀ name r, s.branches name = some r → r = first)
    (hothers : ∀ r ∈ s.others, r = first) : c = first := by
  have hroot : ∀ r, s.Root r → r = first := by
    rintro r (⟨name, hname⟩ | hother)
    · exact hbranches name r hname
    · exact hothers r hother
  exact hroot c (Commit.reached_of_parents_nil (fun r hr => hroot r hr ▸ hfirst) h)

/-- **A clean worktree whose commit is lost**: it was made where HEAD is detached. -/
theorem not_lossless :
    ¬ ∀ ignored plan branches head others baseBranch s,
      created plan branches head others baseBranch = some s →
        ∀ acts, Along (step ignored) (Lossless ignored) s acts := by
  intro hlossless
  let first : SourceCommit := .mk [] []
  let second : SourceCommit := .mk [("f", "text")] [first]
  let branches : PMap String SourceCommit := fun name => if name = "main" then some first else none
  let worktree : GitWorktree := ⟨⟨"/data/w", "/repo", .git, "w"⟩, rfl, branches, [first], first,
    none, [], true, true, [], false⟩
  let committed := { worktree with head := second, work := [("f", "text")], made := [second] }
  have hcreated : created ⟨"/data/w".toList, "git".toList, [], "w".toList, "/repo".toList⟩ branches
      first [] none = some worktree := by
    simp [created, worktree, first]
  have hsteps : [.write "f" (some "text"), .commit ["f"] []].foldl (step fun _ => false) worktree =
      committed := rfl
  have hclean : committed.Clean fun _ => false := ⟨rfl, by decide⟩
  have hrun := hlossless (fun _ => false) _ branches first [] none worktree hcreated
    ([.write "f" (some "text"), .commit ["f"] []] ++ [.remove false noFaults])
  rw [along_append, hsteps] at hrun
  have hreported : reportsRemoved (committed.removal (fun _ => false) false noFaults) = true :=
    reportsRemoved_removal_iff.mpr ⟨.inr ⟨hclean, rfl⟩, hclean.refuses false, rfl⟩
  have hremoved : committed.step (fun _ => false) (.remove false noFaults) = committed.deleted := by
    rw [step, if_neg Bool.false_ne_true,
      afterRemoval_of_runs (.inr ⟨hclean, rfl⟩) (hclean.refuses false)]
    rfl
  have hkeeps := (hrun.2.1 rfl).keepsWork hreported rfl
  rw [hremoved] at hkeeps
  have hbranches : ∀ name r, branches name = some r → r = first := by
    intro name r hname
    simp only [branches] at hname
    split at hname
    · exact (Option.some.inj hname).symm
    · cases hname
  have hanchored : committed.deleted.Anchored second := hkeeps.commits second List.mem_cons_self
  have heq : second = first :=
    hanchored.eq_first rfl hbranches fun r => List.mem_singleton.mp
  have hparents : [first] = [] := congrArg Commit.parents heq
  cases hparents

end GitWorktree

end Pantoken
