import Pantoken.Server.GitWorktree

/-!
# Removing a jj workspace

A workspace of jj has a commit of its own, and every command of jj run in it first records the files
there in that commit, so that forgetting the workspace keeps them.  The directory is deleted after
it was forgotten, when jj fails in it.

## Main definitions

* `JjWorkspace`, `JjWorkspace.step` — a workspace in its repository, and what is done in it.
* `JjWorkspace.created` — the workspace that `create` makes.
* `JjWorkspace.Lossless`, `JjWorkspace.Safe` — what is asked of a removal, and the condition.

## Main results

* `JjWorkspace.along_safe_iff` — every run is lossless exactly when its steps are safe.
* `removal_exact` — **removals of worktrees of both kinds lose no work and can be finished exactly
  when they are safe.**
-/

namespace Pantoken

open WorkTree

/-- How a commit is named. -/
inductive JjRev where
  /-- The commit of the workspace. -/
  | workspace
  | commit (i : ℕ)
  | parent (rev : JjRev) (i : ℕ)

/-- What fails in a removal. -/
structure JjFaults where
  status : Option CommandFault
  command : Option CommandFault
  /-- How `remove_dir_all` fails, and the files it has left. -/
  dir : Option (String × (String → Bool))

inductive JjAct where
  /-- A file is written, or deleted. -/
  | write (path : String) (content : Option String)
  /-- `jj commit` -/
  | commit
  /-- `jj new`, after some commits. -/
  | new (revs : List JjRev)
  /-- `jj edit` -/
  | edit (rev : JjRev)
  /-- `remove` -/
  | remove (force : Bool) (faults : JjFaults)

structure JjWorkspace where
  record : WorktreeMeta
  vcs_eq : record.vcs = .jj
  /-- The commits of the repository. -/
  kept : List SourceCommit
  /-- The commit of the workspace. -/
  current : SourceCommit
  work : SourceFiles
  /-- The repository has the workspace in its list. -/
  registered : Bool
  /-- The commits made here.  No part of the repository. -/
  made : List SourceCommit
  /-- The workspace was reported removed. -/
  gone : Bool

/-- What the parameters of the model stand for: the ignored files, how jj merges trees, and whether
forgetting a workspace that is not in the list succeeds. -/
structure Jj where
  ignored : String → Bool
  mergeTrees : List SourceFiles → SourceFiles
  forgetUnknown : Bool

namespace JjWorkspace

def resolve (s : JjWorkspace) : JjRev → Option SourceCommit
  | .workspace => some s.current
  | .commit i => s.kept[i]?
  | .parent rev i => (s.resolve rev).bind (·.parents[i]?)

/-- A commit is added to the repository. -/
def add (s : JjWorkspace) (c : SourceCommit) : JjWorkspace :=
  { s with kept := c :: s.kept, made := c :: s.made }

/-- The workspace is set to a commit. -/
def moveTo (s : JjWorkspace) (c : SourceCommit) : JjWorkspace :=
  { s with
    current := c
    kept := c :: s.kept
    work := take (differing s.current.tree c.tree) c.tree s.work }

variable (jj : Jj)

/-- The tree that a commit changes. -/
def baseTree (parents : List SourceCommit) : SourceFiles :=
  match parents with
  | [] => []
  | [p] => p.tree
  | ps => jj.mergeTrees (ps.map (·.tree))

/-- The files are recorded in the commit of the workspace, which takes its place. -/
def snap (s : JjWorkspace) : JjWorkspace :=
  if changed jj.ignored s.current.tree s.work = [] then s
  else
    let c := .mk (snapshot jj.ignored s.current.tree s.work) s.current.parents
    { s.add c with current := c }

/-! ### Removal -/

/-- `jj diff --name-only`, after the files are recorded. -/
def diff (s : JjWorkspace) : String :=
  let c := (s.snap jj).current
  String.join ((differing (baseTree jj c.parents) c.tree).map (· ++ "\n"))

def status (s : JjWorkspace) : Option CommandFault → Except String CommandOutput
  | some fault => fault.result
  | none =>
    if s.registered then succeeded (s.diff jj)
    else .ok ⟨false, "exit status: 1", "", "Error: no workspace here"⟩

/-- `jj workspace forget` succeeds. -/
def forgets (s : JjWorkspace) : Bool := s.registered || jj.forgetUnknown

def command (s : JjWorkspace) : Option CommandFault → Except String CommandOutput
  | some fault => fault.result
  | none =>
    if s.forgets jj then succeeded ""
    else .ok ⟨false, "exit status: 1", "", "Error: no such workspace"⟩

def effects (s : JjWorkspace) (f : JjFaults) : Effects where
  status := s.status jj f.status
  command := s.command jj f.command
  dir := match f.dir with
    | some (err, _) => .failed err
    | none => .removed

/-- What `remove` returns. -/
def removal (s : JjWorkspace) (force : Bool) (f : JjFaults) : Except String RemoveResult :=
  remove s.record force (s.effects jj f)

/-- The check of a removal records the files. -/
def checked (s : JjWorkspace) (force : Bool) (f : JjFaults) : JjWorkspace :=
  if !force && f.status.isNone && s.registered then s.snap jj else s

/-- `remove_dir_all`, after the workspace was forgotten. -/
def deleteDir (s : JjWorkspace) : Option (String × (String → Bool)) → JjWorkspace
  | none => { s with work := [], registered := false, gone := true }
  | some (_, keeps) =>
    { s with work := s.work.filter fun file => keeps file.1, registered := false }

/-- What `remove` does. -/
def afterRemoval (s : JjWorkspace) (force : Bool) (f : JjFaults) : JjWorkspace :=
  let checked := s.checked jj force f
  if !force && !isClean (s.status jj f.status) then checked
  else if f.command.isNone && s.forgets jj then checked.deleteDir f.dir
  else checked

def step (s : JjWorkspace) : JjAct → JjWorkspace
  | .write path content => if s.gone then s else { s with work := write s.work path content }
  | .commit =>
    if s.registered then
      let s := s.snap jj
      let c := .mk s.current.tree [s.current]
      { s.add c with current := c }
    else s
  | .new revs =>
    match s.registered, revs.mapM (s.snap jj).resolve with
    | true, some parents =>
      let c := .mk (baseTree jj parents) parents
      ((s.snap jj).add c).moveTo c
    | _, _ => s
  | .edit rev =>
    match s.registered, (s.snap jj).resolve rev with
    | true, some c => (s.snap jj).moveTo c
    | _, _ => s
  | .remove force f => if s.gone then s else s.afterRemoval jj force f

/-- The workspace that `create` makes of a plan: its commit is a new one after those it is based
on. -/
def created (plan : WorktreePlan) (kept parents : List SourceCommit) : JjWorkspace :=
  let c := .mk (baseTree jj parents) parents
  { record := ⟨String.ofList plan.path, String.ofList plan.base, .jj, String.ofList plan.name⟩
    vcs_eq := rfl
    kept := c :: kept
    current := c
    work := c.tree
    registered := true
    made := []
    gone := false }

/-! ### What is asked of a removal -/

/-- **No work is lost**: the repository keeps the commits that were made and every file that is not
ignored. -/
structure KeepsWork (s s' : JjWorkspace) : Prop where
  commits : ∀ c ∈ s.made, c ∈ s'.kept
  files : ∀ path text, s.work.lookup path = some text →
    counts jj.ignored s.current.tree path = true → ∃ c ∈ s'.kept, c.tree.lookup path = some text

/-- The workspace is as it was, and no commit is lost. -/
structure Intact (s s' : JjWorkspace) : Prop where
  work : s'.work = s.work
  registered : s'.registered = s.registered
  kept : ∀ c ∈ s.kept, c ∈ s'.kept

/-- What a removal comes to. -/
structure Finishes (s s' : JjWorkspace) (force : Bool) (f : JjFaults) : Prop where
  keepsWork : reportsRemoved (s.removal jj force f) = true → force = false → s.KeepsWork jj s'
  retry : reportsRemoved (s.removal jj force f) = false →
    s.Intact s' ∨ ∃ f', reportsRemoved (s'.removal jj force f') = true

/-- Every removal does, until one was reported. -/
def Lossless (s : JjWorkspace) : JjAct → Prop
  | .remove force f => s.gone = false → s.Finishes jj (s.step jj (.remove force f)) force f
  | _ => True

/-- Nothing is reported of the workspace. -/
structure Clean (s : JjWorkspace) : Prop where
  registered : s.registered = true
  blank : ∀ d ∈ (s.diff jj).toList, Cut.isWhitespace d = true

/-- The directory of a workspace that was forgotten is deleted, or the removal is with `force` and
forgetting it again succeeds. -/
def Safe (s : JjWorkspace) : JjAct → Prop
  | .remove false f =>
    s.gone = false → s.Clean jj → f.status = none → f.command = none → f.dir = none
  | .remove true f => s.gone = false → f.command = none → f.dir = none ∨ jj.forgetUnknown = true
  | _ => True

/-! ### The commands -/

variable {jj} {s s' : JjWorkspace} {c : SourceCommit} {force : Bool} {f : JjFaults}

/-- When a workspace is found clean. -/
theorem isClean_status {fault : Option CommandFault} :
    isClean (s.status jj fault) = true ↔ s.Clean jj ∧ fault = none := by
  cases fault with
  | some fault =>
    rw [status, fault.isClean_result]
    exact iff_of_false Bool.false_ne_true fun h => by cases h.2
  | none =>
    by_cases hregistered : s.registered = true
    · rw [status, if_pos hregistered, isClean_succeeded]
      exact ⟨fun hblank => ⟨⟨hregistered, hblank⟩, rfl⟩, fun h => h.1.blank⟩
    · rw [status, if_neg hregistered]
      exact iff_of_false Bool.false_ne_true fun h => hregistered h.1.registered

theorem succeeds_command_iff :
    (∃ output, s.command jj f.command = .ok output ∧ output.success = true) ↔
      s.forgets jj = true ∧ f.command = none := by
  cases hf : f.command with
  | some fault => exact iff_of_false fault.not_success fun h => by cases h.2
  | none =>
    unfold command
    cases hforgets : s.forgets jj with
    | true => simp [succeeded]
    | false => simp

/-- When a removal is reported. -/
theorem reportsRemoved_removal_iff :
    reportsRemoved (s.removal jj force f) = true ↔
      (force = true ∨ s.Clean jj ∧ f.status = none) ∧
        (s.forgets jj = true ∧ f.command = none) ∧ f.dir = none := by
  have hdir : (s.record.vcs = .jj → ∀ err, (s.effects jj f).dir ≠ .failed err) ↔ f.dir = none := by
    unfold effects
    cases f.dir with
    | none => simp
    | some left => simp [s.vcs_eq]
  rw [removal, reportsRemoved_remove_iff, ← isClean_status, ← succeeds_command_iff, ← hdir]
  exact ⟨fun h => ⟨h.clean, h.command, h.dir⟩, fun h => ⟨h.1, h.2.1, h.2.2⟩⟩

theorem Clean.forgets (h : s.Clean jj) : s.forgets jj = true := by
  rw [JjWorkspace.forgets, h.registered, Bool.true_or]

/-- When a removal can be finished. -/
theorem exists_removal_iff : (∃ f', reportsRemoved (s.removal jj force f') = true) ↔
    (force = true ∨ s.Clean jj) ∧ s.forgets jj = true := by
  constructor
  · rintro ⟨f', h⟩
    obtain ⟨hruns, hforgets, -⟩ := reportsRemoved_removal_iff.mp h
    exact ⟨hruns.imp id And.left, hforgets.1⟩
  · rintro ⟨hruns, hforgets⟩
    refine ⟨⟨none, none, none⟩, reportsRemoved_removal_iff.mpr ⟨?_, ⟨hforgets, rfl⟩, rfl⟩⟩
    exact hruns.imp id fun hclean => ⟨hclean, rfl⟩

/-! ### The commits of a workspace -/

/-- The invariant. -/
structure Sound (jj : Jj) (s : JjWorkspace) : Prop where
  forgets : s.gone = false → s.forgets jj = true
  made : ∀ c ∈ s.made, c ∈ s.kept
  current : s.current ∈ s.kept

theorem kept_add (s : JjWorkspace) (c : SourceCommit) : ∀ d ∈ s.kept, d ∈ (s.add c).kept :=
  fun _ => List.mem_cons_of_mem c

theorem kept_snap (s : JjWorkspace) : ∀ c ∈ s.kept, c ∈ (s.snap jj).kept := by
  unfold snap
  split
  · exact fun _ hc => hc
  · exact s.kept_add _

@[simp] theorem work_snap (s : JjWorkspace) : (s.snap jj).work = s.work := by
  unfold snap
  split <;> rfl

@[simp] theorem registered_snap (s : JjWorkspace) : (s.snap jj).registered = s.registered := by
  unfold snap
  split <;> rfl

/-- **The commit of the workspace holds the files when they were recorded.** -/
theorem lookup_snap {path : String} (h : counts jj.ignored s.current.tree path = true) :
    (s.snap jj).current.tree.lookup path = s.work.lookup path := by
  unfold snap
  split
  · rename_i hsame
    exact changed_eq_nil_iff.mp hsame path h
  · exact lookup_snapshot h s.work

theorem Sound.add (h : s.Sound jj) (c : SourceCommit) : (s.add c).Sound jj where
  forgets := h.forgets
  made := by
    intro d hd
    rcases List.mem_cons.mp hd with rfl | hd
    · exact List.mem_cons_self
    · exact List.mem_cons_of_mem _ (h.made d hd)
  current := List.mem_cons_of_mem _ h.current

theorem Sound.setCurrent (h : s.Sound jj) (hc : c ∈ s.kept) : Sound jj { s with current := c } :=
  ⟨h.forgets, h.made, hc⟩

theorem Sound.snap (h : s.Sound jj) : (s.snap jj).Sound jj := by
  unfold JjWorkspace.snap
  split
  · exact h
  · exact (h.add _).setCurrent List.mem_cons_self

theorem Sound.moveTo (h : s.Sound jj) (c : SourceCommit) : (s.moveTo c).Sound jj :=
  ⟨h.forgets, fun d hd => List.mem_cons_of_mem _ (h.made d hd), List.mem_cons_self⟩

theorem Sound.checked (h : s.Sound jj) (force : Bool) (f : JjFaults) :
    (s.checked jj force f).Sound jj := by
  unfold JjWorkspace.checked
  split
  · exact h.snap
  · exact h

/-- The check of a removal changes nothing but the commit. -/
theorem intact_checked (s : JjWorkspace) (force : Bool) (f : JjFaults) :
    s.Intact (s.checked jj force f) := by
  unfold checked
  split
  · exact ⟨s.work_snap, s.registered_snap, s.kept_snap⟩
  · exact ⟨rfl, rfl, fun _ hc => hc⟩

/-! ### What a removal does -/

theorem afterRemoval_of_runs (hruns : force = true ∨ s.Clean jj ∧ f.status = none)
    (hcommand : s.forgets jj = true ∧ f.command = none) :
    s.afterRemoval jj force f = (s.checked jj force f).deleteDir f.dir := by
  have hclean : ¬ (!force && !isClean (s.status jj f.status)) = true := by
    rcases hruns with rfl | hclean
    · simp
    · simp [isClean_status.mpr hclean]
  have hforgets : (f.command.isNone && s.forgets jj) = true := by
    rw [hcommand.1, hcommand.2]
    rfl
  simp only [afterRemoval]
  rw [if_neg hclean, if_pos hforgets]

theorem afterRemoval_of_not (h : ¬ ((force = true ∨ s.Clean jj ∧ f.status = none) ∧
    s.forgets jj = true ∧ f.command = none)) :
    s.afterRemoval jj force f = s.checked jj force f := by
  unfold afterRemoval
  dsimp only
  split
  · rfl
  · rename_i hclean
    refine if_neg fun hforgets => h ⟨?_, ?_⟩
    · rw [← isClean_status]
      cases force
      · exact .inr (by simpa using hclean)
      · exact .inl rfl
    · rw [Bool.and_eq_true, Option.isNone_iff_eq_none] at hforgets
      exact hforgets.symm

theorem Clean.checked (h : s.Clean jj) (hstatus : f.status = none) :
    s.checked jj false f = s.snap jj := by
  rw [JjWorkspace.checked, hstatus, h.registered]
  rfl

/-- The directory is deleted after the files were recorded. -/
theorem Sound.keepsWork (h : s.Sound jj) (hclean : s.Clean jj) (hstatus : f.status = none) :
    s.KeepsWork jj ((s.checked jj false f).deleteDir none) := by
  rw [hclean.checked hstatus]
  refine ⟨fun c hc => s.kept_snap c (h.made c hc), fun path text htext hcounts => ?_⟩
  exact ⟨_, h.snap.current, (lookup_snap hcounts).trans htext⟩

theorem Sound.remove (h : s.Sound jj) (hsafe : s.Safe jj (.remove force f)) :
    (s.step jj (.remove force f)).Sound jj := by
  rw [JjWorkspace.step]
  split
  · exact h
  · rename_i hgone
    rw [Bool.not_eq_true] at hgone
    have hchecked := h.checked force f
    by_cases hruns : (force = true ∨ s.Clean jj ∧ f.status = none) ∧
        s.forgets jj = true ∧ f.command = none
    · rw [afterRemoval_of_runs hruns.1 hruns.2]
      cases hdir : f.dir with
      | none => exact ⟨fun hnot => Bool.noConfusion hnot, hchecked.made, hchecked.current⟩
      | some left =>
        refine ⟨fun _ => ?_, hchecked.made, hchecked.current⟩
        cases force with
        | true =>
          have hunknown := (hsafe hgone hruns.2.2).resolve_left (by simp [hdir])
          rw [JjWorkspace.forgets, hunknown, Bool.or_true]
        | false =>
          obtain ⟨hclean, hstatus⟩ := hruns.1.resolve_left Bool.false_ne_true
          rw [hsafe hgone hclean hstatus hruns.2.2] at hdir
          cases hdir
    · rw [afterRemoval_of_not hruns]
      exact hchecked

/-- **What a safe step keeps.** -/
theorem Sound.step (h : s.Sound jj) {a : JjAct} (hsafe : s.Safe jj a) :
    (s.step jj a).Sound jj := by
  cases a with
  | write path content =>
    rw [JjWorkspace.step]
    split
    · exact h
    · exact ⟨h.forgets, h.made, h.current⟩
  | commit =>
    rw [JjWorkspace.step]
    split
    · exact (h.snap.add _).setCurrent List.mem_cons_self
    · exact h
  | new revs =>
    rw [JjWorkspace.step]
    split
    · exact (h.snap.add _).moveTo _
    · exact h
  | edit rev =>
    rw [JjWorkspace.step]
    split
    · exact h.snap.moveTo _
    · exact h
  | remove force f => exact h.remove hsafe

theorem finishes_of_intact (hintact : s.Intact s')
    (h : reportsRemoved (s.removal jj force f) = false) : s.Finishes jj s' force f where
  keepsWork := by
    rw [h]
    exact fun hreported => Bool.noConfusion hreported
  retry := fun _ => .inl hintact

/-- A removal that comes to its end. -/
theorem Sound.finishes_deleteDir_iff (h : s.Sound jj)
    (hruns : force = true ∨ s.Clean jj ∧ f.status = none)
    (hcommand : s.forgets jj = true ∧ f.command = none) :
    s.Finishes jj ((s.checked jj force f).deleteDir f.dir) force f ↔
      f.dir = none ∨ force = true ∧ jj.forgetUnknown = true := by
  cases hdir : f.dir with
  | none =>
    have hreported : reportsRemoved (s.removal jj force f) = true :=
      reportsRemoved_removal_iff.mpr ⟨hruns, hcommand, hdir⟩
    refine iff_of_true ⟨fun _ hforce => ?_, fun hfailed => ?_⟩ (.inl rfl)
    · subst hforce
      obtain ⟨hclean, hstatus⟩ := hruns.resolve_left Bool.false_ne_true
      exact h.keepsWork hclean hstatus
    · rw [hreported] at hfailed
      cases hfailed
  | some left =>
    have hfailed : reportsRemoved (s.removal jj force f) = false := by
      rw [← Bool.not_eq_true, reportsRemoved_removal_iff, hdir]
      exact fun hreported => Option.some_ne_none _ hreported.2.2
    -- the workspace is not in the list any more
    have hforgets : ((s.checked jj force f).deleteDir (some left)).forgets jj = jj.forgetUnknown :=
      Bool.false_or _
    have hnotClean : ¬ ((s.checked jj force f).deleteDir (some left)).Clean jj :=
      fun hclean => Bool.noConfusion hclean.registered
    constructor
    · intro hfinishes
      refine .inr ?_
      rcases hfinishes.retry hfailed with hintact | hretry
      · have hregistered : s.registered = false := hintact.registered.symm
        have hforget := hcommand.1
        rw [JjWorkspace.forgets, hregistered, Bool.false_or] at hforget
        refine ⟨hruns.resolve_right fun hclean => ?_, hforget⟩
        exact Bool.false_ne_true (hregistered.symm.trans hclean.1.registered)
      · obtain ⟨hforce, hforget⟩ := exists_removal_iff.mp hretry
        rw [hforgets] at hforget
        exact ⟨hforce.resolve_right hnotClean, hforget⟩
    · rintro (hnone | ⟨hforce, hforget⟩)
      · cases hnone
      · refine ⟨fun hreported => ?_, fun _ => .inr (exists_removal_iff.mpr ⟨.inl hforce, ?_⟩)⟩
        · rw [hfailed] at hreported
          cases hreported
        · rw [hforgets, hforget]

/-- **A step is lossless exactly when it is safe.** -/
theorem Sound.safe_iff_lossless (h : s.Sound jj) (a : JjAct) :
    s.Safe jj a ↔ s.Lossless jj a := by
  cases a with
  | remove force f =>
    rw [Lossless, JjWorkspace.step]
    cases hgone : s.gone with
    | true => cases force <;> simp [Safe, hgone]
    | false =>
      rw [if_neg Bool.false_ne_true]
      simp only [forall_const]
      have hforgets := h.forgets hgone
      by_cases hruns : (force = true ∨ s.Clean jj ∧ f.status = none) ∧
          s.forgets jj = true ∧ f.command = none
      · rw [afterRemoval_of_runs hruns.1 hruns.2, h.finishes_deleteDir_iff hruns.1 hruns.2]
        obtain ⟨hruns, -, hcommand⟩ := hruns
        cases force with
        | true => simp [Safe, hgone, hcommand]
        | false =>
          obtain ⟨hclean, hstatus⟩ := hruns.resolve_left Bool.false_ne_true
          simp [Safe, hgone, hclean, hstatus, hcommand]
      · have hfailed : reportsRemoved (s.removal jj force f) = false := by
          rw [← Bool.not_eq_true, reportsRemoved_removal_iff]
          exact fun hreported => hruns ⟨hreported.1, hreported.2.1⟩
        rw [afterRemoval_of_not hruns]
        refine iff_of_true ?_ (finishes_of_intact (s.intact_checked force f) hfailed)
        cases force with
        | true => exact fun _ hcommand => absurd ⟨.inl rfl, hforgets, hcommand⟩ hruns
        | false =>
          exact fun _ hclean hstatus hcommand =>
            absurd ⟨.inr ⟨hclean, hstatus⟩, hforgets, hcommand⟩ hruns
  | _ => exact Iff.rfl

theorem sound_created (plan : WorktreePlan) (kept parents : List SourceCommit) :
    (created jj plan kept parents).Sound jj :=
  ⟨fun _ => rfl, fun _ hc => absurd hc List.not_mem_nil, List.mem_cons_self⟩

/-- **Every run in a workspace that was created is lossless exactly when its steps are safe.** -/
theorem along_safe_iff (jj : Jj) (plan : WorktreePlan) (kept parents : List SourceCommit)
    (acts : List JjAct) :
    Along (step jj) (Safe jj) (created jj plan kept parents) acts ↔
      Along (step jj) (Lossless jj) (created jj plan kept parents) acts :=
  along_iff_along (fun _ _ hsound hsafe => hsound.step hsafe)
    (fun _ a hsound => hsound.safe_iff_lossless a) (sound_created plan kept parents) acts

end JjWorkspace

/-- **Removals lose no work and can be finished exactly when they are safe**, in every run in a
worktree of git or a workspace of jj. -/
theorem removal_exact (plan : WorktreePlan) :
    (∀ ignored branches head others baseBranch s,
      GitWorktree.created plan branches head others baseBranch = some s → ∀ acts,
        Along (GitWorktree.step ignored) (GitWorktree.Safe ignored) s acts ↔
          Along (GitWorktree.step ignored) (GitWorktree.Lossless ignored) s acts) ∧
    ∀ jj kept parents acts,
      Along (JjWorkspace.step jj) (JjWorkspace.Safe jj)
          (JjWorkspace.created jj plan kept parents) acts ↔
        Along (JjWorkspace.step jj) (JjWorkspace.Lossless jj)
          (JjWorkspace.created jj plan kept parents) acts :=
  ⟨fun ignored _ _ _ _ _ hcreated => GitWorktree.along_safe_iff ignored hcreated,
    fun jj => JjWorkspace.along_safe_iff jj plan⟩

end Pantoken
