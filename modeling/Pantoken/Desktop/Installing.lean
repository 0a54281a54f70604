import Mathlib.Data.Set.Function
import Pantoken.Desktop.Install
import Pantoken.Lib.Run

/-!
# Installs that run at the same time

Any number of install and cleanup scripts of one version and target run on one file system, a
command at a time, and each may fail at a command or be cut off before it.

## Main definitions

* `Artifact.complete` — a complete extraction of an archive.
* `Installing`, `Installing.step` — the file system, the uploaded archives and the scripts.
* `FinalOk` — the final directory is what it was, or a complete extraction.
* `Installing.Keeps` — scripts that are not interleaved while one has its files in the staging
  directory, start from a clean one, and go on from the removal to the move.

## Main results

* `Installing.finalOk_of_keeps` — **runs whose steps all keep to this leave the final directory
  as it was, or with a complete extraction.**
* `Installing.final_missing` — a script that is cut off between the removal and the move leaves
  none.
-/

namespace Pantoken.Desktop

open FileTree Shell

/-! ### Archives -/

/-- A verified archive, by what it has below its root. -/
structure Archive where
  entries : FileSystem
  isTree : IsTree entries
  root : ∀ f, entries [] ≠ some (.file f)

/-- What is extracted: all of it, or a member with the directories above it. -/
def Archive.select (a : Archive) : Option (List Char) → Option FileSystem
  | none => some a.entries
  | some m =>
    if (a.entries m).isSome then
      some fun r =>
        if Under m r then a.entries r else if r ∈ ancestors m then some .dir else none
    else none

def emptyDir : FileSystem := fun r => if r = [] then some .dir else none

/-- A tree with another one extracted into it. -/
def overlay (t sel : FileSystem) : FileSystem := fun r => (sel r).or (t r)

/-- The remote host: its files, and the archives by their paths. -/
structure Remote where
  fs : FileSystem
  archives : List Char → Option Archive

/-- What a command does, without a result where it fails. -/
def Command.exec (r : Remote) : Command → Option Remote
  | .setE | .echo | .nothing => some r
  | .mkdirP p => (FileTree.mkdirP r.fs p).map fun fs => { r with fs }
  | .extract format a d m => do
    let archive ← r.archives a
    let sel ← archive.select m
    match r.fs d, format with
    | some .dir, _ => some { r with fs := put r.fs d (overlay (tree r.fs d) sel) }
    | none, .zip => some { r with fs := put r.fs d (overlay emptyDir sel) }
    | _, _ => none
  | .chmodX p => (FileTree.chmodX r.fs p).map fun fs => { r with fs }
  | .testX p => (FileTree.testX r.fs p).map fun fs => { r with fs }
  | .mv a b => (FileTree.mv r.fs a b).map fun fs => { r with fs }
  | .rmRf p => some { r with fs := remove r.fs p }
  | .rmRfGlob start => some { r with fs := fun p => if start <+: p then none else r.fs p }
  | .rmF p => some { r with archives := Function.update r.archives p none }

/-- The command may change the files. -/
def Command.touches : Command → Bool
  | .setE | .echo | .nothing | .rmF _ => false
  | _ => true

/-- What a command below a directory does to the tree there. -/
def RelCommand.run (t : FileSystem) : RelCommand → Option FileSystem
  | .chmodX r => FileTree.chmodX t r
  | .testX r => FileTree.testX t r
  | .mv r r' => FileTree.mv t r r'

/-- An archive in a directory of its own. -/
def Artifact.fresh (x : Artifact) (a : Archive) : Option FileSystem :=
  (a.select x.member).map (overlay emptyDir)

/-- A complete extraction of an archive. -/
def Artifact.complete (x : Artifact) (a : Archive) : Option FileSystem :=
  (x.fresh a).bind fun t => x.inner.foldlM RelCommand.run t

/-! ### The machine -/

/-- A shell: it stops where a command fails, and the commands that are left. -/
structure Run where
  errexit : Bool
  rest : List Command

structure Installing where
  remote : Remote
  /-- The archives that were uploaded. -/
  uploaded : List Archive
  /-- The shells, by pid. -/
  runs : ℕ → Run

inductive Installing.Action
  | upload (a : Archive)
  | startInstall (pid : ℕ)
  | startCleanup (pid : ℕ)
  /-- The next command of a shell, which may fail. -/
  | exec (pid : ℕ) (fails : Bool)
  /-- A shell is cut off. -/
  | cut (pid : ℕ)

namespace Installing

variable (x : Artifact) (site : Site)

def boot (before : Disk) : Installing := 
  ⟨⟨before.fs, fun _ => none⟩, [], fun _ => ⟨false, []⟩⟩

def setRun (s : Installing) (pid : ℕ) (run : Run) : Installing :=
  { s with runs := Function.update s.runs pid run }

/-- A shell starts, with a pid that is free. -/
def start (s : Installing) (pid : ℕ) (script : List Char) : Installing :=
  if (s.runs pid).rest = [] then
    s.setRun pid ⟨false, readScript site.shell (toString pid).toList script⟩
  else s

def exec (s : Installing) (pid : ℕ) (fails : Bool) : Installing :=
  match s.runs pid with
  | ⟨_, []⟩ => s
  | ⟨errexit, c :: rest⟩ =>
    match if fails && c ≠ Command.setE then none else c.exec s.remote with
    | some remote => { s with remote }.setRun pid ⟨errexit || c = Command.setE, rest⟩
    | none => s.setRun pid ⟨errexit, if errexit then [] else rest⟩

def step (s : Installing) : Action → Installing
  | .upload a =>
    let archives := Function.update s.remote.archives site.archive (some a)
    { s with remote := { s.remote with archives }, uploaded := a :: s.uploaded }
  | .startInstall pid => s.start site pid (x.script site)
  | .startCleanup pid => s.start site pid (buildCleanupStagingCommand site.finalDir)
  | .exec pid fails => s.exec pid fails
  | .cut pid => s.setRun pid ⟨false, []⟩

/-- **The final directory is what it was, or one complete extraction** of an archive, with the
executable in place. -/
def FinalOk (before : Disk) (s : Installing) : Prop :=
  tree s.remote.fs site.final = tree before.fs site.final ∨
    ∃ a ∈ s.uploaded, x.complete a = some (tree s.remote.fs site.final) ∧
      (FileTree.testX (tree s.remote.fs site.final) x.binary).isSome

/-! ### The condition -/

/-- The shell has its files in the staging directory, or is about to. -/
def Unpacks (rest : List Command) : Prop :=
  .mv site.staging site.final ∈ rest ∧ .mkdirP site.staging ∉ rest

/-- The shell removed the final directory, or made an empty one, and did not move the new one
there yet. -/
def Swaps (s : Installing) (rest : List Command) : Prop :=
  .mv site.staging site.final ∈ rest ∧ .mkdirP site.final ∉ rest ∧
    (.rmRf site.final ∈ rest → tree s.remote.fs site.final = emptyDir)

/-- An extraction leaves nothing of what is in the staging directory. -/
def Clean (s : Installing) : Prop :=
  ∀ a sel, s.remote.archives site.archive = some a → a.select x.member = some sel →
    ∀ r, r ≠ [] → tree s.remote.fs site.staging r ≠ none → sel r ≠ none

/-- No other shell is at its files when one changes any, the staging directory is clean at an
extraction, and a shell goes on from the removal to the move. -/
def Keeps (s : Installing) : Action → Prop
  | .exec pid fails =>
    ∀ c rest, (s.runs pid).rest = c :: rest →
      (c.touches → ∀ other, other ≠ pid → ¬ Unpacks site (s.runs other).rest) ∧
        (c = .extract site.format site.archive site.staging x.member → Clean x site s) ∧
          (fails = true → ¬ Swaps site s (s.runs pid).rest)
  | .cut pid => ¬ Swaps site s (s.runs pid).rest
  | _ => True

end Installing

/-! ### Commands -/

/-- A command that may not change the files does not. -/
theorem Command.exec_fs {c : Command} {r r' : Remote} (hc : c.touches = false)
    (h : c.exec r = some r') : r'.fs = r.fs := by
  cases c with
  | setE | echo | nothing | rmF p =>
    cases h
    rfl
  | mkdirP p | extract format a d m | chmodX p | testX p | mv a b | rmRf p | rmRfGlob start =>
    cases hc

/-- No command brings an archive. -/
theorem Command.exec_archives {c : Command} {r r' : Remote} (h : c.exec r = some r')
    (p : List Char) : r'.archives p = r.archives p ∨ r'.archives p = none := by
  cases c with
  | setE | echo | nothing | rmRf p | rmRfGlob start =>
    cases h
    exact .inl rfl
  | mkdirP p | chmodX p | testX p | mv a b =>
    obtain ⟨fs, -, rfl⟩ := Option.map_eq_some_iff.mp h
    exact .inl rfl
  | extract format a d m =>
    obtain ⟨archive, -, h⟩ := Option.bind_eq_some_iff.mp h
    obtain ⟨sel, -, h⟩ := Option.bind_eq_some_iff.mp h
    split at h <;> cases h <;> exact .inl rfl
  | rmF q =>
    cases h
    by_cases hq : p = q
    · subst hq
      exact .inr (Function.update_self _ _ _)
    · exact .inl (Function.update_of_ne hq _ _)

/-! ### Complete extractions -/

section Extraction

variable {x : Artifact} {a : Archive} {t t' sel : FileSystem} {m : Option (List Char)}

/-- A path of a command below a directory is not the directory. -/
def RelCommand.Proper : RelCommand → Prop
  | .chmodX r | .testX r => ['/'] <+: r
  | .mv r r' => ['/'] <+: r ∧ ['/'] <+: r'

instance (c : RelCommand) : Decidable c.Proper := by
  cases c <;> unfold RelCommand.Proper <;> infer_instance

theorem Artifact.proper_inner (x : Artifact) : ∀ c ∈ x.inner, c.Proper := by
  cases x <;> decide

/-- A command below a directory does to the files what it does to the tree there. -/
theorem RelCommand.exec_at {c : RelCommand} (hc : c.Proper) (r : Remote) (root : List Char) :
    (c.at root).exec r =
      (c.run (tree r.fs root)).map fun t => { r with fs := put r.fs root t } := by
  cases c with
  | chmodX p =>
    change (FileTree.chmodX r.fs (root ++ p)).map _ = _
    rw [chmodX_append (.inr hc), Option.map_map]
    rfl
  | testX p =>
    change (FileTree.testX r.fs (root ++ p)).map _ = _
    rw [testX_append (.inr hc), Option.map_map]
    rfl
  | mv p q =>
    change (FileTree.mv r.fs (root ++ p) (root ++ q)).map _ = _
    rw [mv_append hc.1 (.inr hc.2), Option.map_map]
    rfl

/-- What a command below a directory keeps: the directory, and that only it and what is below
it has entries. -/
theorem RelCommand.run_spec {c : RelCommand} (hc : c.Proper) (ht : IsTree t)
    (h : c.run t = some t') : t' [] = t [] ∧ IsTree t' := by
  cases c with
  | chmodX p =>
    refine ⟨?_, ht.chmodX h⟩
    rcases chmodX_spec h with rfl | ⟨f, -, rfl⟩
    · rfl
    · refine if_neg ?_
      rintro rfl
      exact absurd hc (by decide)
  | testX p =>
    cases testX_spec h
    exact ⟨rfl, ht⟩
  | mv p q => exact ⟨mv_nil hc.1 hc.2 h, ht.mv (.inr hc.1) (.inr hc.2) h⟩

theorem RelCommand.foldlM_spec {cs : List RelCommand} (hcs : ∀ c ∈ cs, c.Proper) (ht : IsTree t)
    (h : cs.foldlM RelCommand.run t = some t') : t' [] = t [] ∧ IsTree t' := by
  induction cs generalizing t with
  | nil =>
    cases h
    exact ⟨rfl, ht⟩
  | cons c cs ih =>
    obtain ⟨t₁, h₁, hrest⟩ := Option.bind_eq_some_iff.mp h
    have hc := RelCommand.run_spec (hcs c List.mem_cons_self) ht h₁
    have hih := ih (fun c' hc' => hcs c' (List.mem_cons_of_mem _ hc')) hc.2 hrest
    exact ⟨hih.1.trans hc.1, hih.2⟩

theorem Artifact.member_slash (x : Artifact) {m : List Char} (h : x.member = some m) :
    IsRel m := by
  cases x with
  | polytoken => cases h
  | server =>
    cases h
    exact .inr ⟨serverBinaryInArchive, rfl⟩

theorem Archive.select_spec (hm : ∀ m', m = some m' → IsRel m') (h : a.select m = some sel) :
    (sel [] = none ∨ sel [] = some .dir) ∧ IsTree sel := by
  have hroot : a.entries [] = none ∨ a.entries [] = some .dir := by
    cases hentry : a.entries [] with
    | none => exact .inl rfl
    | some e =>
      cases e with
      | dir => exact .inr rfl
      | file f => exact absurd hentry (a.root f)
  cases m with
  | none =>
    cases h
    exact ⟨hroot, a.isTree⟩
  | some m =>
    rw [Archive.select] at h
    split_ifs at h with hsome
    cases h
    constructor
    · dsimp only
      split_ifs
      · exact hroot
      · exact .inr rfl
      · exact .inl rfl
    · intro r hr
      dsimp only at hr
      split_ifs at hr with hunder hanc
      · exact a.isTree r hr
      · exact isRel_of_mem_ancestors (hm m rfl) hanc
      · exact absurd rfl hr

/-- An archive in a directory of its own is a tree below it. -/
theorem Artifact.fresh_spec (h : x.fresh a = some t) : t [] = some .dir ∧ IsTree t := by
  obtain ⟨sel, hsel, rfl⟩ := Option.map_eq_some_iff.mp h
  obtain ⟨hroot, htree⟩ := Archive.select_spec (fun _ => x.member_slash) hsel
  constructor
  · unfold overlay emptyDir
    rcases hroot with hroot | hroot <;> rw [hroot] <;> rfl
  · intro r hr
    unfold overlay emptyDir at hr
    by_cases hnil : r = []
    · exact .inl hnil
    · refine htree r fun hnone => hr ?_
      rw [hnone, if_neg hnil]
      rfl

theorem Artifact.complete_spec (h : x.complete a = some t) : t [] = some .dir ∧ IsTree t := by
  obtain ⟨t₀, h₀, hrest⟩ := Option.bind_eq_some_iff.mp h
  have hfresh := x.fresh_spec h₀
  have hfold := RelCommand.foldlM_spec x.proper_inner hfresh.2 hrest
  exact ⟨hfold.1.trans hfresh.1, hfold.2⟩

/-- **A complete extraction has the executable in place.** -/
theorem Artifact.complete_binary (h : x.complete a = some t) :
    (FileTree.testX t x.binary).isSome := by
  obtain ⟨t₀, h₀, hrest⟩ := Option.bind_eq_some_iff.mp h
  cases x with
  | polytoken =>
    obtain ⟨t₁, h₁, hrest⟩ := Option.bind_eq_some_iff.mp hrest
    obtain ⟨t₂, h₂, hrest⟩ := Option.bind_eq_some_iff.mp hrest
    cases hrest
    have htest : FileTree.testX t₁ Artifact.polytoken.binary = some t := h₂
    cases testX_spec htest
    rw [htest]
    rfl
  | server =>
    obtain ⟨t₁, h₁, hrest⟩ := Option.bind_eq_some_iff.mp hrest
    obtain ⟨t₂, h₂, hrest⟩ := Option.bind_eq_some_iff.mp hrest
    obtain ⟨t₃, h₃, hrest⟩ := Option.bind_eq_some_iff.mp hrest
    cases hrest
    have htest : FileTree.testX t₁ ('/' :: serverBinaryInArchive) = some t₂ := h₂
    have hmv : FileTree.mv t₂ ('/' :: serverBinaryInArchive) Artifact.server.binary = some t := h₃
    cases testX_spec htest
    -- only the member was extracted, so nothing is where it is moved to
    have hnone₀ : t₀ Artifact.server.binary = none := by
      obtain ⟨sel, hsel, rfl⟩ := Option.map_eq_some_iff.mp h₀
      rw [Artifact.member, Archive.select] at hsel
      split_ifs at hsel with hsome
      cases hsel
      rfl
    have hnone : t₁ Artifact.server.binary = none := by
      rcases chmodX_spec h₁ with rfl | ⟨f, -, rfl⟩
      · exact hnone₀
      · exact hnone₀
    rw [testX_isSome (mv_apply hnone hmv), htest]
    rfl

end Extraction

/-! ### What a run keeps -/

namespace Installing

variable (x : Artifact) (site : Site) (before : Disk)

/-- A command that leaves the final directory alone, whatever other shells do. -/
def Idle (c : Command) : Prop :=
  c.touches = false ∨ c = .rmRfGlob (site.final ++ ".staging-".toList)

/-- A shell that has nothing in the staging directory. -/
inductive Outside : Run → Prop
  | script (errexit : Bool) : Outside ⟨errexit, site.commands x⟩
  | making : Outside ⟨true, .mkdirP site.staging :: site.unpack x⟩
  | closing (run : Run) (h : ∀ c ∈ run.rest, Idle site c) : Outside run

/-- The staging directory holds a complete extraction. -/
def Staged (s : Installing) : Prop :=
  ∃ a ∈ s.uploaded, x.complete a = some (tree s.remote.fs site.staging)

/-- The shell that has its files in the staging directory. -/
inductive Inside (s : Installing) : Run → Prop
  | unpack (hdir : s.remote.fs site.staging = some .dir) (hfinal : FinalOk x site before s) :
    Inside s ⟨true, site.unpack x⟩
  | ready (a : Archive) (t : FileSystem) (done todo : List RelCommand) (ha : a ∈ s.uploaded)
    (hfresh : x.fresh a = some t) (hinner : x.inner = done ++ todo)
    (hdone : done.foldlM RelCommand.run t = some (tree s.remote.fs site.staging))
    (hfinal : FinalOk x site before s) : Inside s ⟨true, site.ready todo⟩
  | removing (hstaged : Staged x site s)
    (hfinal : FinalOk x site before s ∨ tree s.remote.fs site.final = emptyDir) :
    Inside s ⟨true, .rmRf site.final :: .mv site.staging site.final :: site.closing⟩
  | moving (hstaged : Staged x site s) (hnone : s.remote.fs site.final = none) :
    Inside s ⟨true, .mv site.staging site.final :: site.closing⟩

/-- No shell has its files in the staging directory, or one. -/
structure Sound (s : Installing) : Prop where
  uploaded : ∀ a, s.remote.archives site.archive = some a → a ∈ s.uploaded
  runs : (FinalOk x site before s ∧ ∀ pid, Outside x site (s.runs pid)) ∨
    ∃ pid, Inside x site before s (s.runs pid) ∧
      ∀ other, other ≠ pid → Outside x site (s.runs other)

variable {x site before} {s s' : Installing} {run : Run} {c : Command} {rest : List Command}

theorem FinalOk.mono (h : FinalOk x site before s)
    (hfinal : tree s'.remote.fs site.final = tree s.remote.fs site.final)
    (hup : ∀ a ∈ s.uploaded, a ∈ s'.uploaded) : FinalOk x site before s' := by
  unfold FinalOk
  rw [hfinal]
  rcases h with h | ⟨a, ha, hcomplete⟩
  · exact .inl h
  · exact .inr ⟨a, hup a ha, hcomplete⟩

/-- Changes to neither directory keep what a shell has. -/
theorem Inside.mono (h : Inside x site before s run) (hfs : s'.remote.fs = s.remote.fs)
    (hup : ∀ a ∈ s.uploaded, a ∈ s'.uploaded) : Inside x site before s' run := by
  have hfinal : FinalOk x site before s → FinalOk x site before s' :=
    fun hok => hok.mono (by rw [hfs]) hup
  have hstaged : Staged x site s → Staged x site s' := by
    rintro ⟨a, ha, hcomplete⟩
    exact ⟨a, hup a ha, by rw [hfs, hcomplete]⟩
  cases h with
  | unpack hdir hok => exact .unpack (by rw [hfs, hdir]) (hfinal hok)
  | ready a t done todo ha hfresh hinner hdone hok =>
    exact .ready a t done todo (hup a ha) hfresh hinner (by rw [hfs, hdone]) (hfinal hok)
  | removing hst hok => exact .removing (hstaged hst) (hok.imp hfinal fun h => by rw [hfs, h])
  | moving hst hnone => exact .moving (hstaged hst) (by rw [hfs, hnone])

theorem not_mem_of_idle (h : ∀ c ∈ rest, Idle site c) (a b : List Char) :
    Command.mv a b ∉ rest := by
  intro hmem
  rcases h _ hmem with h | h <;> cases h

theorem idle_closing : ∀ c ∈ site.closing, Idle site c := by
  simp [Site.closing, Idle, Command.touches]

theorem Outside.not_unpacks (h : Outside x site run) : ¬ Unpacks site run.rest := by
  rintro ⟨hmv, hmkdir⟩
  cases h with
  | script errexit => exact hmkdir (by simp [Site.commands])
  | making => exact hmkdir List.mem_cons_self
  | closing run hidle => exact not_mem_of_idle hidle _ _ hmv

theorem mv_mem_ready (todo : List RelCommand) :
    .mv site.staging site.final ∈ site.ready todo := by
  simp [Site.ready, Site.swap]

theorem mkdirP_not_mem_ready {p : List Char} (hp : p ≠ site.final) (todo : List RelCommand) :
    .mkdirP p ∉ site.ready todo := by
  simp only [Site.ready, Site.swap, Site.closing, List.mem_append, List.mem_map, List.mem_cons,
    Command.mkdirP.injEq, hp, reduceCtorEq, List.not_mem_nil, or_false]
  rintro ⟨c, -, hc⟩
  cases c <;> cases hc

theorem Inside.unpacks (h : Inside x site before s run) (hne : site.staging ≠ site.final) :
    Unpacks site run.rest := by
  cases h with
  | unpack hdir hok =>
    exact ⟨List.mem_cons_of_mem _ (mv_mem_ready _), by
      simpa [Site.unpack] using mkdirP_not_mem_ready hne _⟩
  | ready a t done todo ha hfresh hinner hdone hok =>
    exact ⟨mv_mem_ready todo, mkdirP_not_mem_ready hne todo⟩
  | removing hst hok => exact ⟨by simp, by simp [Site.closing]⟩
  | moving hst hnone => exact ⟨by simp, by simp [Site.closing]⟩

/-- A shell that is not between the removal and the move can stop. -/
theorem Inside.finalOk (h : Inside x site before s run) (hswaps : ¬ Swaps site s run.rest) :
    FinalOk x site before s := by
  cases h with
  | unpack hdir hok => exact hok
  | ready a t done todo ha hfresh hinner hdone hok => exact hok
  | removing hst hok =>
    refine hok.resolve_right fun hempty => hswaps ⟨by simp, by simp [Site.closing], fun _ => hempty⟩
  | moving hst hnone =>
    exact absurd ⟨by simp, by simp [Site.closing], by simp [Site.closing]⟩ hswaps

/-! ### Steps -/

@[simp] theorem setRun_runs_self (s : Installing) (pid : ℕ) (run : Run) :
    (s.setRun pid run).runs pid = run := Function.update_self _ _ _

theorem setRun_runs_of_ne {pid other : ℕ} (h : other ≠ pid) (s : Installing) (run : Run) :
    (s.setRun pid run).runs other = s.runs other := Function.update_of_ne h _ _

/-- The next command of a shell is done, or it fails. -/
theorem exec_cases {pid : ℕ} {errexit : Bool} (fails : Bool)
    (h : s.runs pid = ⟨errexit, c :: rest⟩) :
    (∃ r, (fails = true → c = .setE) ∧ c.exec s.remote = some r ∧
        s.exec pid fails =
          { s with remote := r }.setRun pid ⟨errexit || c = Command.setE, rest⟩) ∨
      (c ≠ .setE ∧ (fails = true ∨ c.exec s.remote = none) ∧
        s.exec pid fails = s.setRun pid ⟨errexit, if errexit then [] else rest⟩) := by
  unfold exec
  rw [h]
  dsimp only
  by_cases hc : c = .setE
  · subst hc
    rw [if_neg (by simp)]
    exact .inl ⟨s.remote, fun _ => rfl, rfl, rfl⟩
  · cases fails with
    | true =>
      rw [if_pos (by simp [hc])]
      exact .inr ⟨hc, .inl rfl, rfl⟩
    | false =>
      rw [if_neg (by simp)]
      cases hexec : c.exec s.remote with
      | none => exact .inr ⟨hc, .inr rfl, rfl⟩
      | some r => exact .inl ⟨r, (by simp), rfl, rfl⟩

theorem Sound.of_inside {pid : ℕ}
    (hup : ∀ a, s.remote.archives site.archive = some a → a ∈ s.uploaded)
    (hin : Inside x site before s run)
    (hout : ∀ other, other ≠ pid → Outside x site (s.runs other)) :
    Sound x site before (s.setRun pid run) := by
  refine ⟨hup, .inr ⟨pid, ?_, fun other hne => ?_⟩⟩
  · rw [setRun_runs_self]
    exact hin.mono rfl fun _ ha => ha
  · rw [setRun_runs_of_ne hne]
    exact hout other hne

theorem Sound.of_finalOk {pid : ℕ}
    (hup : ∀ a, s.remote.archives site.archive = some a → a ∈ s.uploaded)
    (hok : FinalOk x site before s) (hrun : Outside x site run)
    (hout : ∀ other, other ≠ pid → Outside x site (s.runs other)) :
    Sound x site before (s.setRun pid run) := by
  refine ⟨hup, .inl ⟨hok.mono rfl fun _ ha => ha, fun other => ?_⟩⟩
  by_cases hne : other = pid
  · subst hne
    rw [setRun_runs_self]
    exact hrun
  · rw [setRun_runs_of_ne hne]
    exact hout other hne

/-- A shell whose files are not in the staging directory stops or goes on, without a change to
the files. -/
theorem Sound.setRun {pid : ℕ} (h : Sound x site before s)
    (hswaps : ¬ Swaps site s (s.runs pid).rest) (hrun : Outside x site run) :
    Sound x site before (s.setRun pid run) := by
  rcases h.runs with ⟨hok, hout⟩ | ⟨p, hin, hout⟩
  · exact .of_finalOk h.uploaded hok hrun fun other _ => hout other
  · by_cases hp : p = pid
    · subst hp
      exact .of_finalOk h.uploaded (hin.finalOk hswaps) hrun hout
    · refine ⟨h.uploaded, .inr ⟨p, ?_, fun other hne => ?_⟩⟩
      · rw [setRun_runs_of_ne hp]
        exact hin.mono rfl fun _ ha => ha
      · by_cases hother : other = pid
        · subst hother
          rw [setRun_runs_self]
          exact hrun
        · rw [setRun_runs_of_ne hother]
          exact hout other hne

/-- A change that leaves the files alone. -/
theorem Sound.of_fs (h : Sound x site before s) (hfs : s'.remote.fs = s.remote.fs)
    (hup : ∀ a ∈ s.uploaded, a ∈ s'.uploaded) (hruns : s'.runs = s.runs)
    (hup' : ∀ a, s'.remote.archives site.archive = some a → a ∈ s'.uploaded) :
    Sound x site before s' := by
  refine ⟨hup', ?_⟩
  rw [hruns]
  rcases h.runs with ⟨hok, hout⟩ | ⟨p, hin, hout⟩
  · exact .inl ⟨hok.mono (by rw [hfs]) hup, hout⟩
  · exact .inr ⟨p, hin.mono hfs hup, hout⟩

theorem Outside.not_swaps (h : Outside x site run) : ¬ Swaps site s run.rest := by
  rintro ⟨hmv, hmkdir, -⟩
  cases h with
  | script errexit => exact hmkdir (by simp [Site.commands, Site.unpack, Site.ready, Site.swap])
  | making => exact hmkdir (by simp [Site.unpack, Site.ready, Site.swap])
  | closing run hidle => exact not_mem_of_idle hidle _ _ hmv

theorem Sound.alone (h : Sound x site before s) (hne : site.staging ≠ site.final)
    (hall : ∀ pid, ¬ Unpacks site (s.runs pid).rest) :
    FinalOk x site before s ∧ ∀ pid, Outside x site (s.runs pid) := by
  rcases h.runs with h | ⟨p, hin, -⟩
  · exact h
  · exact absurd (hin.unpacks hne) (hall p)

theorem resolve_ne_nil (sh : RemoteShell) (p : List Char) : sh.resolve p ≠ [] := by
  unfold RemoteShell.resolve
  split_ifs with h
  · rintro rfl
    exact absurd h (by decide)
  · simp

theorem final_ne_nil (site : Site) : site.final ≠ [] := resolve_ne_nil _ _

theorem staging_ne_nil (site : Site) : site.staging ≠ [] := resolve_ne_nil _ _

/-- What begins as a staging directory is not below the final one. -/
theorem tree_glob (fs : FileSystem) (root : List Char) :
    tree (fun p => if root ++ ".staging-".toList <+: p then none else fs p) root =
      tree fs root := by
  funext r
  by_cases hr : IsRel r
  · have hpre : ¬ root ++ ".staging-".toList <+: root ++ r := by
      rw [List.prefix_append_right_inj]
      intro hpre
      rcases hr with rfl | ⟨r', rfl⟩
      · exact absurd (List.prefix_nil.mp hpre) (by decide)
      · exact absurd (List.cons_prefix_cons.mp hpre).1 (by decide)
    rw [tree_of_isRel hr, tree_of_isRel hr, if_neg hpre]
  · rw [tree, tree, if_neg hr, if_neg hr]

theorem Sound.uploaded_of_exec (h : Sound x site before s) {r : Remote}
    (hexec : c.exec s.remote = some r) {a : Archive} (ha : r.archives site.archive = some a) :
    a ∈ s.uploaded := by
  rcases Command.exec_archives hexec site.archive with heq | hnone
  · exact h.uploaded a (by rw [← heq, ha])
  · rw [hnone] at ha
    cases ha

/-- A step of a shell that has nothing in the staging directory. -/
theorem Sound.exec_outside {pid : ℕ} {fails : Bool} (hapart : Apart site.staging site.final)
    (h : Sound x site before s) (hout : Outside x site (s.runs pid))
    (hkeeps : Keeps x site s (.exec pid fails)) : Sound x site before (s.exec pid fails) := by
  have hne : site.staging ≠ site.final := by
    intro heq
    rw [heq] at hapart
    exact hapart.1 (.refl _)
  have hswaps : ¬ Swaps site s (s.runs pid).rest := hout.not_swaps
  have halone : ∀ c rest, (s.runs pid).rest = c :: rest → c.touches →
      FinalOk x site before s ∧ ∀ p, Outside x site (s.runs p) := by
    intro c rest hrest hc
    refine h.alone hne fun p => ?_
    by_cases hp : p = pid
    · subst hp
      exact hout.not_unpacks
    · exact (hkeeps c rest hrest).1 hc p hp
  generalize hrun : s.runs pid = run at hout
  cases hout with
  | script errexit =>
    obtain ⟨r, -, hexec, heq⟩ | ⟨hc, -, -⟩ := exec_cases fails hrun
    · cases hexec
      rw [heq]
      simpa using h.setRun hswaps .making
    · exact absurd rfl hc
  | making =>
    obtain ⟨r, -, hexec, heq⟩ | ⟨-, -, heq⟩ := exec_cases fails hrun <;> rw [heq]
    · obtain ⟨hok, hall⟩ := halone _ _ (congrArg Run.rest hrun) rfl
      have hup : ∀ a, r.archives site.archive = some a → a ∈ s.uploaded :=
        fun a => h.uploaded_of_exec hexec
      obtain ⟨fs, hfs, rfl⟩ := Option.map_eq_some_iff.mp hexec
      obtain ⟨hdir, -, hother⟩ := mkdirP_spec (staging_ne_nil site) hfs
      exact .of_inside hup (.unpack hdir (hok.mono (hother _ hapart) fun _ ha => ha))
        fun other _ => hall other
    · exact h.setRun hswaps (.closing _ (by simp))
  | closing run hidle =>
    obtain ⟨errexit, cs⟩ := run
    cases cs with
    | nil =>
      unfold exec
      rw [hrun]
      exact h
    | cons c rest =>
      obtain ⟨hc, hrest⟩ := List.forall_mem_cons.mp hidle
      obtain ⟨r, -, hexec, heq⟩ | ⟨-, -, heq⟩ := exec_cases fails hrun <;> rw [heq]
      · have hup : ∀ a, r.archives site.archive = some a → a ∈ s.uploaded :=
          fun a => h.uploaded_of_exec hexec
        rcases hc with hc | rfl
        · have hs : Sound x site before { s with remote := r } :=
            h.of_fs (Command.exec_fs hc hexec) (fun _ ha => ha) rfl hup
          refine hs.setRun ?_ (.closing _ hrest)
          change ¬ Swaps site _ (s.runs pid).rest
          rw [hrun]
          exact (Outside.closing (x := x) _ hidle).not_swaps
        · obtain ⟨hok, hall⟩ := halone _ _ (congrArg Run.rest hrun) rfl
          cases hexec
          exact .of_finalOk hup (hok.mono (tree_glob _ _) fun _ ha => ha) (.closing _ hrest)
            fun other _ => hall other
      · refine h.setRun hswaps (.closing _ ?_)
        dsimp only
        split_ifs
        · simp
        · exact hrest

/-- **An extraction into a clean directory is as into one of its own.** -/
theorem Clean.overlay_eq {a : Archive} {sel : FileSystem} (h : Clean x site s)
    (ha : s.remote.archives site.archive = some a) (hsel : a.select x.member = some sel)
    (hdir : s.remote.fs site.staging = some .dir) :
    overlay (tree s.remote.fs site.staging) sel = overlay emptyDir sel := by
  funext r
  unfold overlay emptyDir
  by_cases hr : r = []
  · subst hr
    rw [tree_nil, hdir, if_pos rfl]
  · cases hentry : sel r with
    | some e => rfl
    | none =>
      have hnone : tree s.remote.fs site.staging r = none := by
        by_contra hsome
        exact h a sel ha hsel r hr hsome hentry
      rw [hnone, if_neg hr]

theorem not_swaps_of_mem {rest : List Command} (h : .mkdirP site.final ∈ rest) :
    ¬ Swaps site s rest := fun hswaps => hswaps.2.1 h

theorem mkdirP_mem_ready (todo : List RelCommand) : .mkdirP site.final ∈ site.ready todo := by
  simp [Site.ready, Site.swap]

/-- The final directory is made where none was. -/
theorem FinalOk.mkdirP {fs : FileSystem} (h : FinalOk x site before s)
    (hfs : FileTree.mkdirP s.remote.fs site.final = some fs)
    (hs' : s'.remote.fs = fs) (hup : ∀ a ∈ s.uploaded, a ∈ s'.uploaded) :
    FinalOk x site before s' ∨ tree s'.remote.fs site.final = emptyDir := by
  subst hs'
  obtain ⟨hdir, hbelow, -⟩ := mkdirP_spec (final_ne_nil site) hfs
  rcases mkdirP_not_file (final_ne_nil site) hfs with hnone | hsome
  · have htree : tree s.remote.fs site.final = fun _ => none := by
      rcases h with h | ⟨a, -, hcomplete, -⟩
      · have hroot : before.fs site.final = none := by
          rw [← tree_nil before.fs, ← h, tree_nil, hnone]
        rw [h, before.tree_eq hroot]
      · have hsome := (x.complete_spec hcomplete).1
        rw [tree_nil, hnone] at hsome
        cases hsome
    refine .inr (funext fun r => ?_)
    by_cases hr : r = []
    · subst hr
      rw [tree_nil, hdir, emptyDir, if_pos rfl]
    · rw [hbelow r hr, htree, emptyDir, if_neg hr]
  · refine .inl (h.mono (funext fun r => ?_) hup)
    by_cases hr : r = []
    · subst hr
      rw [tree_nil, tree_nil, hdir, hsome]
    · exact hbelow r hr

section Inside

variable {pid : ℕ} {fails : Bool} {todo : List RelCommand} (hapart : Apart site.staging site.final)
  (h : Sound x site before s) (hout : ∀ other, other ≠ pid → Outside x site (s.runs other))

include hapart h hout

/-- The archive is extracted into a clean staging directory. -/
theorem Sound.exec_unpack (hrun : s.runs pid = ⟨true, site.unpack x⟩)
    (hdir : s.remote.fs site.staging = some .dir) (hok : FinalOk x site before s)
    (hclean : Clean x site s) : Sound x site before (s.exec pid fails) := by
  obtain ⟨r, -, hexec, heq⟩ | ⟨-, -, heq⟩ := exec_cases fails hrun <;> rw [heq]
  · have hup : ∀ a, r.archives site.archive = some a → a ∈ s.uploaded :=
      fun a => h.uploaded_of_exec hexec
    obtain ⟨a, ha, hexec⟩ := Option.bind_eq_some_iff.mp hexec
    obtain ⟨sel, hsel, hexec⟩ := Option.bind_eq_some_iff.mp hexec
    rw [hdir] at hexec
    cases hexec
    have hfresh : x.fresh a = some (overlay emptyDir sel) := by
      rw [Artifact.fresh, hsel]
      rfl
    refine .of_inside hup (.ready a _ [] x.inner (h.uploaded a ha) hfresh rfl ?_
      (hok.mono (tree_put_of_apart hapart) fun _ ha => ha)) hout
    rw [hclean.overlay_eq ha hsel hdir]
    exact congrArg some (tree_put (x.fresh_spec hfresh).2).symm
  · refine h.setRun (not_swaps_of_mem ?_) (.closing _ (by simp))
    rw [hrun]
    exact List.mem_cons_of_mem _ (mkdirP_mem_ready _)

/-- What was extracted is readied, by one command. -/
theorem Sound.exec_ready {a : Archive} {t : FileSystem} {done : List RelCommand} {c : RelCommand}
    (hrun : s.runs pid = ⟨true, site.ready (c :: todo)⟩) (ha : a ∈ s.uploaded)
    (hfresh : x.fresh a = some t) (hinner : x.inner = done ++ c :: todo)
    (hdone : done.foldlM RelCommand.run t = some (tree s.remote.fs site.staging))
    (hok : FinalOk x site before s) : Sound x site before (s.exec pid fails) := by
  obtain ⟨r, -, hexec, heq⟩ | ⟨-, -, heq⟩ := exec_cases fails hrun <;> rw [heq]
  · have hup : ∀ a, r.archives site.archive = some a → a ∈ s.uploaded :=
      fun a => h.uploaded_of_exec hexec
    have hproper : ∀ c' ∈ done ++ c :: todo, c'.Proper := hinner ▸ x.proper_inner
    have hc : c.Proper := hproper c (by simp)
    have htree : IsTree (tree s.remote.fs site.staging) := isTree_tree _ _
    rw [RelCommand.exec_at hc] at hexec
    obtain ⟨t', ht', rfl⟩ := Option.map_eq_some_iff.mp hexec
    refine .of_inside hup (.ready a t (done ++ [c]) todo ha hfresh (by simp [hinner]) ?_
      (hok.mono (tree_put_of_apart hapart) fun _ ha => ha)) hout
    have hput : tree (put s.remote.fs site.staging t') site.staging = t' :=
      tree_put (RelCommand.run_spec hc htree ht').2
    rw [List.foldlM_append, hdone]
    change (c.run _).bind pure = some (tree (put s.remote.fs site.staging t') site.staging)
    rw [ht', hput]
    rfl
  · refine h.setRun (not_swaps_of_mem ?_) (.closing _ (by simp))
    rw [hrun]
    exact mkdirP_mem_ready _

/-- The final directory is made, if there was none. -/
theorem Sound.exec_swap (hrun : s.runs pid = ⟨true, site.swap⟩) (hstaged : Staged x site s)
    (hok : FinalOk x site before s) : Sound x site before (s.exec pid fails) := by
  obtain ⟨r, -, hexec, heq⟩ | ⟨-, -, heq⟩ := exec_cases fails hrun <;> rw [heq]
  · have hup : ∀ a, r.archives site.archive = some a → a ∈ s.uploaded :=
      fun a => h.uploaded_of_exec hexec
    obtain ⟨fs, hfs, rfl⟩ := Option.map_eq_some_iff.mp hexec
    have hother := (mkdirP_spec (final_ne_nil site) hfs).2.2 _ hapart.symm
    obtain ⟨a, ha, hcomplete⟩ := hstaged
    refine .of_inside hup (.removing ⟨a, ha, ?_⟩ ?_) hout
    · rw [hcomplete]
      exact congrArg some hother.symm
    · exact hok.mkdirP hfs rfl fun _ ha => ha
  · refine h.setRun (not_swaps_of_mem ?_) (.closing _ (by simp))
    rw [hrun]
    exact List.mem_cons_self

/-- The final directory is removed. -/
theorem Sound.exec_removing
    (hrun : s.runs pid =
      ⟨true, .rmRf site.final :: .mv site.staging site.final :: site.closing⟩)
    (hstaged : Staged x site s) (hsafe : fails = true → ¬ Swaps site s (s.runs pid).rest) :
    Sound x site before (s.exec pid fails) := by
  obtain ⟨r, -, hexec, heq⟩ | ⟨-, hfails, heq⟩ := exec_cases fails hrun <;> rw [heq]
  · have hup : ∀ a, r.archives site.archive = some a → a ∈ s.uploaded :=
      fun a => h.uploaded_of_exec hexec
    cases hexec
    obtain ⟨a, ha, hcomplete⟩ := hstaged
    refine .of_inside hup (.moving ⟨a, ha, ?_⟩ (remove_self _ _)) hout
    change _ = some (tree (remove s.remote.fs site.final) site.staging)
    rw [hcomplete, tree_remove_of_apart hapart.symm]
  · rcases hfails with hfails | hfails
    · exact h.setRun (hsafe hfails) (.closing _ (by simp))
    · cases hfails

/-- The staging directory is moved to where the final one was. -/
theorem Sound.exec_moving
    (hrun : s.runs pid = ⟨true, .mv site.staging site.final :: site.closing⟩)
    (hstaged : Staged x site s) (hnone : s.remote.fs site.final = none)
    (hsafe : fails = true → ¬ Swaps site s (s.runs pid).rest) :
    Sound x site before (s.exec pid fails) := by
  obtain ⟨a, ha, hcomplete⟩ := hstaged
  have hsome : (s.remote.fs site.staging).isSome := by
    rw [← tree_nil s.remote.fs, (x.complete_spec hcomplete).1]
    rfl
  have hmv := mv_of_none hapart.1 hsome hnone
  have htree : tree (put (remove s.remote.fs site.staging) site.final
      (tree s.remote.fs site.staging)) site.final = tree s.remote.fs site.staging :=
    tree_put (isTree_tree _ _)
  obtain ⟨r, -, hexec, heq⟩ | ⟨-, hfails, heq⟩ := exec_cases fails hrun <;> rw [heq]
  · have hup : ∀ a, r.archives site.archive = some a → a ∈ s.uploaded :=
      fun a => h.uploaded_of_exec hexec
    rw [Command.exec, hmv] at hexec
    cases hexec
    refine .of_finalOk hup (.inr ⟨a, ha, ?_, ?_⟩) (.closing _ idle_closing) hout
    · exact htree.symm ▸ hcomplete
    · exact htree.symm ▸ x.complete_binary hcomplete
  · rcases hfails with hfails | hfails
    · exact h.setRun (hsafe hfails) (.closing _ (by simp))
    · rw [Command.exec, hmv] at hfails
      cases hfails

end Inside

/-- A step of the shell that has its files in the staging directory. -/
theorem Sound.exec_inside {pid : ℕ} {fails : Bool} (hapart : Apart site.staging site.final)
    (h : Sound x site before s) (hin : Inside x site before s (s.runs pid))
    (hout : ∀ other, other ≠ pid → Outside x site (s.runs other))
    (hkeeps : Keeps x site s (.exec pid fails)) : Sound x site before (s.exec pid fails) := by
  generalize hrun : s.runs pid = run at hin
  have hrest : (s.runs pid).rest = run.rest := congrArg Run.rest hrun
  cases hin with
  | unpack hdir hok => exact h.exec_unpack hapart hout hrun hdir hok ((hkeeps _ _ hrest).2.1 rfl)
  | ready a t done todo ha hfresh hinner hdone hok =>
    cases todo with
    | nil =>
      rw [List.append_nil] at hinner
      refine h.exec_swap hapart hout hrun ⟨a, ha, ?_⟩ hok
      rw [Artifact.complete, hfresh, hinner]
      exact hdone
    | cons c todo => exact h.exec_ready hapart hout hrun ha hfresh hinner hdone hok
  | removing hst hok => exact h.exec_removing hapart hout hrun hst (hkeeps _ _ hrest).2.2
  | moving hst hnone => exact h.exec_moving hapart hout hrun hst hnone (hkeeps _ _ hrest).2.2

/-- A shell starts with what it installs, or with nothing that matters. -/
theorem Sound.start {script : List Char} (h : Sound x site before s) (pid : ℕ)
    (hscript : ∀ run : Run, run.rest = readScript site.shell (toString pid).toList script →
      Outside x site run) : Sound x site before (s.start site pid script) := by
  unfold Installing.start
  split_ifs with hfree
  · refine h.setRun ?_ (hscript _ rfl)
    rw [hfree]
    rintro ⟨hmem, -⟩
    cases hmem
  · exact h

/-- **A step that keeps to the condition keeps what holds in a run.** -/
theorem Sound.step (hapart : Apart site.staging site.final) (h : Sound x site before s)
    (act : Action) (hkeeps : Keeps x site s act) : Sound x site before (s.step x site act) := by
  cases act with
  | upload a =>
    refine h.of_fs rfl (fun _ ha => List.mem_cons_of_mem _ ha) rfl fun b hb => ?_
    rw [show (s.step x site (.upload a)).remote.archives site.archive = some a from
      Function.update_self _ _ _] at hb
    cases hb
    exact List.mem_cons_self
  | startInstall pid =>
    refine h.start pid ?_
    rintro ⟨errexit, rest⟩ rfl
    rw [x.readScript_script]
    exact .script errexit
  | startCleanup pid =>
    refine h.start pid fun run hrun => .closing run ?_
    rw [hrun, readScript_cleanup]
    simp [Idle, Command.touches]
  | exec pid fails =>
    rcases h.runs with ⟨-, hall⟩ | ⟨p, hin, hout⟩
    · exact h.exec_outside hapart (hall pid) hkeeps
    · by_cases hp : pid = p
      · subst hp
        exact h.exec_inside hapart hin hout hkeeps
      · exact h.exec_outside hapart (hout pid hp) hkeeps
  | cut pid => exact h.setRun hkeeps (.closing _ (by simp))

theorem sound_boot (x : Artifact) (site : Site) (before : Disk) :
    Sound x site before (boot before) :=
  ⟨by simp [boot], .inl ⟨.inl rfl, fun _ => .closing _ (by simp [boot])⟩⟩

/-- **Runs whose steps all keep to the condition leave the final directory as it was, or with a
complete extraction of an archive**, once no script is between the removal and the move. -/
theorem finalOk_of_keeps (x : Artifact) (site : Site)
    (hapart : Apart site.staging site.final) (before : Disk) (acts : List Action)
    (h : Along (step x site) (Keeps x site) (boot before) acts) :
    ∀ pre, pre <+: acts →
      let s := pre.foldl (step x site) (boot before)
      (∀ pid, ¬ Swaps site s (s.runs pid).rest) → FinalOk x site before s := by
  rintro pre ⟨post, rfl⟩ s hswaps
  have hsound : Sound x site before s :=
    Along.foldl_invariant (fun s act hs hact => hs.step hapart act hact)
      (sound_boot x site before) h.of_append
  rcases hsound.runs with ⟨hok, -⟩ | ⟨pid, hin, -⟩
  · exact hok
  · exact hin.finalOk (hswaps pid)

/-! ### A local install -/

/-- A shell does not concern the others. -/
theorem exec_runs_of_ne {pid other : ℕ} {fails : Bool} (h : other ≠ pid) :
    (s.exec pid fails).runs other = s.runs other := by
  unfold exec
  split
  · rfl
  · split <;> exact setRun_runs_of_ne h _ _

theorem start_runs_of_ne {pid other : ℕ} {script : List Char} (h : other ≠ pid) :
    (s.start site pid script).runs other = s.runs other := by
  unfold Installing.start
  split_ifs
  · exact setRun_runs_of_ne h _ _
  · rfl

/-- A shell that is alone keeps to the condition, where it extracts into a clean directory. -/
theorem keeps_of_alone {pid : ℕ} (halone : ∀ other, other ≠ pid → (s.runs other).rest = [])
    (hclean : (s.runs pid).rest.head? =
      some (.extract site.format site.archive site.staging x.member) → Clean x site s) :
    Keeps x site s (.exec pid false) := by
  intro c rest hrest
  refine ⟨fun _ other hne => ?_, fun hc => hclean ?_, fun h => Bool.noConfusion h⟩
  · rw [halone other hne]
    rintro ⟨hmem, -⟩
    cases hmem
  · rw [hrest, hc]
    rfl

def localSite : Site where
  shell := ⟨fun _ => "/home".toList, "/home".toList⟩
  finalDir := "/f".toList
  archivePath := "/a".toList
  format := .tarGz
  slash := by decide

def localArchive : Archive where
  entries r := if r = "/polytoken".toList then some (.file ⟨false, "new"⟩) else none
  isTree r h := by
    by_cases hr : r = "/polytoken".toList
    · exact .inr ⟨"polytoken".toList, hr.symm⟩
    · exact absurd (if_neg hr) h
  root f h := by cases h

/-- A host with a final directory. -/
def localDisk : Disk where
  fs p := if p = [] ∨ p = "/f".toList then some .dir else none
  closed p r hr hp := by
    have hinits : ∀ p ∈ "/f".toList.inits, IsRel ("/f".toList.drop p.length) →
        p = [] ∨ p = "/f".toList := by decide
    by_contra hsome
    have hmem : p ++ r = [] ∨ p ++ r = "/f".toList := by
      by_contra hnot
      exact hsome (if_neg hnot)
    have hp' : p = [] ∨ p = "/f".toList := by
      rcases hmem with h | h
      · exact .inl (List.append_eq_nil_iff.mp h).1
      · refine hinits p ((List.mem_inits _ _).mpr ⟨r, h⟩) ?_
        rwa [← h, List.drop_left]
    rw [if_pos hp'] at hp
    cases hp

/-- An install by the shell with the pid 1, as far as a number of commands. -/
def localInstall (n : ℕ) : List Action :=
  [.upload localArchive, .startInstall 1] ++ List.replicate n (.exec 1 false)

/-- The other shells have nothing to do. -/
theorem rest_localInstall (n : ℕ) {pid : ℕ} (h : pid ≠ 1) :
    (((localInstall n).foldl (step .polytoken localSite) (boot localDisk)).runs pid).rest = [] := by
  have hrest : ∀ s : Installing, (s.runs pid).rest = [] →
      (((List.replicate n (Action.exec 1 false)).foldl (step .polytoken localSite) s).runs
        pid).rest = [] := by
    induction n with
    | zero => exact fun _ hs => hs
    | succ n ih =>
      intro s hs
      refine ih _ ?_
      change ((s.exec 1 false).runs pid).rest = []
      rw [exec_runs_of_ne h, hs]
  rw [localInstall, List.foldl_append]
  refine hrest _ ?_
  change ((((boot localDisk).step .polytoken localSite (.upload localArchive)).start localSite 1
    _).runs pid).rest = []
  rw [start_runs_of_ne h]
  rfl

set_option maxRecDepth 20000 in
theorem finalOk_localInstall : FinalOk .polytoken localSite localDisk
    ((localInstall 10).foldl (step .polytoken localSite) (boot localDisk)) := by
  refine finalOk_of_keeps .polytoken localSite (by decide) localDisk (localInstall 10) ?_ _
    (List.prefix_refl _) fun pid => ?_
  swap
  · have hrest : (((localInstall 10).foldl (step .polytoken localSite) (boot localDisk)).runs
        pid).rest = [] ∨ pid = 1 := by
      by_cases hpid : pid = 1
      · exact .inr hpid
      · exact .inl (rest_localInstall 10 hpid)
    rintro ⟨hmem, -⟩
    rcases hrest with hrest | rfl
    · rw [hrest] at hmem
      cases hmem
    · exact absurd hmem (by decide)
  refine ⟨trivial, trivial, ?_, ?_, ?_, ?_, ?_, ?_, ?_, ?_, ?_, ?_, trivial⟩
  all_goals refine keeps_of_alone (fun other hne => ?_) fun hhead => ?_
  case refine_3.refine_2 =>
    -- the staging directory was just made
    have hmkdir : mkdirP localDisk.fs localSite.staging = some _ := rfl
    have hnone : localDisk.fs localSite.staging = none := by decide
    intro a sel _ _ r hr hsome
    have htree := (mkdirP_spec (staging_ne_nil _) hmkdir).2.1 r hr
    rw [localDisk.tree_eq hnone] at htree
    exact absurd htree hsome
  all_goals first
    | exact absurd hhead (by decide)
    | (simp only [step, exec_runs_of_ne hne, start_runs_of_ne hne]
       rfl)

set_option maxRecDepth 20000 in
/-- **A script that is cut off after the removal leaves no final directory.** -/
theorem final_missing :
    ¬ ∀ (x : Artifact) (site : Site) (before : Disk) (acts : List Action),
      Apart site.staging site.final →
        let s := acts.foldl (step x site) (boot before)
        (∀ pid, (s.runs pid).rest = []) → FinalOk x site before s := by
  intro h
  generalize hs : (localInstall 7 ++ [Action.cut 1]).foldl (step .polytoken localSite)
    (boot localDisk) = s
  have hnone : s.remote.fs localSite.final = none := by
    subst hs
    decide
  have hok := h .polytoken localSite localDisk (localInstall 7 ++ [.cut 1]) (by decide)
  rw [hs] at hok
  have hstopped : ∀ pid, (s.runs pid).rest = [] := by
    intro pid
    subst hs
    by_cases hpid : pid = 1
    · subst hpid
      decide
    · rw [List.foldl_append, List.foldl_cons, List.foldl_nil]
      exact (congrArg Run.rest (setRun_runs_of_ne hpid _ _)).trans (rest_localInstall 7 hpid)
  rcases hok hstopped with htree | ⟨a, -, hcomplete, -⟩
  · have hroot := congrFun htree []
    rw [tree_nil, tree_nil, hnone] at hroot
    exact absurd hroot (by decide)
  · have hroot := (Artifact.complete_spec hcomplete).1
    rw [tree_nil, hnone] at hroot
    cases hroot

end Installing

end Pantoken.Desktop
