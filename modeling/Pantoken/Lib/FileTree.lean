import Mathlib.Data.List.Infix
import Mathlib.Data.List.TakeWhile

/-!
# File trees

A file system gives an entry to a path, and the tree at a path is the file system below it,
by what is left of each path.  A command on paths below a root does to the file system what
it does to the tree there.

## Main definitions

* `FileSystem`, `Under`, `tree`, `put` — a file system, the paths below one, the tree at a path
  and a tree put there.
* `mkdirP`, `remove`, `mv`, `chmodX`, `testX` — the commands, without a result where they fail.
* `Apart` — none of two paths is below the other.

## Main results

* `tree_put`, `tree_put_of_apart` — what is put at a path is there, and nowhere else.
* `mkdirP_spec` — `mkdir -p` makes a directory where nothing was, and changes no tree that is
  apart.
* `mv_of_none` — a tree is moved to where nothing is.
* `mv_append`, `chmodX_append`, `testX_append` — commands below a root.
-/

namespace Pantoken.FileTree

structure File where
  exec : Bool
  data : String
  deriving DecidableEq

inductive Entry where
  | dir
  | file (f : File)
  deriving DecidableEq

def Entry.isFile : Entry → Bool
  | .dir => false
  | .file _ => true

/-- What is at a path.  A path is absolute, or begins with a slash below a root. -/
abbrev FileSystem := List Char → Option Entry

/-- The path is the root or below it. -/
def Under (root p : List Char) : Prop := p = root ∨ root ++ ['/'] <+: p

instance (root p : List Char) : Decidable (Under root p) := inferInstanceAs (Decidable (_ ∨ _))

/-- What is left of a path below a root. -/
def IsRel (r : List Char) : Prop := r = [] ∨ ['/'] <+: r

instance (r : List Char) : Decidable (IsRel r) := inferInstanceAs (Decidable (_ ∨ _))

/-- A file system with nothing below what is missing. -/
structure Disk where
  fs : FileSystem
  closed : ∀ p r, IsRel r → fs p = none → fs (p ++ r) = none

section Paths

variable {a b p q r : List Char}

theorem under_append_iff : Under a (a ++ r) ↔ IsRel r := by
  unfold Under IsRel
  rw [List.append_right_eq_self, List.prefix_append_right_inj]

theorem under_iff : Under a p ↔ ∃ r, IsRel r ∧ p = a ++ r := by
  constructor
  · rintro (rfl | ⟨r, rfl⟩)
    · exact ⟨[], .inl rfl, (List.append_nil _).symm⟩
    · exact ⟨'/' :: r, .inr ⟨r, rfl⟩, by simp⟩
  · rintro ⟨r, hr, rfl⟩
    exact under_append_iff.mpr hr

theorem Under.refl (p : List Char) : Under p p := .inl rfl

theorem IsRel.append (hp : IsRel p) (hq : IsRel q) : IsRel (p ++ q) := by
  rcases hp with rfl | ⟨p', rfl⟩
  · exact hq
  · exact .inr ⟨p' ++ q, rfl⟩

theorem Under.trans (h : Under a b) (h' : Under b p) : Under a p := by
  obtain ⟨r, hr, rfl⟩ := under_iff.mp h
  obtain ⟨r', hr', rfl⟩ := under_iff.mp h'
  rw [List.append_assoc]
  exact under_append_iff.mpr (hr.append hr')

/-- Below a root, paths are below one another as what is left of them is. -/
theorem under_append_append : Under (a ++ p) (a ++ q) ↔ Under p q := by
  unfold Under
  rw [List.append_right_inj, List.append_assoc, List.prefix_append_right_inj]

theorem IsRel.of_append (h : IsRel (p ++ q)) : IsRel p := by
  cases p with
  | nil => exact .inl rfl
  | cons c p =>
    rcases h with h | ⟨rest, h⟩
    · cases h
    · cases h
      exact .inr ⟨p, rfl⟩

/-- Of two paths above the same path one is above the other. -/
theorem under_or_under (ha : Under a p) (hb : Under b p) : Under a b ∨ Under b a := by
  obtain ⟨r, hr, rfl⟩ := under_iff.mp ha
  obtain ⟨r', hr', heq⟩ := under_iff.mp hb
  rcases List.append_eq_append_iff.mp heq with ⟨c, rfl, rfl⟩ | ⟨c, rfl, rfl⟩
  · exact .inl (under_append_iff.mpr hr.of_append)
  · exact .inr (under_append_iff.mpr hr'.of_append)

/-- None of the paths is below the other. -/
def Apart (a b : List Char) : Prop := ¬ Under a b ∧ ¬ Under b a

instance (a b : List Char) : Decidable (Apart a b) := inferInstanceAs (Decidable (_ ∧ _))

theorem Apart.symm (h : Apart a b) : Apart b a := ⟨h.2, h.1⟩

theorem Apart.not_under (h : Apart a b) (ha : Under a p) : ¬ Under b p := by
  intro hb
  rcases under_or_under ha hb with hab | hba
  · exact h.1 hab
  · exact h.2 hba

end Paths

/-! ### Trees -/

/-- The tree at a path. -/
def tree (fs : FileSystem) (root : List Char) : FileSystem :=
  fun r => if IsRel r then fs (root ++ r) else none

/-- A tree put at a path, in place of what is there. -/
def put (fs : FileSystem) (root : List Char) (t : FileSystem) : FileSystem :=
  fun p => if Under root p then t (p.drop root.length) else fs p

/-- A tree has entries where a path goes on below a root only. -/
def IsTree (t : FileSystem) : Prop := ∀ r, t r ≠ none → IsRel r

section Trees

variable {fs : FileSystem} {a b r : List Char} {t : FileSystem}

theorem isTree_tree (fs : FileSystem) (root : List Char) : IsTree (tree fs root) := by
  intro r h
  by_contra hr
  exact h (if_neg hr)

theorem tree_of_isRel (hr : IsRel r) : tree fs a r = fs (a ++ r) := if_pos hr

@[simp] theorem tree_nil (fs : FileSystem) (a : List Char) : tree fs a [] = fs a := by
  rw [tree_of_isRel (.inl rfl), List.append_nil]

theorem Disk.tree_eq (disk : Disk) {p : List Char} (h : disk.fs p = none) :
    tree disk.fs p = fun _ => none := by
  funext r
  unfold tree
  split_ifs with hr
  · exact disk.closed p r hr h
  · rfl

/-- **What is put at a path is there.** -/
theorem tree_put (ht : IsTree t) : tree (put fs a t) a = t := by
  funext r
  by_cases hr : IsRel r
  · rw [tree_of_isRel hr, put, if_pos (under_append_iff.mpr hr), List.drop_left]
  · rw [tree, if_neg hr]
    by_contra h
    exact hr (ht r fun hnone => h hnone.symm)

/-- **What is put at a path changes no tree that is apart.** -/
theorem tree_put_of_apart (h : Apart a b) : tree (put fs a t) b = tree fs b := by
  funext r
  unfold tree
  split_ifs with hr
  · rw [put, if_neg (h.symm.not_under (under_append_iff.mpr hr))]
  · rfl

theorem put_tree : put fs a (tree fs a) = fs := by
  funext p
  unfold put
  split_ifs with hp
  · obtain ⟨r, hr, rfl⟩ := under_iff.mp hp
    rw [List.drop_left, tree_of_isRel hr]
  · rfl

theorem put_append (hr : IsRel r) (fs : FileSystem) (a : List Char) (t : FileSystem) :
    put fs (a ++ r) t = put fs a (put (tree fs a) r t) := by
  funext p
  by_cases hp : Under a p
  · obtain ⟨q, hq, rfl⟩ := under_iff.mp hp
    simp only [put, if_pos hp, under_append_append, List.drop_left, List.length_append,
      tree_of_isRel hq]
    rw [← List.drop_drop, List.drop_left]
  · have hp' : ¬ Under (a ++ r) p := fun h => hp ((under_append_iff.mpr hr).trans h)
    simp only [put, if_neg hp, if_neg hp']

/-- The last tree that is put at a path stays there. -/
theorem put_put (fs : FileSystem) (a : List Char) (t t' : FileSystem) :
    put (put fs a t) a t' = put fs a t' := by
  funext p
  unfold put
  split_ifs <;> rfl

theorem IsTree.put {t' : FileSystem} (ht : IsTree t) (hr : IsRel r) : IsTree (put t r t') := by
  intro q hq
  unfold FileTree.put at hq
  split_ifs at hq with hunder
  · obtain ⟨q', hq', rfl⟩ := under_iff.mp hunder
    exact hr.append hq'
  · exact ht q hq

theorem tree_append (hr : IsRel r) : tree fs (a ++ r) = tree (tree fs a) r := by
  funext r'
  unfold tree
  split_ifs with hr' hrr
  · rw [List.append_assoc]
  · exact absurd (hr.append hr') hrr
  · rfl

end Trees

/-! ### Commands -/

/-- The paths above a path, and the path itself. -/
def ancestors (p : List Char) : List (List Char) :=
  p.inits.filter fun q => q ≠ [] ∧ Under q p

instance decidableMemAncestors (q p : List Char) : Decidable (q ∈ ancestors p) :=
  decidable_of_iff ((ancestors p).contains q = true) List.contains_iff_mem

/-- `mkdir -p` -/
def mkdirP (fs : FileSystem) (p : List Char) : Option FileSystem :=
  if (ancestors p).any fun q => (fs q).any (·.isFile) then none
  else some fun q => if q ∈ ancestors p then (fs q).or (some .dir) else fs q

/-- `rm -rf` -/
def remove (fs : FileSystem) (p : List Char) : FileSystem := put fs p fun _ => none

/-- The last name of a path, with the slash before it. -/
def baseName (p : List Char) : List Char :=
  '/' :: (p.reverse.takeWhile (· ≠ '/')).reverse

/-- `mv`: into the path where that is a directory, and else to it.  A directory is not moved
over anything, nor into itself. -/
def mv (fs : FileSystem) (a b : List Char) : Option FileSystem :=
  let target := if fs b = some .dir then b ++ baseName a else b
  match fs a with
  | none => none
  | some e =>
    if Under a target ∨ fs target = some .dir ∨ (e = .dir ∧ (fs target).isSome) then none
    else some (put (remove fs a) target (tree fs a))

/-- `chmod +x` -/
def chmodX (fs : FileSystem) (p : List Char) : Option FileSystem :=
  match fs p with
  | none => none
  | some .dir => some fs
  | some (.file f) => some fun q => if q = p then some (.file { f with exec := true }) else fs q

/-- `test -x` -/
def testX (fs : FileSystem) (p : List Char) : Option FileSystem :=
  match fs p with
  | none => none
  | some .dir => some fs
  | some (.file f) => if f.exec then some fs else none

section Commands

variable {fs fs' : FileSystem} {a b p q r : List Char}

theorem mem_ancestors : q ∈ ancestors p ↔ q ≠ [] ∧ Under q p := by
  unfold ancestors
  rw [List.mem_filter, List.mem_inits, decide_eq_true_eq, and_iff_right_iff_imp]
  rintro ⟨-, rfl | h⟩
  · exact List.prefix_refl _
  · exact (List.prefix_append _ _).trans h

theorem isRel_of_mem_ancestors (hp : IsRel p) (h : q ∈ ancestors p) : IsRel q := by
  obtain ⟨r, -, rfl⟩ := under_iff.mp (mem_ancestors.mp h).2
  exact hp.of_append

/-- A file is in the way of a directory. -/
theorem mkdirP_not_file (hp : p ≠ []) (h : mkdirP fs p = some fs') :
    fs p = none ∨ fs p = some .dir := by
  unfold mkdirP at h
  split_ifs at h with hfile
  cases hentry : fs p with
  | none => exact .inl rfl
  | some e =>
    cases e with
    | dir => exact .inr rfl
    | file f =>
      refine absurd (List.any_eq_true.mpr ⟨p, mem_ancestors.mpr ⟨hp, .refl p⟩, ?_⟩) hfile
      rw [hentry]
      rfl

/-- **A directory is made where nothing was, and no tree that is apart changes.** -/
theorem mkdirP_spec (hp : p ≠ []) (h : mkdirP fs p = some fs') :
    fs' p = some .dir ∧ (∀ r, r ≠ [] → tree fs' p r = tree fs p r) ∧
      (∀ b, Apart p b → tree fs' b = tree fs b) := by
  have hentry := mkdirP_not_file hp h
  unfold mkdirP at h
  split_ifs at h with hfile
  cases h
  have hmem : p ∈ ancestors p := mem_ancestors.mpr ⟨hp, .refl p⟩
  refine ⟨?_, ?_, ?_⟩
  · simp only [if_pos hmem]
    rcases hentry with hentry | hentry <;> rw [hentry] <;> rfl
  · intro r hr
    unfold tree
    by_cases hrel : IsRel r
    · -- nothing below the directory is above it
      have hanc : p ++ r ∉ ancestors p := by
        intro hmem'
        obtain ⟨-, heq | ⟨rest, heq⟩⟩ := mem_ancestors.mp hmem'
        · exact hr (List.append_right_eq_self.mp heq.symm)
        · have hlength := congrArg List.length heq
          simp only [List.length_append, List.length_singleton] at hlength
          omega
      simp only [if_pos hrel, if_neg hanc]
    · simp only [if_neg hrel]
  · intro b hapart
    funext r
    unfold tree
    by_cases hrel : IsRel r
    · have hanc : b ++ r ∉ ancestors p := fun hmem' =>
        hapart.2 ((under_append_iff.mpr hrel).trans (mem_ancestors.mp hmem').2)
      simp only [if_pos hrel, if_neg hanc]
    · simp only [if_neg hrel]

theorem chmodX_append (hr : IsRel r) :
    chmodX fs (a ++ r) = (chmodX (tree fs a) r).map (put fs a) := by
  unfold chmodX
  rw [tree_of_isRel hr]
  cases fs (a ++ r) with
  | none => rfl
  | some e =>
    cases e with
    | dir => rw [Option.map_some, put_tree]
    | file f =>
      rw [Option.map_some, Option.some.injEq]
      funext p
      by_cases hp : Under a p
      · obtain ⟨q, hq, rfl⟩ := under_iff.mp hp
        simp only [put, if_pos hp, List.drop_left, List.append_right_inj, tree_of_isRel hq]
      · have hne : p ≠ a ++ r := by
          rintro rfl
          exact hp (under_append_iff.mpr hr)
        simp only [put, if_neg hp, if_neg hne]

theorem testX_append (hr : IsRel r) :
    testX fs (a ++ r) = (testX (tree fs a) r).map (put fs a) := by
  unfold testX
  rw [tree_of_isRel hr]
  cases fs (a ++ r) with
  | none => rfl
  | some e =>
    cases e with
    | dir => rw [Option.map_some, put_tree]
    | file f =>
      dsimp only
      split_ifs
      · rw [Option.map_some, put_tree]
      · rfl

theorem isRel_baseName (p : List Char) : IsRel (baseName p) := .inr ⟨_, rfl⟩

theorem baseName_append (hp : '/' ∈ p) : baseName (a ++ p) = baseName p := by
  unfold baseName
  rw [List.reverse_append, List.takeWhile_append, if_neg]
  intro hlength
  have hall := List.takeWhile_eq_self_iff.mp (List.takeWhile_prefix _ |>.eq_of_length hlength)
  exact absurd (hall '/' (List.mem_reverse.mpr hp)) (by decide)

/-- **Moving below a root moves in the tree there.** -/
theorem mv_append (hp : ['/'] <+: p) (hq : IsRel q) :
    mv fs (a ++ p) (a ++ q) = (mv (tree fs a) p q).map (put fs a) := by
  have hrel : IsRel p := .inr hp
  have hslash : '/' ∈ p := hp.subset List.mem_cons_self
  have htarget : (if fs (a ++ q) = some .dir then a ++ q ++ baseName (a ++ p) else a ++ q) =
      a ++ if tree fs a q = some .dir then q ++ baseName p else q := by
    rw [tree_of_isRel hq, baseName_append hslash]
    split_ifs <;> simp
  have htree : IsRel (if tree fs a q = some .dir then q ++ baseName p else q) := by
    split_ifs
    · exact hq.append (isRel_baseName p)
    · exact hq
  unfold mv
  rw [htarget]
  generalize (if tree fs a q = some .dir then q ++ baseName p else q) = t at htree ⊢
  simp only [under_append_append, ← tree_of_isRel htree, ← tree_of_isRel hrel]
  cases tree fs a p with
  | none => rfl
  | some e =>
    dsimp only
    split_ifs
    · rfl
    · have hremove : remove fs (a ++ p) = put fs a (remove (tree fs a) p) :=
        put_append hrel fs a _
      have hremoved : IsTree (remove (tree fs a) p) := (isTree_tree fs a).put hrel
      rw [Option.map_some, hremove, put_append htree, put_put, tree_put hremoved,
        tree_append hrel]

/-- What is moved is put at the target, or below it. -/
theorem mv_spec (h : mv fs a b = some fs') :
    ∃ target, (target = b ∨ target = b ++ baseName a) ∧
      fs' = put (remove fs a) target (tree fs a) := by
  unfold mv at h
  cases ha : fs a with
  | none =>
    rw [ha] at h
    cases h
  | some e =>
    rw [ha] at h
    dsimp only at h
    split_ifs at h <;> cases h
    · exact ⟨_, .inr rfl, rfl⟩
    · exact ⟨_, .inl rfl, rfl⟩

/-- What is moved to where nothing is, is there. -/
theorem mv_apply (hb : fs b = none) (h : mv fs a b = some fs') : fs' b = fs a := by
  unfold mv at h
  simp only [hb, reduceCtorEq, if_false] at h
  cases ha : fs a with
  | none =>
    rw [ha] at h
    cases h
  | some e =>
    rw [ha] at h
    dsimp only at h
    split_ifs at h
    cases h
    rw [put, if_pos (.refl b), List.drop_length, tree_of_isRel (.inl rfl), List.append_nil, ha]

/-- A tree is moved to where nothing is. -/
theorem mv_of_none (hab : ¬ Under a b) (ha : (fs a).isSome) (hb : fs b = none) :
    mv fs a b = some (put (remove fs a) b (tree fs a)) := by
  obtain ⟨e, he⟩ := Option.isSome_iff_exists.mp ha
  simp [mv, he, hb, hab]

/-- A command on a path below a directory keeps the directory. -/
theorem put_nil (hr : ['/'] <+: r) (fs : FileSystem) (t : FileSystem) : put fs r t [] = fs [] := by
  refine if_neg ?_
  rintro (h | h)
  · subst h
    exact absurd hr (by decide)
  · exact absurd (List.prefix_nil.mp h) (by simp)

theorem mv_nil (ha : ['/'] <+: a) (hb : ['/'] <+: b) (h : mv fs a b = some fs') :
    fs' [] = fs [] := by
  obtain ⟨target, htarget, rfl⟩ := mv_spec h
  have hslash : ['/'] <+: target := by
    rcases htarget with rfl | rfl
    · exact hb
    · exact hb.trans (List.prefix_append _ _)
  rw [put_nil hslash, remove, put_nil ha]

theorem IsTree.mv (ht : IsTree fs) (ha : IsRel a) (hb : IsRel b) (h : mv fs a b = some fs') :
    IsTree fs' := by
  obtain ⟨target, htarget, rfl⟩ := mv_spec h
  have hrel : IsRel target := by
    rcases htarget with rfl | rfl
    · exact hb
    · exact hb.append (isRel_baseName a)
  exact (ht.put ha).put hrel

theorem chmodX_spec (h : chmodX fs p = some fs') :
    fs' = fs ∨ ∃ f, fs p = some (.file f) ∧
      fs' = fun q => if q = p then some (.file { f with exec := true }) else fs q := by
  unfold chmodX at h
  cases hp : fs p with
  | none =>
    rw [hp] at h
    cases h
  | some e =>
    rw [hp] at h
    cases e with
    | dir => exact .inl (Option.some.inj h).symm
    | file f => exact .inr ⟨f, rfl, (Option.some.inj h).symm⟩

theorem IsTree.chmodX (ht : IsTree fs) (h : chmodX fs p = some fs') : IsTree fs' := by
  rcases chmodX_spec h with rfl | ⟨f, hp, rfl⟩
  · exact ht
  · intro q hq
    by_cases hqp : q = p
    · subst hqp
      exact ht q (by simp [hp])
    · exact ht q (by simpa [hqp] using hq)

theorem testX_spec (h : testX fs p = some fs') : fs' = fs := by
  unfold testX at h
  split at h
  · cases h
  · exact (Option.some.inj h).symm
  · split_ifs at h
    exact (Option.some.inj h).symm

theorem tree_remove_of_apart (h : Apart a b) : tree (remove fs a) b = tree fs b :=
  tree_put_of_apart h

theorem remove_self (fs : FileSystem) (a : List Char) : remove fs a a = none :=
  if_pos (.refl a)

theorem testX_isSome (h : fs p = fs' q) : (testX fs p).isSome = (testX fs' q).isSome := by
  unfold testX
  rw [h]
  cases fs' q with
  | none => rfl
  | some e =>
    cases e with
    | dir => rfl
    | file f =>
      dsimp only
      split_ifs <;> rfl

end Commands

end Pantoken.FileTree
