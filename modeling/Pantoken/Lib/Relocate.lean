import Mathlib.Data.List.Basic
import Pantoken.Lib.FileTree

/-!
# Renaming a directory

Something is kept at some paths of a disk.  A directory is renamed as a whole: what is at a path
below it goes to the same place below the new name, and the rest stays where it is.

## Main definitions

* `rebase old new p` — where a path is after the directory `old` is renamed to `new`.
* `Table`, `Table.get?` — what is kept at the paths of a disk.
* `Table.ensure`, `Table.modify`, `Table.rename` — a path is added, one is changed, and a directory
  is renamed.

## Main results

* `rebase_rebase` — nothing is left to be renamed twice.
* `Table.get?_rename_new`, `Table.get?_rename_old`, `Table.get?_rename_of_not_under` — what is where
  after a directory is renamed.
-/

namespace Pantoken.FileTree

/-! ### Paths -/

/-- Where a path is after a directory is renamed. -/
def rebase (old new p : List Char) : List Char :=
  if Under old p then new ++ p.drop old.length else p

section Rebase

variable {old new p r : List Char}

theorem rebase_of_not_under (h : ¬ Under old p) : rebase old new p = p := if_neg h

theorem rebase_append (hr : IsRel r) : rebase old new (old ++ r) = new ++ r := by
  rw [rebase, if_pos (under_append_iff.mpr hr), List.drop_left]

theorem rebase_self : rebase old new old = new := by
  have h : rebase old new (old ++ []) = new ++ [] := rebase_append (.inl rfl)
  rwa [List.append_nil, List.append_nil] at h

/-- What was below the directory is below its new name. -/
theorem under_rebase (h : Under old p) : Under new (rebase old new p) := by
  obtain ⟨r, hr, rfl⟩ := under_iff.mp h
  rw [rebase_append hr]
  exact under_append_iff.mpr hr

theorem not_under_rebase (h : Apart old new) : ¬ Under old (rebase old new p) := by
  by_cases hp : Under old p
  · exact h.symm.not_under (under_rebase hp)
  · rwa [rebase_of_not_under hp]

/-- **Nothing is left to be renamed twice.** -/
theorem rebase_rebase (h : Apart old new) : rebase old new (rebase old new p) = rebase old new p :=
  rebase_of_not_under (not_under_rebase h)

/-- The directory alone gets the new name, among the paths that did not have it. -/
theorem rebase_eq_new_iff (hp : p ≠ new) : rebase old new p = new ↔ p = old := by
  constructor
  · intro h
    by_cases hunder : Under old p
    · obtain ⟨r, hr, rfl⟩ := under_iff.mp hunder
      rw [rebase_append hr, List.append_right_eq_self] at h
      rw [h, List.append_nil]
    · exact absurd ((rebase_of_not_under hunder).symm.trans h) hp
  · rintro rfl
    exact rebase_self

/-- A path that is apart from both names is where it was. -/
theorem rebase_eq_iff {q : List Char} (hold : ¬ Under old q) (hnew : ¬ Under new q) :
    rebase old new p = q ↔ p = q := by
  by_cases hp : Under old p
  · exact iff_of_false (fun h => hnew (h ▸ under_rebase hp)) (fun h => hold (h ▸ hp))
  · rw [rebase_of_not_under hp]

end Rebase

/-! ### Tables -/

/-- What is kept at the paths of a disk; of two entries for one path the first counts. -/
abbrev Table (α : Type*) := List (List Char × α)

namespace Table

variable {α : Type*}

def get? (t : Table α) (p : List Char) : Option α := (t.find? (·.1 = p)).map (·.2)

/-- Something is kept at the path or below it. -/
def present (t : Table α) (p : List Char) : Bool := t.any (Under p ·.1)

/-- Nothing changes where something is kept. -/
def ensure (t : Table α) (p : List Char) (a : α) : Table α :=
  if (t.get? p).isSome then t else t ++ [(p, a)]

def modify (t : Table α) (p : List Char) (f : α → α) : Table α :=
  t.map fun e => if e.1 = p then (e.1, f e.2) else e

/-- The directory is renamed, in place of what is kept at the new name. -/
def rename (t : Table α) (old new : List Char) : Table α :=
  (t.filter (·.1 ≠ new)).map fun e => (rebase old new e.1, e.2)

section Lemmas

variable {t : Table α} {p q old new : List Char} {a b : α}

theorem get?_nil : get? ([] : Table α) p = none := rfl

theorem get?_cons (e : List Char × α) (t : Table α) (p : List Char) :
    get? (e :: t) p = if e.1 = p then some e.2 else get? t p := by
  unfold get?
  by_cases h : e.1 = p
  · simp only [List.find?_cons, decide_eq_true h, if_pos h, Option.map_some]
  · simp only [List.find?_cons, decide_eq_false h, if_neg h]

theorem get?_append (t t' : Table α) (p : List Char) :
    get? (t ++ t') p = (get? t p).or (get? t' p) := by
  unfold get?
  rw [List.find?_append, Option.map_or]

theorem mem_of_get? (h : get? t p = some a) : (p, a) ∈ t := by
  obtain ⟨e, he, rfl⟩ := Option.map_eq_some_iff.mp h
  obtain rfl : e.1 = p := by simpa using List.find?_some he
  exact List.mem_of_find?_eq_some he

theorem present_iff : t.present p = true ↔ ∃ e ∈ t, Under p e.1 := by
  unfold present
  rw [List.any_eq_true]
  simp only [decide_eq_true_eq]

theorem get?_ensure (t : Table α) (p : List Char) (a : α) (q : List Char) :
    get? (t.ensure p a) q = if q = p then some ((get? t p).getD a) else get? t q := by
  unfold ensure
  cases hp : get? t p with
  | some b =>
    rw [if_pos Option.isSome_some]
    split_ifs with h
    · rw [h, hp, Option.getD_some]
    · rfl
  | none =>
    rw [if_neg (by simp), get?_append, get?_cons, get?_nil]
    split_ifs with h h'
    · rw [h', hp, Option.none_or, Option.getD_none]
    · exact absurd h.symm h'
    · rename_i h'
      exact absurd h'.symm h
    · rw [Option.or_none]

theorem get?_modify (t : Table α) (p : List Char) (f : α → α) (q : List Char) :
    get? (modify t p f) q = if q = p then (get? t p).map f else get? t q := by
  induction t with
  | nil => split_ifs <;> rfl
  | cons e t ih =>
    change get? ((if e.1 = p then (e.1, f e.2) else e) :: modify t p f) q = _
    rw [get?_cons, ih, get?_cons, get?_cons]
    by_cases he : e.1 = p
    · rw [if_pos he, if_pos he]
      by_cases hq : q = p
      · rw [if_pos hq, if_pos (he.trans hq.symm), if_pos hq, Option.map_some]
      · rw [if_neg hq, if_neg fun h => hq (h.symm.trans he), if_neg hq,
          if_neg fun h => hq (h.symm.trans he)]
    · rw [if_neg he, if_neg he]
      by_cases hq : q = p
      · subst hq
        rw [if_neg he, if_pos rfl, if_pos rfl]
      · rw [if_neg hq, if_neg hq]

theorem rename_cons (e : List Char × α) (t : Table α) (old new : List Char) :
    rename (e :: t) old new =
      if e.1 = new then rename t old new else (rebase old new e.1, e.2) :: rename t old new := by
  unfold rename
  by_cases h : e.1 = new
  · rw [List.filter_cons_of_neg (by simpa using h), if_pos h]
  · rw [List.filter_cons_of_pos (by simpa using h), if_neg h, List.map_cons]

/-- **The new name has what the old one had.** -/
theorem get?_rename_new (h : old ≠ new) (t : Table α) :
    get? (t.rename old new) new = get? t old := by
  induction t with
  | nil => rfl
  | cons e t ih =>
    rw [rename_cons, get?_cons]
    by_cases he : e.1 = new
    · rw [if_pos he, ih, if_neg fun hold => h (hold.symm.trans he)]
    · rw [if_neg he, get?_cons, ih]
      simp only [rebase_eq_new_iff he]

/-- **Nothing has the old name.** -/
theorem get?_rename_old (h : Apart old new) (t : Table α) : get? (t.rename old new) old = none := by
  induction t with
  | nil => rfl
  | cons e t ih =>
    rw [rename_cons]
    split_ifs with he
    · exact ih
    · have hne : rebase old new e.1 ≠ old := fun heq =>
        not_under_rebase (p := e.1) h (by rw [heq]; exact .refl old)
      rw [get?_cons, if_neg hne, ih]

/-- **What is apart from both names is where it was.** -/
theorem get?_rename_of_not_under (hold : ¬ Under old q) (hnew : ¬ Under new q) (t : Table α) :
    get? (t.rename old new) q = get? t q := by
  induction t with
  | nil => rfl
  | cons e t ih =>
    rw [rename_cons, get?_cons]
    by_cases he : e.1 = new
    · have hne : e.1 ≠ q := fun h => hnew (by rw [← h, he]; exact .refl new)
      rw [if_pos he, ih, if_neg hne]
    · rw [if_neg he, get?_cons, ih]
      simp only [rebase_eq_iff hold hnew]

end Lemmas

end Table

end Pantoken.FileTree
