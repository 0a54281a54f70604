import Mathlib.Data.List.Dedup

/-!
# Working trees

A working tree holds files, a commit a tree of them.  What a version control system reports of a
working tree are the paths at which it differs from the tree of the commit, but for those of files
that are in no commit and are ignored.

## Main definitions

* `write`, `take`, `checkOut` — a file that is written, files taken over from another tree, and the
  working tree after a checkout.
* `counts` — whether a path is reported.
* `changed`, `snapshot` — the paths that are reported, and the files that are recorded.

## Main results

* `changed_eq_nil_iff` — nothing is reported exactly when the tree holds what is there at every path
  that counts.
* `lookup_snapshot` — a snapshot holds what is there at those paths.
-/

namespace Pantoken.WorkTree

variable {κ α : Type*} [DecidableEq κ]

/-- The contents of files, by their paths. -/
abbrev Files (κ α : Type*) := List (κ × α)

/-- A file is written, or deleted. -/
def write (files : Files κ α) (p : κ) (content : Option α) : Files κ α :=
  (content.map (p, ·)).toList ++ files.filter (·.1 ≠ p)

/-- The files at some paths are taken from another tree. -/
def take (paths : List κ) (source files : Files κ α) : Files κ α :=
  source.filter (·.1 ∈ paths) ++ files.filter (·.1 ∉ paths)

/-- A path at which a file is in the tree, or not ignored. -/
def counts (ignored : κ → Bool) (tree : Files κ α) (p : κ) : Bool :=
  (tree.lookup p).isSome || !ignored p

/-- The files that are recorded. -/
def snapshot (ignored : κ → Bool) (tree work : Files κ α) : Files κ α :=
  work.filter fun file => counts ignored tree file.1

theorem lookup_filter (keep : κ → Bool) (files : Files κ α) (p : κ) :
    (files.filter fun file => keep file.1).lookup p = if keep p then files.lookup p else none := by
  induction files with
  | nil => simp
  | cons file files ih =>
    obtain ⟨q, content⟩ := file
    by_cases hp : p = q
    · subst hp
      cases hkeep : keep p
      · rw [List.filter_cons_of_neg (by simp [hkeep]), ih, if_neg (by simp [hkeep]),
          if_neg (by simp)]
      · rw [List.filter_cons_of_pos (by exact hkeep), List.lookup_cons_self, if_pos rfl,
          List.lookup_cons_self]
    · have hother : ∀ rest : Files κ α, ((q, content) :: rest).lookup p = rest.lookup p := by
        intro rest
        rw [List.lookup_cons, beq_eq_false_iff_ne.mpr hp]
      rw [hother, ← ih]
      cases hkeep : keep q
      · rw [List.filter_cons_of_neg (by simp [hkeep])]
      · rw [List.filter_cons_of_pos (by exact hkeep), hother]

/-- **A snapshot holds what is there at the paths that count.** -/
theorem lookup_snapshot {ignored : κ → Bool} {tree : Files κ α} {p : κ}
    (h : counts ignored tree p = true) (work : Files κ α) :
    (snapshot ignored tree work).lookup p = work.lookup p := by
  rw [snapshot, lookup_filter, if_pos h]

section Changes

variable [DecidableEq α]

/-- The paths at which two trees differ. -/
def differing (a b : Files κ α) : List κ :=
  ((a ++ b).map (·.1)).dedup.filter fun p => a.lookup p ≠ b.lookup p

/-- What is reported of a working tree. -/
def changed (ignored : κ → Bool) (tree work : Files κ α) : List κ :=
  (differing tree work).filter (counts ignored tree)

/-- The working tree after a checkout, which is refused where it would change a changed file. -/
def checkOut (tree target work : Files κ α) : Option (Files κ α) :=
  let paths := differing tree target
  if ∀ p ∈ paths, work.lookup p = tree.lookup p then some (take paths target work) else none

theorem mem_differing_iff {a b : Files κ α} {p : κ} :
    p ∈ differing a b ↔ a.lookup p ≠ b.lookup p := by
  rw [differing, List.mem_filter, List.mem_dedup, List.map_append, List.mem_append]
  refine ⟨fun h => by simpa using h.2, fun h => ⟨?_, by simpa using h⟩⟩
  by_contra hnone
  rw [not_or] at hnone
  -- what is in none of the trees is the same in both
  have hkeys : ∀ files : Files κ α, p ∉ files.map (·.1) → files.lookup p = none := by
    intro files hp
    rw [List.lookup_eq_none_iff]
    intro file hfile
    rw [bne_iff_ne]
    rintro rfl
    exact hp (List.mem_map_of_mem hfile)
  exact h ((hkeys a hnone.1).trans (hkeys b hnone.2).symm)

/-- **Nothing is reported** exactly when the tree holds what is there at every path that counts. -/
theorem changed_eq_nil_iff {ignored : κ → Bool} {tree work : Files κ α} :
    changed ignored tree work = [] ↔
      ∀ p, counts ignored tree p = true → tree.lookup p = work.lookup p := by
  rw [changed, List.filter_eq_nil_iff]
  refine forall_congr' fun p => ?_
  rw [mem_differing_iff]
  tauto

end Changes

end Pantoken.WorkTree
