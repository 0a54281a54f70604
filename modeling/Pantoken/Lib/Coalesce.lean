import Mathlib.Data.List.Basic
import Mathlib.Data.List.Chain

/-!
# Coalescing a log

A log may fuse two neighbouring entries into one that stands for both.  The
fusion is a partial operation `merge : α → α → Option α`; coalescing a log runs
through it once and fuses each entry into the last one kept whenever it can.

Two laws make the result independent of when the fusion happens: `merge` is
associative where it is defined, and fusability is inherited by a fused pair.
Under them coalescing a prefix, a suffix or both first never changes the
outcome, so a log may be kept partly coalesced at any number of points.

## Main definitions

* `Coalesce.snoc`, `Coalesce.coalesce` — append with fusion, and the whole pass.
* `Coalesce.Lawful` — the two laws.
* `Coalesce.Sound` — a step function that cannot tell a fused pair from its parts.

## Main results

* `Coalesce.coalesce_append_coalesce`, `Coalesce.coalesce_coalesce_append` —
  coalescing early changes nothing.
* `Coalesce.foldl_coalesce` — **a sound step function folds a coalesced log to the
  same state.**
-/

namespace Pantoken
namespace Coalesce

variable {α σ : Type*} (merge : α → α → Option α)

/-- Append `x`, fused into the last element of `out` when the pair is fusable. -/
def snoc (out : List α) (x : α) : List α :=
  match out.getLast? with
  | none => out ++ [x]
  | some last =>
    match merge last x with
    | some m => out.dropLast ++ [m]
    | none => out ++ [x]

/-- Run through a log, fusing neighbours. -/
def coalesce (xs : List α) : List α := xs.foldl (snoc merge) []

@[simp] theorem snoc_nil (x : α) : snoc merge [] x = [x] := rfl

variable {merge}

theorem snoc_concat_some {out : List α} {a x m : α} (h : merge a x = some m) :
    snoc merge (out ++ [a]) x = out ++ [m] := by
  simp [snoc, h]

theorem snoc_concat_none {out : List α} {a x : α} (h : merge a x = none) :
    snoc merge (out ++ [a]) x = out ++ [a] ++ [x] := by
  simp [snoc, h]

variable (merge) in
@[simp] theorem coalesce_nil : coalesce merge ([] : List α) = [] := rfl

theorem coalesce_append (xs ys : List α) :
    coalesce merge (xs ++ ys) = ys.foldl (snoc merge) (coalesce merge xs) := by
  unfold coalesce
  rw [List.foldl_append]

theorem coalesce_concat (xs : List α) (x : α) :
    coalesce merge (xs ++ [x]) = snoc merge (coalesce merge xs) x := by
  rw [coalesce_append]
  rfl

/-! ### The laws -/

variable (merge) in
/-- The laws of a fusion. -/
structure Lawful : Prop where
  /-- Fusing is associative where it is defined. -/
  assoc : ∀ {a b c bc}, merge b c = some bc → merge a bc = (merge a b).bind (merge · c)
  /-- What fuses with a part fuses with the whole. -/
  trans : ∀ {a b c ab bc}, merge a b = some ab → merge b c = some bc → (merge ab c).isSome

/-- Appending the two parts of a fused pair appends the pair. -/
theorem Lawful.snoc_snoc (hL : Lawful merge) (out : List α) {b c bc : α}
    (h : merge b c = some bc) : snoc merge (snoc merge out b) c = snoc merge out bc := by
  rcases List.eq_nil_or_concat' out with rfl | ⟨out, a, rfl⟩
  · rw [snoc_nil, snoc_nil]
    exact @snoc_concat_some _ merge [] b c bc h
  · cases hab : merge a b with
    | none =>
      have habc : merge a bc = none := by rw [hL.assoc h, hab]; rfl
      rw [snoc_concat_none hab, snoc_concat_some h, snoc_concat_none habc]
    | some ab =>
      obtain ⟨m, hm⟩ := Option.isSome_iff_exists.mp (hL.trans hab h)
      have habc : merge a bc = some m := by rw [hL.assoc h, hab]; exact hm
      rw [snoc_concat_some hab, snoc_concat_some hm, snoc_concat_some habc]

/-- A log that ends in the two parts of a fused pair coalesces as one that ends in the pair. -/
theorem Lawful.coalesce_concat_concat (hL : Lawful merge) (xs : List α) {b c bc : α}
    (h : merge b c = some bc) :
    coalesce merge (xs ++ [b] ++ [c]) = coalesce merge (xs ++ [bc]) := by
  rw [coalesce_concat, coalesce_concat, coalesce_concat, hL.snoc_snoc _ h]

/-- Appending a coalesced run, entry by entry, appends the run. -/
theorem Lawful.foldl_snoc_coalesce (hL : Lawful merge) (out ys : List α) :
    (coalesce merge ys).foldl (snoc merge) out = ys.foldl (snoc merge) out := by
  induction ys using List.reverseRecOn with
  | nil => rfl
  | append_singleton ys y ih =>
    rw [coalesce_concat, List.foldl_append, List.foldl_cons, List.foldl_nil, ← ih]
    rcases List.eq_nil_or_concat' (coalesce merge ys) with hz | ⟨zs, b, hz⟩
    · rw [hz, snoc_nil]
      rfl
    · rw [hz]
      cases hby : merge b y with
      | none => rw [snoc_concat_none hby, List.foldl_append]; rfl
      | some m =>
        rw [snoc_concat_some hby, List.foldl_append, List.foldl_append, List.foldl_cons,
          List.foldl_nil, List.foldl_cons, List.foldl_nil, hL.snoc_snoc _ hby]

/-- Coalescing a suffix first changes nothing. -/
theorem Lawful.coalesce_append_coalesce (hL : Lawful merge) (xs ys : List α) :
    coalesce merge (xs ++ coalesce merge ys) = coalesce merge (xs ++ ys) := by
  rw [coalesce_append, coalesce_append, hL.foldl_snoc_coalesce]

/-- Coalescing a prefix first changes nothing. -/
theorem Lawful.coalesce_coalesce_append (hL : Lawful merge) (xs ys : List α) :
    coalesce merge (coalesce merge xs ++ ys) = coalesce merge (xs ++ ys) := by
  have hidem : coalesce merge (coalesce merge xs) = coalesce merge xs := by
    have := hL.coalesce_append_coalesce [] xs
    simpa using this
  rw [coalesce_append, hidem, coalesce_append]

/-! ### Folding a coalesced log -/

variable (merge) in
/-- `f` cannot tell a fused pair from its parts. -/
def Sound (f : σ → α → σ) : Prop := ∀ s {a b c}, merge a b = some c → f (f s a) b = f s c

variable {f : σ → α → σ}

theorem Sound.foldl_snoc (hf : Sound merge f) (s : σ) (out : List α) (x : α) :
    (snoc merge out x).foldl f s = f (out.foldl f s) x := by
  rcases List.eq_nil_or_concat' out with rfl | ⟨out, a, rfl⟩
  · rfl
  · cases h : merge a x with
    | none => rw [snoc_concat_none h, List.foldl_append]; rfl
    | some m =>
      rw [snoc_concat_some h, List.foldl_append, List.foldl_append]
      exact (hf _ h).symm

/-- **A sound step function folds a coalesced log to the same state.** -/
theorem Sound.foldl_coalesce (hf : Sound merge f) (s : σ) (xs : List α) :
    (coalesce merge xs).foldl f s = xs.foldl f s := by
  induction xs using List.reverseRecOn with
  | nil => rfl
  | append_singleton xs x ih =>
    rw [coalesce_concat, hf.foldl_snoc, ih, List.foldl_append]
    rfl

end Coalesce
end Pantoken
