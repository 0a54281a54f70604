import Mathlib.Data.List.Basic

/-!
# Event lists that fold alike

Two lists of events can lead a left fold to states that look the same: because events that
do not interfere were reordered, or because what differs in them is not looked at.

## Main definitions

* `Commutes f x y` — the events `x` and `y` can be folded in either order.
* `Same f view xs ys` — folding `xs` and `ys` from states that look the same leads to
  states that look the same.

## Main results

* `foldl_cons_append` — an event moves behind those it commutes with.
* `foldl_eq_of_filter_key` — two lists with the same events under every key fold to the
  same state, when events under different keys commute.
-/

namespace Pantoken

variable {σ ε ω κ : Type*} {f : σ → ε → σ} {view : σ → ω}

/-! ### Reordering -/

/-- The events `x` and `y` can be folded in either order. -/
def Commutes (f : σ → ε → σ) (x y : ε) : Prop := ∀ s, f (f s x) y = f (f s y) x

/-- An event moves behind those it commutes with. -/
theorem foldl_cons_append {x : ε} {ys : List ε} (h : ∀ y ∈ ys, Commutes f x y) (zs : List ε)
    (s : σ) : (x :: ys ++ zs).foldl f s = (ys ++ x :: zs).foldl f s := by
  induction ys generalizing s with
  | nil => rfl
  | cons y ys ih =>
    rw [List.forall_mem_cons] at h
    calc (x :: y :: ys ++ zs).foldl f s
        = (x :: ys ++ zs).foldl f (f s y) := by
          simp only [List.cons_append, List.foldl_cons]
          rw [h.1 s]
      _ = (y :: ys ++ x :: zs).foldl f s := by rw [ih h.2]; rfl

/-- **Events under different keys commute, so only the order under each key matters.** -/
theorem foldl_eq_of_filter_key [DecidableEq κ] {key : ε → κ}
    (hcomm : ∀ x y, key x ≠ key y → Commutes f x y) {xs ys : List ε}
    (h : ∀ k, xs.filter (key · = k) = ys.filter (key · = k)) (s : σ) :
    xs.foldl f s = ys.foldl f s := by
  induction xs generalizing ys s with
  | nil =>
    -- no event of `ys` has a key of its own
    have hys : ys = [] := by
      cases ys with
      | nil => rfl
      | cons y ys =>
        have := h (key y)
        simp at this
    rw [hys]
  | cons x xs ih =>
    -- the first event of `ys` under the key of `x` is `x`: bring it to the front
    have hx := h (key x)
    rw [List.filter_cons_of_pos (by simp)] at hx
    obtain ⟨pre, post, rfl, hpre, hkey, hpost⟩ := List.filter_eq_cons_iff.mp hx.symm
    have hne : ∀ y ∈ pre, key x ≠ key y := by
      intro y hy heq
      have := hpre y hy
      simp [heq] at this
    have htail : ∀ k, xs.filter (key · = k) = (pre ++ post).filter (key · = k) := by
      intro k
      have hk := h k
      rw [List.filter_append, List.filter_cons, List.filter_cons] at hk
      rw [List.filter_append]
      by_cases hxk : key x = k
      · subst hxk
        have hnil : pre.filter (key · = key x) = [] := by
          rw [List.filter_eq_nil_iff]
          intro y hy
          simpa using (hne y hy).symm
        simpa [hnil] using hk
      · simpa [hxk] using hk
    rw [← foldl_cons_append fun y hy => hcomm x y (hne y hy)]
    exact ih htail (f s x)

/-! ### Looking the same -/

/-- Folding `xs` and `ys` from states that look the same leads to states that do. -/
def Same (f : σ → ε → σ) (view : σ → ω) (xs ys : List ε) : Prop :=
  ∀ s t, view s = view t → view (xs.foldl f s) = view (ys.foldl f t)

namespace Same

variable {xs xs' ys ys' zs : List ε}

theorem nil : Same f view [] [] := fun _ _ h => h

theorem symm (h : Same f view xs ys) : Same f view ys xs := fun s t hst => (h t s hst.symm).symm

theorem trans (h : Same f view xs ys) (h' : Same f view ys zs) : Same f view xs zs :=
  fun s t hst => (h s t hst).trans (h' t t rfl)

theorem append (h : Same f view xs ys) (h' : Same f view xs' ys') :
    Same f view (xs ++ xs') (ys ++ ys') := by
  intro s t hst
  rw [List.foldl_append, List.foldl_append]
  exact h' _ _ (h s t hst)

theorem cons {x y : ε} (h : Same f view [x] [y]) (h' : Same f view xs ys) :
    Same f view (x :: xs) (y :: ys) := append h h'

/-- A list that folds to the same states looks the same. -/
theorem of_eq (h : Same f view xs ys) (heq : ∀ s, ys.foldl f s = zs.foldl f s) :
    Same f view xs zs := by
  intro s t hst
  rw [← heq t]
  exact h s t hst

theorem flatMap {α : Type*} {g g' : α → List ε} {as : List α}
    (h : ∀ a ∈ as, Same f view (g a) (g' a)) : Same f view (as.flatMap g) (as.flatMap g') := by
  induction as with
  | nil => exact nil
  | cons a as ih =>
    rw [List.forall_mem_cons] at h
    exact h.1.append (ih h.2)

theorem map {α : Type*} {g g' : α → ε} {as : List α} (h : ∀ a ∈ as, Same f view [g a] [g' a]) :
    Same f view (as.map g) (as.map g') := by
  rw [List.map_eq_flatMap, List.map_eq_flatMap]
  exact flatMap h

end Same

end Pantoken
