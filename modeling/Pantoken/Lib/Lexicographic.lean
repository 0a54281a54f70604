import Mathlib.Data.List.Lex
import Mathlib.Data.Prod.Lex
import Mathlib.Data.Sum.Order
import Mathlib.Order.WithBot

/-!
# Lexicographic comparisons

A program compares two records field by field and stops at the first difference.  That is the
three-way comparison of a lexicographic linear order, one rule for each way to build the order,
and what compares by a key in a linear order is a total preorder.

## Main definitions

* `order` — the three-way comparison of a linear order.
* `TotalPreorder` — what a comparison has to meet.

## Main results

* `order_toLex`, `order_cons_cons`, `order_inl_inr`, … — what the comparison of a composed order
  does.
* `totalPreorder_order` — **a comparison by a key is a total preorder.**
* `order_append_cons_of_ne` — lists are compared at their first difference.
-/

namespace Pantoken
namespace Lexicographic

/-- The three-way comparison of a linear order. -/
def order {α : Type*} [LinearOrder α] (a b : α) : Ordering := cmp a b

/-- A three-way comparison that orders its arguments, up to what it calls equal. -/
structure TotalPreorder {α : Type*} (c : α → α → Ordering) : Prop where
  refl : ∀ a, c a a = .eq
  swap : ∀ a b, c b a = (c a b).swap
  trans : ∀ a b d, c a b ≠ .gt → c b d ≠ .gt → c a d ≠ .gt

section Key

variable {α β : Type*} [LinearOrder β] {x y z : β}

theorem order_of_lt (h : x < y) : order x y = .lt := h.cmp_eq_lt

theorem order_of_gt (h : y < x) : order x y = .gt := h.cmp_eq_gt

@[simp] theorem order_self (x : β) : order x x = .eq := cmp_self_eq_eq x

theorem order_ne_gt_iff : order x y ≠ .gt ↔ x ≤ y := by
  rw [order, ne_eq, cmp_eq_gt_iff, not_lt]

/-- A difference decides, whatever follows. -/
theorem then_of_ne (h : x ≠ y) (o : Ordering) : (order x y).then o = order x y := by
  rcases lt_or_gt_of_ne h with h | h
  · rw [order_of_lt h]
    rfl
  · rw [order_of_gt h]
    rfl

/-- **What compares by a key is a total preorder.** -/
theorem totalPreorder_order (key : α → β) : TotalPreorder fun a b => order (key a) (key b) where
  refl a := order_self (key a)
  swap a b := (cmp_swap (key a) (key b)).symm
  trans a b d hab hbd := by
    rw [order_ne_gt_iff] at hab hbd ⊢
    exact hab.trans hbd

/-- Two comparisons agree where the two orders do. -/
theorem order_congr {γ : Type*} [LinearOrder γ] {x' y' : γ} (hlt : x < y ↔ x' < y')
    (heq : x = y ↔ x' = y') : order x y = order x' y' := by
  rcases lt_trichotomy x y with h | h | h
  · rw [order_of_lt h, order_of_lt (hlt.mp h)]
  · rw [h, order_self, heq.mp h, order_self]
  · have hle : ¬ x' ≤ y' := fun hle => by
      rcases hle.lt_or_eq with h' | h'
      · exact lt_asymm h (hlt.mpr h')
      · exact h.ne' (heq.mpr h')
    rw [order_of_gt h, order_of_gt (not_le.mp hle)]

end Key

section Composed

variable {α β : Type*} [LinearOrder α] [LinearOrder β]

/-- The first component decides, if it differs. -/
theorem order_toLex (a a' : α) (b b' : β) :
    order (toLex (a, b)) (toLex (a', b')) = (order a a').then (order b b') := by
  rcases lt_trichotomy a a' with h | rfl | h
  · rw [order_of_lt h]
    exact order_of_lt (Prod.Lex.toLex_lt_toLex.mpr (.inl h))
  · rw [order_self]
    refine order_congr ?_ ?_
    · rw [Prod.Lex.toLex_lt_toLex]
      simp
    · rw [toLex_inj, Prod.mk.injEq]
      simp
  · rw [order_of_gt h]
    exact order_of_gt (Prod.Lex.toLex_lt_toLex.mpr (.inl h))

theorem order_inl_inl (a a' : α) :
    order (toLex (.inl a : α ⊕ β)) (toLex (.inl a')) = order a a' :=
  order_congr (by rw [Sum.Lex.inl_lt_inl_iff]) (by rw [toLex_inj, Sum.inl.injEq])

theorem order_inr_inr (b b' : β) :
    order (toLex (.inr b : α ⊕ β)) (toLex (.inr b')) = order b b' :=
  order_congr (by rw [Sum.Lex.inr_lt_inr_iff]) (by rw [toLex_inj, Sum.inr.injEq])

theorem order_inl_inr (a : α) (b : β) : order (toLex (.inl a : α ⊕ β)) (toLex (.inr b)) = .lt :=
  order_of_lt (Sum.Lex.inl_lt_inr a b)

theorem order_inr_inl (a : α) (b : β) : order (toLex (.inr b : α ⊕ β)) (toLex (.inl a)) = .gt :=
  order_of_gt (Sum.Lex.inl_lt_inr a b)

theorem order_top_coe (a : α) : order (⊤ : WithTop α) a = .gt :=
  order_of_gt (WithTop.coe_lt_top a)

theorem order_coe_top (a : α) : order (a : WithTop α) ⊤ = .lt :=
  order_of_lt (WithTop.coe_lt_top a)

theorem order_coe_coe (a a' : α) : order (a : WithTop α) a' = order a a' :=
  order_congr WithTop.coe_lt_coe WithTop.coe_inj

theorem order_bot_coe (a : α) : order (⊥ : WithBot α) a = .lt :=
  order_of_lt (WithBot.bot_lt_coe a)

theorem order_coe_bot (a : α) : order (a : WithBot α) ⊥ = .gt :=
  order_of_gt (WithBot.bot_lt_coe a)

theorem order_bot_coe_coe (a a' : α) : order (a : WithBot α) a' = order a a' :=
  order_congr WithBot.coe_lt_coe WithBot.coe_inj

end Composed

section Lists

variable {α : Type*} [LinearOrder α]

theorem order_nil_cons (b : α) (l : List α) : order [] (b :: l) = .lt :=
  order_of_lt (List.nil_lt_cons b l)

theorem order_cons_nil (b : α) (l : List α) : order (b :: l) [] = .gt :=
  order_of_gt (List.nil_lt_cons b l)

/-- Lists are compared element by element. -/
theorem order_cons_cons (a b : α) (l l' : List α) :
    order (a :: l) (b :: l') = (order a b).then (order l l') := by
  rcases lt_trichotomy a b with h | rfl | h
  · rw [order_of_lt h]
    exact order_of_lt (List.cons_lt_cons_iff.mpr (.inl h))
  · rw [order_self]
    refine order_congr ?_ ?_
    · rw [List.cons_lt_cons_iff]
      simp
    · rw [List.cons.injEq]
      simp
  · rw [order_of_gt h]
    exact order_of_gt (List.cons_lt_cons_iff.mpr (.inl h))

/-- What two lists begin with alike does not count. -/
theorem order_append_left (p l l' : List α) : order (p ++ l) (p ++ l') = order l l' := by
  induction p with
  | nil => rfl
  | cons a p ih => rw [List.cons_append, List.cons_append, order_cons_cons, order_self, ih]; rfl

/-- The first difference of two lists decides. -/
theorem order_append_cons_of_ne (p l l' : List α) {a b : α} (h : a ≠ b) :
    order (p ++ a :: l) (p ++ b :: l') = order a b := by
  rw [order_append_left, order_cons_cons, then_of_ne h]

/-- A loop over the common part, and the lengths where it finds no difference. -/
theorem order_map_eq_firstDifference {γ : Type*} {g : γ → α} {f : γ → γ → Ordering}
    (hf : ∀ a b, f a b = order (g a) (g b)) (l l' : List γ) :
    order (l.map g) (l'.map g) =
      ((List.zipWith f l l').find? (· ≠ .eq)).getD (order l.length l'.length) := by
  induction l generalizing l' with
  | nil =>
    cases l' with
    | nil => rfl
    | cons b l' => exact (order_nil_cons _ _).trans (order_of_lt (Nat.succ_pos _)).symm
  | cons a l ih =>
    cases l' with
    | nil => exact (order_cons_nil _ _).trans (order_of_gt (Nat.succ_pos _)).symm
    | cons b l' =>
      rw [List.map_cons, List.map_cons, order_cons_cons, ih, List.zipWith_cons_cons, hf,
        List.find?_cons, List.length_cons, List.length_cons,
        order_congr (Nat.add_lt_add_iff_right (k := 1)) Nat.add_right_cancel_iff]
      rcases order (g a) (g b) with _ | _ | _ <;> rfl

end Lists

end Lexicographic
end Pantoken
