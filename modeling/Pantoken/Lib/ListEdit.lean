import Mathlib.Data.List.Basic

/-!
# Editing one element of a list in place

A transcript is edited at its last element, or at the first or the last element of
some kind.  These are the edits, as functions on lists.

## Main definitions

* `mapLast f` — edit the last element.
* `modifyFirst f`, `modifyLastWhere f` — edit the first, or the last, element on which
  the partial edit `f` is defined.
-/

namespace List

variable {α : Type*}

/-- Edit the last element. -/
def mapLast (f : α → α) : List α → List α
  | [] => []
  | [x] => [f x]
  | x :: y :: xs => x :: mapLast f (y :: xs)

@[simp] theorem mapLast_nil (f : α → α) : mapLast f [] = [] := rfl

@[simp] theorem mapLast_concat (f : α → α) (xs : List α) (x : α) :
    mapLast f (xs ++ [x]) = xs ++ [f x] := by
  induction xs with
  | nil => rfl
  | cons y xs ih =>
    cases xs with
    | nil => rfl
    | cons z xs => simpa [mapLast] using ih

/-- An edit that fixes the last element changes nothing. -/
theorem mapLast_eq_self {f : α → α} {xs : List α} (h : ∀ x, xs.getLast? = some x → f x = x) :
    mapLast f xs = xs := by
  rcases eq_nil_or_concat' xs with rfl | ⟨ys, x, rfl⟩
  · rfl
  · rw [mapLast_concat, h x (by simp)]

/-- Edit the first element on which `f` is defined. -/
def modifyFirst (f : α → Option α) : List α → List α
  | [] => []
  | x :: xs =>
    match f x with
    | some y => y :: xs
    | none => x :: modifyFirst f xs

/-- Edit the last element on which `f` is defined. -/
def modifyLastWhere (f : α → Option α) (xs : List α) : List α :=
  (modifyFirst f xs.reverse).reverse

@[simp] theorem modifyFirst_nil (f : α → Option α) : modifyFirst f [] = [] := rfl

/-! ### What an edit keeps -/

section Keeps

variable {β : Type*} {p : α → Prop} {xs : List α}

theorem forall_mapLast {f : α → α} (hf : ∀ x, p x → p (f x)) (h : ∀ x ∈ xs, p x) :
    ∀ y ∈ mapLast f xs, p y := by
  rcases eq_nil_or_concat' xs with rfl | ⟨ys, x, rfl⟩
  · simp
  · rw [mapLast_concat]
    intro y hy
    rcases mem_append.mp hy with hy | hy
    · exact h y (mem_append_left _ hy)
    · rw [mem_singleton.mp hy]
      exact hf x (h x (by simp))

theorem forall_modifyFirst {f : α → Option α} (hf : ∀ x y, f x = some y → p x → p y)
    (h : ∀ x ∈ xs, p x) : ∀ y ∈ modifyFirst f xs, p y := by
  induction xs with
  | nil => simp
  | cons x xs ih =>
    rw [forall_mem_cons] at h
    unfold modifyFirst
    cases hx : f x with
    | none => exact forall_mem_cons.mpr ⟨h.1, ih h.2⟩
    | some y => exact forall_mem_cons.mpr ⟨hf x y hx h.1, h.2⟩

theorem forall_modifyLastWhere {f : α → Option α} (hf : ∀ x y, f x = some y → p x → p y)
    (h : ∀ x ∈ xs, p x) : ∀ y ∈ modifyLastWhere f xs, p y := by
  intro y hy
  exact forall_modifyFirst hf (fun x hx => h x (mem_reverse.mp hx)) y (mem_reverse.mp hy)

/-- A reading that the edit of an element does not change is not changed by the edit of
the list. -/
theorem map_modifyFirst {f : α → Option α} {g : α → β} (hf : ∀ x y, f x = some y → g y = g x)
    (xs : List α) : (modifyFirst f xs).map g = xs.map g := by
  induction xs with
  | nil => rfl
  | cons x xs ih =>
    unfold modifyFirst
    cases hx : f x with
    | none => simp [ih]
    | some y => simp [hf x y hx]

theorem map_modifyLastWhere {f : α → Option α} {g : α → β}
    (hf : ∀ x y, f x = some y → g y = g x) (xs : List α) :
    (modifyLastWhere f xs).map g = xs.map g := by
  rw [modifyLastWhere, map_reverse, map_modifyFirst hf, ← map_reverse, reverse_reverse]

/-- A reading that turns the edit of the last element into another edit. -/
theorem map_mapLast_of_comm {f : α → α} {g : α → β} {f' : β → β} (hf : ∀ x, g (f x) = f' (g x))
    (xs : List α) : (mapLast f xs).map g = mapLast f' (xs.map g) := by
  rcases eq_nil_or_concat' xs with rfl | ⟨ys, x, rfl⟩
  · rfl
  · simp [hf]

theorem map_mapLast {f : α → α} {g : α → β} (hf : ∀ x, g (f x) = g x) (xs : List α) :
    (mapLast f xs).map g = xs.map g := by
  rcases eq_nil_or_concat' xs with rfl | ⟨ys, x, rfl⟩
  · rfl
  · simp [hf]

end Keeps

end List
