import Mathlib.Data.List.Infix

/-!
# Pieces between separators

A list is split at a separator into pieces, and pieces are joined by it again.  These are the
facts about the pieces of two lists put together, and about pieces that are made shorter before
they are joined.

## Main results

* `exists_splitOn_append` — the pieces of two lists put together.
* `not_mem_of_mem_splitOn` — a separator is in none of the pieces.
* `exists_prefix_of_mem_splitOn` — a piece of a front begins a piece of the list.
* `intercalate_append` — pieces joined in two parts.
* `intercalate_map_sublist` — shorter pieces give a part of the list.
* `append_cons_inj_of_count` — a list is cut at a separator that is followed by as many others.
-/

namespace Pantoken.Pieces

variable {α : Type*} {sep : α}

section Split

variable [DecidableEq α]

/-- The last piece of the first list and the first one of the second become one. -/
theorem exists_splitOn_append (sep : α) (xs ys : List α) : ∃ init last first rest,
    xs.splitOn sep = init ++ [last] ∧ ys.splitOn sep = first :: rest ∧
      (xs ++ ys).splitOn sep = init ++ (last ++ first) :: rest := by
  obtain ⟨first, rest, hys⟩ := List.exists_cons_of_ne_nil (List.splitOn_ne_nil sep ys)
  induction xs with
  | nil => exact ⟨[], [], first, rest, List.splitOn_nil sep, hys, hys⟩
  | cons x xs ih =>
    obtain ⟨init, last, first', rest', hxs, hys', happend⟩ := ih
    rw [hys] at hys'
    cases hys'
    by_cases hx : x = sep
    · refine ⟨[] :: init, last, first, rest, ?_, hys, ?_⟩
      · rw [List.splitOn_cons_eq_if_modifyHead, if_pos (by simpa using hx), hxs]
        rfl
      · rw [List.cons_append, List.splitOn_cons_eq_if_modifyHead, if_pos (by simpa using hx),
          happend]
        rfl
    · have hne : ¬ (x == sep) = true := by simpa using hx
      cases init with
      | nil =>
        refine ⟨[], x :: last, first, rest, ?_, hys, ?_⟩
        · rw [List.splitOn_cons_eq_if_modifyHead, if_neg hne, hxs]
          rfl
        · rw [List.cons_append, List.splitOn_cons_eq_if_modifyHead, if_neg hne, happend]
          rfl
      | cons piece init =>
        refine ⟨(x :: piece) :: init, last, first, rest, ?_, hys, ?_⟩
        · rw [List.splitOn_cons_eq_if_modifyHead, if_neg hne, hxs]
          rfl
        · rw [List.cons_append, List.splitOn_cons_eq_if_modifyHead, if_neg hne, happend]
          rfl

/-- A separator is in none of the pieces. -/
theorem not_mem_of_mem_splitOn : ∀ {xs piece : List α}, piece ∈ xs.splitOn sep → sep ∉ piece
  | [], piece, h => by
    rw [List.splitOn_nil, List.mem_singleton] at h
    rw [h]
    exact List.not_mem_nil
  | x :: xs, piece, h => by
    rw [List.splitOn_cons_eq_if_modifyHead] at h
    obtain ⟨first, rest, hsplit⟩ := List.exists_cons_of_ne_nil (List.splitOn_ne_nil sep xs)
    have ih : ∀ piece ∈ first :: rest, sep ∉ piece :=
      fun piece hpiece => not_mem_of_mem_splitOn (hsplit.symm ▸ hpiece)
    rw [hsplit] at h
    split_ifs at h with hx
    · rcases List.mem_cons.mp h with rfl | h
      · exact List.not_mem_nil
      · exact ih piece h
    · rcases List.mem_cons.mp h with rfl | h
      · intro hmem
        rcases List.mem_cons.mp hmem with rfl | hmem
        · simp at hx
        · exact ih first List.mem_cons_self hmem
      · exact ih piece (List.mem_cons_of_mem _ h)

/-- A list ends with its last piece. -/
theorem exists_splitOn (sep : α) (xs : List α) : ∃ init last, xs.splitOn sep = init ++ [last] ∧
    xs = [sep].intercalate (init ++ [last]) := by
  obtain ⟨init, last, -, -, hxs, -, -⟩ := exists_splitOn_append sep xs []
  exact ⟨init, last, hxs, by rw [← hxs, List.intercalate_splitOn]⟩

/-- A piece of a front begins a piece of the list. -/
theorem exists_prefix_of_mem_splitOn {front xs piece : List α} (h : front <+: xs)
    (hpiece : piece ∈ front.splitOn sep) : ∃ whole ∈ xs.splitOn sep, piece <+: whole := by
  obtain ⟨ys, rfl⟩ := h
  obtain ⟨init, last, first, rest, hfront, -, happend⟩ := exists_splitOn_append sep front ys
  rw [hfront] at hpiece
  rw [happend]
  rcases List.mem_append.mp hpiece with hinit | hlast
  · exact ⟨piece, List.mem_append_left _ hinit, List.prefix_refl _⟩
  · rw [List.mem_singleton.mp hlast]
    exact ⟨last ++ first, List.mem_append_right _ List.mem_cons_self, List.prefix_append _ _⟩

/-- One more element lengthens the last piece. -/
theorem splitOn_concat {xs last : List α} {init : List (List α)} {c : α} (hc : c ≠ sep)
    (h : xs.splitOn sep = init ++ [last]) :
    (xs ++ [c]).splitOn sep = init ++ [last ++ [c]] := by
  obtain ⟨init', last', first, rest, hxs, hsingle, happend⟩ := exists_splitOn_append sep xs [c]
  obtain ⟨rfl, hlast⟩ := List.append_inj' (h.symm.trans hxs) rfl
  cases hlast
  rw [List.splitOn_eq_singleton (by simpa using hc.symm)] at hsingle
  cases hsingle
  exact happend

end Split

section Join

variable {init : List (List α)} {last : List α}

theorem notMem_intercalate {sep : List α} {xs : List (List α)} {a : α}
    (hsep : a ∉ sep) (hxs : ∀ x ∈ xs, a ∉ x) : a ∉ sep.intercalate xs := by
  induction xs with
  | nil => exact List.not_mem_nil
  | cons x xs ih =>
    have hx : a ∉ x := hxs x List.mem_cons_self
    cases xs with
    | nil => rwa [List.intercalate_singleton]
    | cons x' xs =>
      rw [List.intercalate_cons_cons, List.mem_append, List.mem_append]
      rintro ((h | h) | h)
      · exact hx h
      · exact hsep h
      · exact ih (fun y hy => hxs y (List.mem_cons_of_mem _ hy)) h

theorem intercalate_append {sep : List α} {xs ys : List (List α)} (hxs : xs ≠ [])
    (hys : ys ≠ []) :
    sep.intercalate (xs ++ ys) = sep.intercalate xs ++ sep ++ sep.intercalate ys := by
  induction xs with
  | nil => exact absurd rfl hxs
  | cons x xs ih =>
    cases xs with
    | nil =>
      rw [List.singleton_append, List.intercalate_cons_of_ne_nil hys, List.intercalate_singleton]
    | cons x' xs =>
      rw [List.cons_append, List.cons_append, List.intercalate_cons_cons, ← List.cons_append,
        ih (List.cons_ne_nil x' xs), List.intercalate_cons_cons]
      simp only [List.append_assoc]

theorem intercalate_append_singleton (sep : α) (h : init ≠ []) (last : List α) :
    [sep].intercalate (init ++ [last]) = [sep].intercalate init ++ sep :: last := by
  rw [intercalate_append h (List.cons_ne_nil _ _), List.intercalate_singleton, List.append_assoc]
  rfl

/-- What follows the last piece. -/
theorem intercalate_last_append (sep : α) (init : List (List α)) (last xs : List α) :
    [sep].intercalate (init ++ [last ++ xs]) = [sep].intercalate (init ++ [last]) ++ xs := by
  rcases eq_or_ne init [] with rfl | h
  · simp [List.intercalate]
  · rw [intercalate_append_singleton sep h, intercalate_append_singleton sep h]
    simp

/-- **Shorter pieces give a part of the list.** -/
theorem intercalate_map_sublist {f : List α → List α} (hf : ∀ piece, (f piece).Sublist piece)
    (sep : α) (pieces : List (List α)) :
    ([sep].intercalate (pieces.map f)).Sublist ([sep].intercalate pieces) := by
  induction pieces with
  | nil => exact List.Sublist.refl _
  | cons piece pieces ih =>
    cases pieces with
    | nil => simpa [List.intercalate] using hf piece
    | cons piece' pieces =>
      rw [List.map_cons, List.map_cons, List.intercalate_cons_cons, List.intercalate_cons_cons,
        ← List.map_cons]
      exact ((hf piece).append (List.Sublist.refl _)).append ih

end Join

/-- **A list is cut at a separator in one way**, given how many of them follow it. -/
theorem append_cons_inj_of_count [DecidableEq α] {a b x y : List α}
    (hcount : x.count sep = y.count sep)
    (h : a ++ sep :: x = b ++ sep :: y) : a = b ∧ x = y := by
  -- what the longer front has more would be in the other back, with one separator more
  have hextra : ∀ {x y c : List α},
      x.count sep = y.count sep → sep :: y = c ++ sep :: x → c = [] := by
    intro x y c hcount h
    cases c with
    | nil => rfl
    | cons d c =>
      rw [List.cons_append, List.cons.injEq] at h
      rw [h.2, List.count_append, List.count_cons_self] at hcount
      omega
  rcases List.append_eq_append_iff.mp h with ⟨c, rfl, hc⟩ | ⟨c, rfl, hc⟩
  · obtain rfl := hextra hcount.symm hc
    exact ⟨(List.append_nil _).symm, (List.cons.inj hc).2⟩
  · obtain rfl := hextra hcount hc
    exact ⟨List.append_nil b, (List.cons.inj hc).2.symm⟩

end Pantoken.Pieces
