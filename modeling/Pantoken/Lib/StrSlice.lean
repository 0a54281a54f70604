import Mathlib.Data.List.Basic
import Mathlib.Order.Nat

/-!
# Slices of texts at byte positions

A text is cut at a number of bytes.  A slice `&s[..n]` and a truncation panic unless `n` is a
character boundary of `s`; here `none` is a panic.

## Main definitions

* `byteLength`, `IsCharBoundary` — the bytes of a text, and where it may be cut.
* `sliceTo`, `sliceFrom` — `&s[..n]` and `&s[n..]`.
* `takeBytes` — the longest part of a text within some bytes.

## Main results

* `isSome_sliceTo_iff`, `isSome_sliceFrom_iff` — **a slice does not panic exactly at the
  character boundaries.**
-/

namespace Pantoken

/-- The longest part of a text within some bytes. -/
def takeBytes : ℕ → List Char → List Char
  | _, [] => []
  | n, c :: cs => if c.utf8Size ≤ n then c :: takeBytes (n - c.utf8Size) cs else []

/-- `&s[..n]`, which panics inside a character and past the end. -/
def sliceTo : List Char → ℕ → Option (List Char)
  | _, 0 => some []
  | [], _ + 1 => none
  | c :: cs, n + 1 =>
    if c.utf8Size ≤ n + 1 then (sliceTo cs (n + 1 - c.utf8Size)).map (c :: ·) else none

/-- `&s[n..]`, which panics inside a character and past the end. -/
def sliceFrom : List Char → ℕ → Option (List Char)
  | cs, 0 => some cs
  | [], _ + 1 => none
  | c :: cs, n + 1 => if c.utf8Size ≤ n + 1 then sliceFrom cs (n + 1 - c.utf8Size) else none

/-- The bytes of a text. -/
def byteLength : List Char → ℕ
  | [] => 0
  | c :: cs => c.utf8Size + byteLength cs

/-- `str::is_char_boundary` -/
def IsCharBoundary (cs : List Char) (n : ℕ) : Prop := ∃ front, front <+: cs ∧ byteLength front = n

/-! ### Bytes -/

theorem utf8ByteSize_ofList (cs : List Char) :
    (String.ofList cs).utf8ByteSize = byteLength cs := by
  induction cs with
  | nil => rfl
  | cons c cs ih =>
    rw [byteLength, ← ih, show c :: cs = [c] ++ cs from rfl, String.ofList_append,
      String.utf8ByteSize_append, ← String.singleton_eq_ofList, String.utf8ByteSize_singleton]

theorem byteLength_append (xs ys : List Char) :
    byteLength (xs ++ ys) = byteLength xs + byteLength ys := by
  induction xs with
  | nil => simp [byteLength]
  | cons c xs ih =>
    rw [List.cons_append, byteLength, byteLength, ih]
    omega

/-- Characters that are left out make a text shorter. -/
theorem byteLength_le_of_sublist {xs ys : List Char} (h : xs.Sublist ys) :
    byteLength xs ≤ byteLength ys := by
  induction h with
  | slnil => exact le_rfl
  | cons c _ ih =>
    rw [byteLength]
    omega
  | cons_cons c _ ih =>
    rw [byteLength, byteLength]
    omega

theorem byteLength_eq_zero {xs : List Char} (h : byteLength xs = 0) : xs = [] := by
  cases xs with
  | nil => rfl
  | cons c xs =>
    have hpos := c.utf8Size_pos
    rw [byteLength] at h
    omega

/-- A text that starts with another and has no more bytes is that one. -/
theorem eq_of_prefix_of_byteLength_le {xs ys : List Char} (h : xs <+: ys)
    (hle : byteLength ys ≤ byteLength xs) : ys = xs := by
  obtain ⟨zs, rfl⟩ := h
  rw [byteLength_append] at hle
  have hzs : zs = [] := byteLength_eq_zero (by omega)
  rw [hzs, List.append_nil]

/-! ### Slices -/

theorem sliceTo_eq_some {cs front : List Char} {n : ℕ} (h : sliceTo cs n = some front) :
    front <+: cs ∧ byteLength front = n ∧ takeBytes n cs = front := by
  induction cs generalizing n front with
  | nil =>
    cases n with
    | zero =>
      cases h
      exact ⟨List.prefix_refl _, rfl, rfl⟩
    | succ n => cases h
  | cons c cs ih =>
    have hpos := c.utf8Size_pos
    cases n with
    | zero =>
      cases h
      exact ⟨List.nil_prefix, rfl, if_neg (by omega)⟩
    | succ n =>
      simp only [sliceTo] at h
      split at h
      · next hle =>
        obtain ⟨front, hfront, rfl⟩ := Option.map_eq_some_iff.mp h
        obtain ⟨hpre, hlen, htake⟩ := ih hfront
        refine ⟨List.cons_prefix_cons.mpr ⟨rfl, hpre⟩, ?_, ?_⟩
        · rw [byteLength, hlen]
          omega
        · rw [takeBytes, if_pos hle, htake]
      · cases h

theorem isSome_sliceTo (front rest : List Char) :
    (sliceTo (front ++ rest) (byteLength front)).isSome := by
  induction front with
  | nil => cases rest <;> rfl
  | cons c front ih =>
    have hpos := c.utf8Size_pos
    obtain ⟨n, hn⟩ : ∃ n, byteLength (c :: front) = n + 1 :=
      Nat.exists_eq_succ_of_ne_zero (by rw [byteLength]; omega)
    have hle : c.utf8Size ≤ n + 1 := by
      rw [← hn, byteLength]
      exact Nat.le_add_right _ _
    rw [hn, List.cons_append, sliceTo, if_pos hle, Option.isSome_map, ← hn, byteLength,
      Nat.add_sub_cancel_left]
    exact ih

/-- **A slice does not panic exactly at the character boundaries.** -/
theorem isSome_sliceTo_iff {cs : List Char} {n : ℕ} :
    (sliceTo cs n).isSome ↔ IsCharBoundary cs n := by
  constructor
  · intro h
    obtain ⟨front, hfront⟩ := Option.isSome_iff_exists.mp h
    obtain ⟨hpre, hlen, -⟩ := sliceTo_eq_some hfront
    exact ⟨front, hpre, hlen⟩
  · rintro ⟨front, ⟨rest, rfl⟩, rfl⟩
    exact isSome_sliceTo front rest

/-- What stands in front of a boundary. -/
theorem sliceTo_append (front rest : List Char) :
    sliceTo (front ++ rest) (byteLength front) = some front := by
  obtain ⟨front', hfront'⟩ := Option.isSome_iff_exists.mp (isSome_sliceTo front rest)
  obtain ⟨hpre, hlen, -⟩ := sliceTo_eq_some hfront'
  rw [hfront']
  -- two fronts of a text with the same number of bytes
  rcases List.prefix_or_prefix_of_prefix hpre (List.prefix_append front rest) with h | h
  · rw [eq_of_prefix_of_byteLength_le h hlen.ge]
  · rw [eq_of_prefix_of_byteLength_le h hlen.le]

/-- What stands behind a boundary. -/
theorem sliceFrom_append (front rest : List Char) :
    sliceFrom (front ++ rest) (byteLength front) = some rest := by
  induction front with
  | nil => cases rest <;> rfl
  | cons c front ih =>
    have hpos := c.utf8Size_pos
    obtain ⟨n, hn⟩ : ∃ n, byteLength (c :: front) = n + 1 :=
      Nat.exists_eq_succ_of_ne_zero (by rw [byteLength]; omega)
    have hle : c.utf8Size ≤ n + 1 := by
      rw [← hn, byteLength]
      exact Nat.le_add_right _ _
    rw [hn, List.cons_append, sliceFrom, if_pos hle, ← hn, byteLength, Nat.add_sub_cancel_left]
    exact ih

/-- The two slices of a cut panic together. -/
theorem isSome_sliceFrom (cs : List Char) (n : ℕ) :
    (sliceFrom cs n).isSome = (sliceTo cs n).isSome := by
  induction cs generalizing n with
  | nil => cases n <;> rfl
  | cons c cs ih =>
    cases n with
    | zero => rfl
    | succ n =>
      rw [sliceFrom, sliceTo]
      split
      · rw [ih, Option.isSome_map]
      · rfl

theorem isSome_sliceFrom_iff {cs : List Char} {n : ℕ} :
    (sliceFrom cs n).isSome ↔ IsCharBoundary cs n := by
  rw [isSome_sliceFrom, isSome_sliceTo_iff]

end Pantoken
