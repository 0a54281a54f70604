import Mathlib.Tactic.IntervalCases
import Pantoken.Lib.Delimited

/-!
# Fields behind their lengths

A record of fields is written without escapes when each field stands behind its length: the
length is written as a numeral, and a separator that no numeral has in it comes after it.

## Main definitions

* `Numeral` — how lengths are written, and the separator.
* `Numeral.fields` — the record of some fields.
* `decimal` — decimal digits and a colon, as bytes.

## Main results

* `Numeral.field_append_inj` — a field is read back whatever stands behind it.
* `Numeral.fields_injective` — **two records with the same text have the same fields.**
-/

namespace Pantoken

variable {α : Type*}

/-- How lengths are written. -/
structure Numeral (α : Type*) where
  digits : ℕ → List α
  sep : α
  injective : Function.Injective digits
  sep_notMem : ∀ n, sep ∉ digits n

namespace Numeral

variable {d : Numeral α}

/-- What stands in front of the first separator is read back. -/
theorem append_sep_inj {a b rest rest' : List α} (ha : d.sep ∉ a) (hb : d.sep ∉ b)
    (h : a ++ d.sep :: rest = b ++ d.sep :: rest') : a = b ∧ rest = rest' := by
  induction a generalizing b with
  | nil =>
    cases b with
    | nil => exact ⟨rfl, List.tail_eq_of_cons_eq h⟩
    | cons c b => exact absurd (List.head_eq_of_cons_eq h ▸ List.mem_cons_self) hb
  | cons c a ih =>
    cases b with
    | nil => exact absurd (List.head_eq_of_cons_eq h ▸ List.mem_cons_self) ha
    | cons c' b =>
      obtain ⟨rfl, htail⟩ := List.cons.inj h
      obtain ⟨rfl, hrest⟩ := ih (List.not_mem_of_not_mem_cons ha)
        (List.not_mem_of_not_mem_cons hb) htail
      exact ⟨rfl, hrest⟩

/-- A field behind its length. -/
def field (d : Numeral α) (a : List α) : List α := d.digits a.length ++ d.sep :: a

def fields (d : Numeral α) (as : List (List α)) : List α := as.flatMap d.field

theorem fields_cons (a : List α) (as : List (List α)) :
    d.fields (a :: as) = d.field a ++ d.fields as := List.flatMap_cons

theorem field_ne_nil (a : List α) : d.field a ≠ [] := by
  unfold field
  simp

/-- A field is read back whatever stands behind it. -/
theorem field_append_inj {a b rest rest' : List α}
    (h : d.field a ++ rest = d.field b ++ rest') : a = b ∧ rest = rest' := by
  unfold field at h
  rw [List.append_assoc, List.append_assoc, List.cons_append, List.cons_append] at h
  obtain ⟨hdigits, htail⟩ := append_sep_inj (d.sep_notMem _) (d.sep_notMem _) h
  exact List.append_inj htail (d.injective hdigits)

/-- **Two records with the same text have the same fields.** -/
theorem fields_injective : Function.Injective d.fields := by
  intro as
  induction as with
  | nil =>
    intro bs h
    cases bs with
    | nil => rfl
    | cons b bs =>
      rw [fields_cons] at h
      exact absurd (List.append_eq_nil_iff.mp h.symm).1 (field_ne_nil b)
  | cons a as ih =>
    intro bs h
    cases bs with
    | nil =>
      rw [fields_cons] at h
      exact absurd (List.append_eq_nil_iff.mp h).1 (field_ne_nil a)
    | cons b bs =>
      rw [fields_cons, fields_cons] at h
      obtain ⟨rfl, hrest⟩ := field_append_inj h
      rw [ih hrest]

end Numeral

/-! ### Decimal lengths -/

theorem Utf8.encode_injective : Function.Injective Utf8.encode := by
  intro cs ds h
  have hdecode := Utf8.decode_encode cs
  rw [h, Utf8.decode_encode] at hdecode
  exact (Option.some.inj hdecode).symm

/-- The decimal numeral. -/
def decimalDigits (n : ℕ) : List Char := Nat.toDigits 10 n

theorem decimalDigits_injective : Function.Injective decimalDigits := by
  intro m n h
  have hm : Nat.ofDigitChars 10 (decimalDigits m) 0 = m := Nat.ofDigitChars_ten_toDigits
  have hn : Nat.ofDigitChars 10 (decimalDigits n) 0 = n := Nat.ofDigitChars_ten_toDigits
  rw [← hm, h, hn]

/-- Digits are bytes below the colon. -/
theorem colon_notMem_encode {cs : List Char} (h : ∀ c ∈ cs, c.isDigit = true) :
    (0x3a : UInt8) ∉ Utf8.encode cs := by
  intro hmem
  obtain ⟨c, hc, hbyte⟩ := List.mem_flatMap.mp hmem
  obtain ⟨hlow, hhigh⟩ := Char.isDigit_iff_toNat.mp (h c hc)
  have hlow' : 48 ≤ c.toNat := hlow
  have hhigh' : c.toNat ≤ 57 := hhigh
  rw [← Char.ofNat_toNat c] at hbyte
  generalize c.toNat = n at hlow' hhigh' hbyte
  interval_cases n <;> revert hbyte <;> decide

/-- Decimal digits and a colon, as bytes. -/
def decimal : Numeral UInt8 where
  digits n := Utf8.encode (decimalDigits n)
  sep := 0x3a
  injective := Utf8.encode_injective.comp decimalDigits_injective
  sep_notMem n := colon_notMem_encode fun _ hc =>
    Nat.isDigit_of_mem_toDigits (by decide) (by decide) hc

end Pantoken
