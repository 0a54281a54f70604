import Mathlib.Data.List.Basic
import Mathlib.Order.Nat

/-!
# Lossy decoding of UTF-8

A list of bytes is read as text whatever it holds: where no character decodes, the longest
start of one, or else a single byte, is read as U+FFFD.

## Main definitions

* `fromUtf8Lossy` — the text of a list of bytes.

## Main results

* `fromUtf8Lossy_encode_append` — a whole character is read as it is.
* `fromUtf8Lossy_later_append` — the later bytes of a character are read one by one.
* `fromUtf8Lossy_part` — **a part of a character is read as replacement characters.**
-/

namespace Pantoken
namespace Utf8

/-- U+FFFD. -/
def replacement : Char := '\uFFFD'

/-- A byte that is not the first of a character, 80 to BF. -/
def isLater (b : UInt8) : Bool := 0x80 ≤ b && b ≤ 0xBF

/-- The range of the second byte and the number of bytes after the first, for a byte that
begins a character of several. -/
def follow (b : UInt8) : Option (UInt8 × UInt8 × ℕ) :=
  if 0xC2 ≤ b && b ≤ 0xDF then some (0x80, 0xBF, 1)
  else if b = 0xE0 then some (0xA0, 0xBF, 2)
  else if b = 0xED then some (0x80, 0x9F, 2)
  else if 0xE1 ≤ b && b ≤ 0xEF then some (0x80, 0xBF, 2)
  else if b = 0xF0 then some (0x90, 0xBF, 3)
  else if 0xF1 ≤ b && b ≤ 0xF3 then some (0x80, 0xBF, 3)
  else if b = 0xF4 then some (0x80, 0x8F, 3)
  else none

/-- How many bytes one replacement character stands for, in front of bytes that decode to
no character. -/
def malformed : List UInt8 → ℕ
  | b :: c :: bs =>
    match follow b with
    | some (low, high, n) =>
      if low ≤ c && c ≤ high then 2 + ((bs.take (n - 1)).takeWhile isLater).length else 1
    | none => 1
  | _ => 1

/-- The character at the front of the bytes. -/
def decodeChar (bs : List UInt8) : Option Char := bs.toByteArray.utf8DecodeChar? 0

/-- At most `n` characters. -/
def lossyFor : ℕ → List UInt8 → List Char
  | 0, _ => []
  | _ + 1, [] => []
  | n + 1, b :: bs =>
    match decodeChar (b :: bs) with
    | some c => c :: lossyFor n ((b :: bs).drop c.utf8Size)
    | none => replacement :: lossyFor n ((b :: bs).drop (malformed (b :: bs)))

/-- The text of the bytes. -/
def fromUtf8Lossy (bs : List UInt8) : List Char := lossyFor bs.length bs

variable {c : Char} {bs part rest : List UInt8}

theorem malformed_pos (bs : List UInt8) : 0 < malformed bs := by
  unfold malformed
  split
  · split
    · split <;> omega
    · exact Nat.one_pos
  · exact Nat.one_pos

/-- Any number of characters beyond the number of bytes is as good as any other. -/
theorem lossyFor_eq {n m : ℕ} (hn : bs.length ≤ n) (hm : bs.length ≤ m) :
    lossyFor n bs = lossyFor m bs := by
  induction n generalizing bs m with
  | zero =>
    obtain rfl := List.length_eq_zero_iff.mp (Nat.le_zero.mp hn)
    cases m <;> rfl
  | succ n ih =>
    cases bs with
    | nil => cases m <;> rfl
    | cons b bs =>
      rw [List.length_cons] at hn hm
      cases m with
      | zero => omega
      | succ m =>
        rw [lossyFor, lossyFor]
        cases hc : decodeChar (b :: bs) with
        | some c =>
          have hpos := c.utf8Size_pos
          have hlen : ((b :: bs).drop c.utf8Size).length ≤ bs.length := by
            rw [List.length_drop, List.length_cons]
            omega
          exact congrArg _ (ih (hlen.trans (by omega)) (hlen.trans (by omega)))
        | none =>
          have hpos := malformed_pos (b :: bs)
          have hlen : ((b :: bs).drop (malformed (b :: bs))).length ≤ bs.length := by
            rw [List.length_drop, List.length_cons]
            omega
          exact congrArg _ (ih (hlen.trans (by omega)) (hlen.trans (by omega)))

@[simp] theorem fromUtf8Lossy_nil : fromUtf8Lossy [] = [] := rfl

/-- Where a character decodes, it is read. -/
theorem fromUtf8Lossy_of_some {b : UInt8} (h : decodeChar (b :: bs) = some c) :
    fromUtf8Lossy (b :: bs) = c :: fromUtf8Lossy ((b :: bs).drop c.utf8Size) := by
  have hpos := c.utf8Size_pos
  have hlen : ((b :: bs).drop c.utf8Size).length ≤ bs.length := by
    rw [List.length_drop, List.length_cons]
    omega
  rw [fromUtf8Lossy, List.length_cons, lossyFor, h]
  exact congrArg (c :: ·) (lossyFor_eq hlen le_rfl)

/-- Where none does, a replacement character is. -/
theorem fromUtf8Lossy_of_none {b : UInt8} (h : decodeChar (b :: bs) = none) :
    fromUtf8Lossy (b :: bs)
      = replacement :: fromUtf8Lossy ((b :: bs).drop (malformed (b :: bs))) := by
  have hpos := malformed_pos (b :: bs)
  have hlen : ((b :: bs).drop (malformed (b :: bs))).length ≤ bs.length := by
    rw [List.length_drop, List.length_cons]
    omega
  rw [fromUtf8Lossy, List.length_cons, lossyFor, h]
  exact congrArg (replacement :: ·) (lossyFor_eq hlen le_rfl)

/-! ### Whole characters -/

theorem decodeChar_encode_append (c : Char) (bs : List UInt8) :
    decodeChar (String.utf8EncodeChar c ++ bs) = some c := by
  rw [decodeChar, List.toByteArray_append]
  exact ByteArray.utf8DecodeChar?_utf8EncodeChar_append

/-- **A whole character is read as it is.** -/
theorem fromUtf8Lossy_encode_append (c : Char) (bs : List UInt8) :
    fromUtf8Lossy (String.utf8EncodeChar c ++ bs) = c :: fromUtf8Lossy bs := by
  have hdecode := decodeChar_encode_append c bs
  have hdrop : (String.utf8EncodeChar c ++ bs).drop c.utf8Size = bs := by
    rw [← String.length_utf8EncodeChar, List.drop_left]
  cases hbs : String.utf8EncodeChar c ++ bs with
  | nil => exact absurd (List.append_eq_nil_iff.mp hbs).1 String.utf8EncodeChar_ne_nil
  | cons b tail =>
    rw [hbs] at hdecode hdrop
    rw [fromUtf8Lossy_of_some hdecode, hdrop]

/-! ### Parts of characters -/

/-- A byte that no character begins with. -/
def Later (b : UInt8) : Prop := ¬ b.IsUTF8FirstByte

/-- All bytes of a character but the first. -/
theorem later_of_mem_tail {b : UInt8} (h : b ∈ (String.utf8EncodeChar c).tail) : Later b := by
  obtain ⟨i, hi, rfl⟩ := List.mem_iff_getElem.mp h
  rw [List.length_tail] at hi
  rw [List.getElem_tail, Later, UInt8.isUTF8FirstByte_getElem_utf8EncodeChar]
  omega

theorem decodeChar_later {b : UInt8} (h : Later b) (bs : List UInt8) :
    decodeChar (b :: bs) = none := by
  by_contra hsome
  have hsome' : ((b :: bs).toByteArray.utf8DecodeChar? 0).isSome := by
    rw [Option.isSome_iff_ne_none]
    exact hsome
  have hfirst := ByteArray.isUTF8FirstByte_of_isSome_utf8DecodeChar? hsome'
  rw [List.getElem_toByteArray] at hfirst
  exact h hfirst

/-- A byte that begins a character of several begins one. -/
theorem follow_later {b : UInt8} (h : Later b) : follow b = none := by
  have hall : ∀ n : Fin 256, ¬ (UInt8.ofFin n).IsUTF8FirstByte →
      follow (UInt8.ofFin n) = none := by
    decide +kernel
  exact hall b.toFin h

theorem malformed_later {b : UInt8} (h : Later b) (bs : List UInt8) : malformed (b :: bs) = 1 := by
  unfold malformed
  split
  · next b' _ _ heq =>
    obtain ⟨rfl, -⟩ := List.cons.inj heq
    rw [follow_later h]
  · rfl

/-- **The later bytes of a character are read one by one.** -/
theorem fromUtf8Lossy_later_append (hpart : ∀ b ∈ part, Later b) (bs : List UInt8) :
    fromUtf8Lossy (part ++ bs)
      = List.replicate part.length replacement ++ fromUtf8Lossy bs := by
  induction part with
  | nil => rfl
  | cons b part ih =>
    obtain ⟨hb, hpart'⟩ := List.forall_mem_cons.mp hpart
    rw [List.cons_append, fromUtf8Lossy_of_none (decodeChar_later hb _), malformed_later hb,
      List.drop_one, List.tail_cons, ih hpart']
    rfl

/-- No character decodes from a part of one. -/
theorem decodeChar_part (h : String.utf8EncodeChar c = part ++ rest) (hrest : rest ≠ []) :
    decodeChar part = none := by
  by_contra hsome
  obtain ⟨d, hd⟩ := Option.ne_none_iff_exists'.mp hsome
  -- it would decode from the whole, too, and be the same
  have hwhole : decodeChar (part ++ rest) = some d := by
    rw [decodeChar, List.toByteArray_append]
    exact ByteArray.utf8DecodeChar?_append_eq_some hd _
  have hc := decodeChar_encode_append c []
  rw [List.append_nil, h, hwhole] at hc
  obtain rfl := Option.some.inj hc
  have hle := ByteArray.le_size_of_utf8DecodeChar?_eq_some hd
  rw [List.size_toByteArray] at hle
  have hlen := congrArg List.length h
  have hpos := List.length_pos_iff.mpr hrest
  rw [String.length_utf8EncodeChar, List.length_append] at hlen
  omega

/-- **A part of a character is read as replacement characters**, one at least. -/
theorem fromUtf8Lossy_part (h : String.utf8EncodeChar c = part ++ rest) (hpart : part ≠ [])
    (hrest : rest ≠ []) :
    ∃ n, 0 < n ∧ fromUtf8Lossy part = List.replicate n replacement := by
  cases part with
  | nil => exact absurd rfl hpart
  | cons b part =>
    have hlater : ∀ b' ∈ part, Later b' := by
      intro b' hb'
      apply later_of_mem_tail (c := c)
      rw [h]
      exact List.mem_append_left rest hb'
    have hdrop : ((b :: part).drop (malformed (b :: part))) <:+ part := by
      have hpos := malformed_pos (b :: part)
      obtain ⟨n, hn⟩ := Nat.exists_eq_succ_of_ne_zero hpos.ne'
      rw [hn, List.drop_succ_cons]
      exact List.drop_suffix n part
    rw [fromUtf8Lossy_of_none (decodeChar_part h hrest)]
    have hrun := fromUtf8Lossy_later_append
      (fun b' hb' => hlater b' (hdrop.subset hb')) []
    rw [List.append_nil, fromUtf8Lossy_nil, List.append_nil] at hrun
    rw [hrun]
    exact ⟨_, Nat.succ_pos _, rfl⟩

end Utf8
end Pantoken
