import Mathlib.Data.Nat.Digits.Defs
import Mathlib.Data.Char
import Mathlib.Data.List.Lex

/-!
# Decimal numerals as texts

A number is written in decimal, with zeros in front up to a width.  Texts made of such
numerals are compared character by character, and that is the comparison of the numbers as
long as the numerals are equally long.

## Main definitions

* `numeral` — a number in decimal, with zeros in front up to a width.

## Main results

* `ofDigitChars_numeral` — a numeral read back.
* `lt_iff_ofDigitChars_lt` — digits of one length are in the order of their values.
* `numeral_append_lt_iff` — **a numeral before a character below the digits.**
-/

namespace Pantoken

/-- A number in decimal, with zeros in front up to a width. -/
def numeral (width n : ℕ) : List Char :=
  List.replicate (width - (Nat.toDigits 10 n).length) '0' ++ Nat.toDigits 10 n

/-! ### Reading a numeral back -/

theorem length_numeral (w n : ℕ) : (numeral w n).length = max w (Nat.toDigits 10 n).length := by
  simp only [numeral, List.length_append, List.length_replicate]
  omega

theorem length_numeral_of_lt {w n : ℕ} (hw : 0 < w) (h : n < 10 ^ w) :
    (numeral w n).length = w := by
  have hle : (Nat.toDigits 10 n).length ≤ w :=
    (Nat.length_toDigits_le_iff (by decide) hw).mpr h
  rw [length_numeral, max_eq_left hle]

/-- A greater number has no shorter numeral. -/
theorem length_numeral_le {w m n : ℕ} (h : m ≤ n) :
    (numeral w m).length ≤ (numeral w n).length := by
  have hpos : 0 < (Nat.toDigits 10 n).length := Nat.length_toDigits_pos
  have hn := (Nat.length_toDigits_le_iff (b := 10) (by decide) hpos).mp le_rfl
  have hm := (Nat.length_toDigits_le_iff (b := 10) (by decide) hpos).mpr (h.trans_lt hn)
  rw [length_numeral, length_numeral]
  omega

theorem numeral_ne_nil (w n : ℕ) : numeral w n ≠ [] := by
  intro h
  exact Nat.toDigits_ne_nil (List.append_eq_nil_iff.mp h).2

theorem isDigit_of_mem_numeral {w n : ℕ} : ∀ c ∈ numeral w n, c.isDigit := by
  intro c hc
  rcases List.mem_append.mp hc with h | h
  · rw [List.eq_of_mem_replicate h]
    rfl
  · exact Nat.isDigit_of_mem_toDigits (by decide) (by decide) h

theorem ofDigitChars_numeral (w n : ℕ) : Nat.ofDigitChars 10 (numeral w n) 0 = n := by
  rw [numeral, Nat.ofDigitChars_append, Nat.ofDigitChars_replicate_zero, Nat.mul_zero,
    Nat.ofDigitChars_ten_toDigits]

/-! ### Digits in order -/

section Order

variable {s t : List Char}

theorem ofDigitChars_cons (c : Char) (s : List Char) : Nat.ofDigitChars 10 (c :: s) 0 =
    10 ^ s.length * (c.toNat - '0'.toNat) + Nat.ofDigitChars 10 s 0 := by
  rw [Nat.ofDigitChars_cons, Nat.ofDigitChars_eq_ofDigitChars_zero, Nat.mul_zero, Nat.zero_add]

theorem toNat_of_isDigit {c : Char} (h : c.isDigit) :
    '0'.toNat ≤ c.toNat ∧ c.toNat ≤ '9'.toNat := by
  simp only [Char.isDigit, Bool.and_eq_true, decide_eq_true_eq] at h
  exact ⟨h.1, h.2⟩

theorem ofDigitChars_lt (hs : ∀ c ∈ s, c.isDigit) :
    Nat.ofDigitChars 10 s 0 < 10 ^ s.length := by
  induction s with
  | nil => decide
  | cons c s ih =>
    have hc := toNat_of_isDigit (hs c List.mem_cons_self)
    have hlt := ih fun d hd => hs d (List.mem_cons_of_mem c hd)
    have hle : 10 ^ s.length * (c.toNat - '0'.toNat) ≤ 10 ^ s.length * 9 := by
      apply Nat.mul_le_mul_left
      have : '9'.toNat - '0'.toNat = 9 := rfl
      omega
    rw [ofDigitChars_cons, List.length_cons, Nat.pow_succ]
    omega

/-- Digits of one length are in the order of their values. -/
theorem lt_iff_ofDigitChars_lt (hs : ∀ c ∈ s, c.isDigit) (ht : ∀ c ∈ t, c.isDigit)
    (hlen : s.length = t.length) :
    s < t ↔ Nat.ofDigitChars 10 s 0 < Nat.ofDigitChars 10 t 0 := by
  induction s generalizing t with
  | nil =>
    rw [List.length_nil, eq_comm, List.length_eq_zero_iff] at hlen
    subst hlen
    simp
  | cons c s ih =>
    cases t with
    | nil => cases hlen
    | cons d t =>
      have hlen' : s.length = t.length := Nat.succ.inj hlen
      have hc := toNat_of_isDigit (hs c List.mem_cons_self)
      have hd := toNat_of_isDigit (ht d List.mem_cons_self)
      have hs' : ∀ c ∈ s, c.isDigit := fun e he => hs e (List.mem_cons_of_mem c he)
      have ht' : ∀ c ∈ t, c.isDigit := fun e he => ht e (List.mem_cons_of_mem d he)
      have hslt := ofDigitChars_lt hs'
      have htlt := ofDigitChars_lt ht'
      have hcd : c < d ↔ c.toNat < d.toNat := Iff.rfl
      rw [List.cons_lt_cons_iff, ih hs' ht' hlen', ofDigitChars_cons, ofDigitChars_cons, hlen', hcd]
      rw [hlen'] at hslt
      rcases Nat.lt_trichotomy c.toNat d.toNat with h | h | h
      · have hmul := Nat.mul_le_mul_left (10 ^ t.length)
          (show c.toNat - '0'.toNat + 1 ≤ d.toNat - '0'.toNat by omega)
        rw [Nat.mul_add] at hmul
        exact ⟨fun _ => by omega, fun _ => .inl h⟩
      · have heq : c = d := Char.toNat_inj.mp h
        subst heq
        simp
      · have hne : c ≠ d := by
          rintro rfl
          omega
        have hmul := Nat.mul_le_mul_left (10 ^ t.length)
          (show d.toNat - '0'.toNat + 1 ≤ c.toNat - '0'.toNat by omega)
        rw [Nat.mul_add] at hmul
        refine ⟨?_, fun _ => by omega⟩
        rintro (h' | ⟨h', -⟩)
        · omega
        · exact absurd h' hne

theorem eq_of_ofDigitChars_eq (hs : ∀ c ∈ s, c.isDigit) (ht : ∀ c ∈ t, c.isDigit)
    (hlen : s.length = t.length) (h : Nat.ofDigitChars 10 s 0 = Nat.ofDigitChars 10 t 0) :
    s = t := by
  have hst := lt_iff_ofDigitChars_lt hs ht hlen
  have hts := lt_iff_ofDigitChars_lt ht hs hlen.symm
  rcases lt_trichotomy s t with hlt | heq | hlt
  · rw [hst] at hlt
    omega
  · exact heq
  · rw [hts] at hlt
    omega

/-- Texts with fronts of one length are compared by their fronts first. -/
theorem append_lt_append_iff {a b x y : List Char} (h : a.length = b.length) :
    a ++ x < b ++ y ↔ a < b ∨ a = b ∧ x < y := by
  induction a generalizing b with
  | nil =>
    rw [List.length_nil, eq_comm, List.length_eq_zero_iff] at h
    subst h
    simp
  | cons c a ih =>
    cases b with
    | nil => cases h
    | cons d b =>
      rw [List.cons_append, List.cons_append, List.cons_lt_cons_iff, List.cons_lt_cons_iff,
        ih (Nat.succ.inj h), List.cons.injEq]
      tauto

/-- Numerals of one length before a separator. -/
theorem numeral_append_cons_lt_iff {w m n : ℕ} (c : Char) (x y : List Char)
    (hlen : (numeral w m).length = (numeral w n).length) :
    numeral w m ++ c :: x < numeral w n ++ c :: y ↔ m < n ∨ m = n ∧ x < y := by
  have heq : numeral w m = numeral w n ↔ m = n := by
    refine ⟨fun h => ?_, fun h => by rw [h]⟩
    rw [← ofDigitChars_numeral w m, h, ofDigitChars_numeral]
  rw [append_lt_append_iff hlen, heq, lt_iff_ofDigitChars_lt isDigit_of_mem_numeral
    isDigit_of_mem_numeral hlen, ofDigitChars_numeral, ofDigitChars_numeral, List.cons_lt_cons_iff]
  simp

/-- **A numeral before a character below the digits**: the shorter one comes first where it is
not above the front of the longer one. -/
theorem numeral_append_lt_iff {w m n : ℕ} {c : Char} {x y : List Char} (hc : c.toNat < '0'.toNat)
    (hlt : (numeral w m).length < (numeral w n).length) :
    numeral w m ++ c :: x < numeral w n ++ y ↔
      m ≤ n / 10 ^ ((numeral w n).length - (numeral w m).length) := by
  have hm := isDigit_of_mem_numeral (w := w) (n := m)
  have hn := isDigit_of_mem_numeral (w := w) (n := n)
  -- the front of the longer numeral
  have hlen : (numeral w m).length = ((numeral w n).take (numeral w m).length).length := by
    rw [List.length_take]
    omega
  have hfront : ∀ c ∈ (numeral w n).take (numeral w m).length, c.isDigit :=
    fun c h => hn c (List.mem_of_mem_take h)
  have hvalue : n / 10 ^ ((numeral w n).length - (numeral w m).length) =
      Nat.ofDigitChars 10 ((numeral w n).take (numeral w m).length) 0 := by
    have hback := ofDigitChars_lt (s := (numeral w n).drop (numeral w m).length)
      fun c h => hn c (List.mem_of_mem_drop h)
    have hsplit := ofDigitChars_numeral w n
    rw [← List.take_append_drop (numeral w m).length (numeral w n), Nat.ofDigitChars_append,
      Nat.ofDigitChars_eq_ofDigitChars_zero] at hsplit
    rw [List.length_drop] at hback hsplit
    generalize Nat.ofDigitChars 10 ((numeral w n).take (numeral w m).length) 0 = front at hsplit ⊢
    have hdiv := Nat.mul_add_div (Nat.pow_pos (n := (numeral w n).length - (numeral w m).length)
      (show 0 < 10 by omega)) front
      (Nat.ofDigitChars 10 ((numeral w n).drop (numeral w m).length) 0)
    rw [hsplit, Nat.div_eq_of_lt hback, Nat.add_zero] at hdiv
    exact hdiv
  obtain ⟨d, back, hback⟩ : ∃ d back, (numeral w n).drop (numeral w m).length = d :: back := by
    refine List.exists_cons_of_ne_nil fun h => ?_
    rw [List.drop_eq_nil_iff] at h
    omega
  have hd : c < d := by
    have hmem : d ∈ (numeral w n).drop (numeral w m).length := by
      rw [hback]
      exact List.mem_cons_self
    have := toNat_of_isDigit (hn d (List.mem_of_mem_drop hmem))
    show c.toNat < d.toNat
    omega
  have hwhole : numeral w n ++ y =
      (numeral w n).take (numeral w m).length ++ (d :: (back ++ y)) := by
    rw [← List.cons_append, ← hback, ← List.append_assoc, List.take_append_drop]
  rw [hwhole, append_lt_append_iff hlen, hvalue, lt_iff_ofDigitChars_lt hm hfront hlen,
    ofDigitChars_numeral, List.cons_lt_cons_iff]
  constructor
  · rintro (h | ⟨h, -⟩)
    · omega
    · rw [← h, ofDigitChars_numeral]
  · intro h
    rcases h.lt_or_eq with h | h
    · exact .inl h
    · refine .inr ⟨eq_of_ofDigitChars_eq hm hfront hlen ?_, .inl hd⟩
      rw [ofDigitChars_numeral]
      exact h

end Order

end Pantoken
