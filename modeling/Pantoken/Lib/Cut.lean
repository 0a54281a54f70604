import Mathlib.Data.List.DropRight
import Mathlib.Data.List.Infix

/-!
# Cutting lists at blanks and at patterns

What a line-driven reader does to its lines: it trims blanks from both ends, takes the first
word, looks for the first place of a pattern, and takes every place of a pattern away.

## Main definitions

* `Cut.isWhitespace` — the white space of Unicode.
* `Cut.trim`, `Cut.firstToken` — a list without the blanks around it, and its first word.
* `Cut.Solid` — a list that is not blank at either end.
* `Cut.stripPrefix`, `Cut.afterFirst` — what follows a pattern at the front, and anywhere.
* `Cut.without` — a list with every place of a pattern taken away, from the left.

## Main results

* `Cut.trim_pad` — a solid list is found again between blanks.
* `Cut.trim_append_blanks` — blanks at the end make no difference.
* `Cut.firstToken_append` — so is a word before a blank.
* `Cut.afterFirst_append_cons` — what holds no pattern and ends at a foreign character is
  skipped.
* `Cut.without_append` — nothing is taken away before the first character of a pattern.
-/

namespace Pantoken.Cut

variable {α : Type*}

/-! ### Blanks -/

/-- The white space of Unicode. -/
def isWhitespace (c : Char) : Bool :=
  let n := c.toNat
  (9 ≤ n ∧ n ≤ 13) ∨ n = 0x20 ∨ n = 0x85 ∨ n = 0xa0 ∨ n = 0x1680 ∨ (0x2000 ≤ n ∧ n ≤ 0x200a) ∨
    n = 0x2028 ∨ n = 0x2029 ∨ n = 0x202f ∨ n = 0x205f ∨ n = 0x3000

/-- The list without the blanks around it. -/
def trim (blank : α → Bool) (l : List α) : List α := (l.dropWhile blank).rdropWhile blank

/-- The first run of characters that are not blank. -/
def firstToken (blank : α → Bool) (l : List α) : Option (List α) :=
  let token := (l.dropWhile blank).takeWhile fun c => !blank c
  if token.isEmpty then none else some token

/-- Not empty, and not blank at either end. -/
structure Solid (blank : α → Bool) (l : List α) : Prop where
  ne_nil : l ≠ []
  head : ∀ c ∈ l.head?, blank c = false
  last : ∀ c ∈ l.getLast?, blank c = false

section Blanks

variable {blank : α → Bool} {a b l : List α}

theorem dropWhile_pad (ha : ∀ c ∈ a, blank c = true) (hl : ∀ c ∈ l.head?, blank c = false) :
    (a ++ l).dropWhile blank = l := by
  rw [List.dropWhile_append_of_pos ha]
  cases l with
  | nil => rfl
  | cons c l =>
    have hc : blank c = false := hl c rfl
    rw [List.dropWhile_cons_of_neg (by rw [hc]; decide)]

theorem rdropWhile_pad (hb : ∀ c ∈ b, blank c = true)
    (hl : ∀ c ∈ l.getLast?, blank c = false) : (l ++ b).rdropWhile blank = l := by
  rw [List.rdropWhile, List.reverse_append,
    dropWhile_pad (fun c hc => hb c (List.mem_reverse.mp hc)) (by rwa [List.head?_reverse]),
    List.reverse_reverse]

/-- **A solid list is found again between blanks.** -/
theorem trim_pad (hl : Solid blank l) (ha : ∀ c ∈ a, blank c = true)
    (hb : ∀ c ∈ b, blank c = true) : trim blank (a ++ (l ++ b)) = l := by
  have hhead : ∀ c ∈ (l ++ b).head?, blank c = false := by
    rw [List.head?_append_of_ne_nil _ hl.ne_nil]
    exact hl.head
  rw [trim, dropWhile_pad ha hhead, rdropWhile_pad hb hl.last]

/-- What holds no blank is trimmed to itself. -/
theorem trim_eq_self (hl : ∀ c ∈ l, blank c = false) : trim blank l = l := by
  by_cases hne : l = []
  · rw [hne]
    rfl
  · have hsolid : Solid blank l := ⟨hne, fun c hc => hl c (List.mem_of_mem_head? hc),
      fun c hc => hl c (List.mem_of_mem_getLast? hc)⟩
    simpa using trim_pad (a := []) (b := []) hsolid (by simp) (by simp)

theorem trim_eq_nil_iff : trim blank l = [] ↔ ∀ c ∈ l, blank c = true := by
  rw [trim, List.rdropWhile_eq_nil_iff]
  constructor
  · intro h
    have hnil : l.dropWhile blank = [] := by
      by_contra hne
      have hhead := List.head_dropWhile_not blank hne
      rw [h _ (List.head_mem hne)] at hhead
      cases hhead
    exact List.dropWhile_eq_nil_iff.mp hnil
  · exact fun h c hc => h c ((List.dropWhile_sublist _).subset hc)

theorem rdropWhile_append_blanks (hb : ∀ c ∈ b, blank c = true) (l : List α) :
    (l ++ b).rdropWhile blank = l.rdropWhile blank := by
  rw [List.rdropWhile, List.reverse_append,
    List.dropWhile_append_of_pos fun c hc => hb c (List.mem_reverse.mp hc), List.rdropWhile]

/-- **Blanks at the end make no difference.** -/
theorem trim_append_blanks (hb : ∀ c ∈ b, blank c = true) (l : List α) :
    trim blank (l ++ b) = trim blank l := by
  rw [trim, List.dropWhile_append]
  split
  · next hnil =>
    -- all of it goes
    rw [trim, List.isEmpty_iff.mp hnil, List.dropWhile_eq_nil_iff.mpr hb]
  · rw [rdropWhile_append_blanks hb, trim]

/-- Blanks are taken away from the end of what follows the first character, and the character
as well if nothing is left of it. -/
theorem rdropWhile_cons (blank : α → Bool) (c : α) (l : List α) :
    (c :: l).rdropWhile blank =
      if l.rdropWhile blank = [] then (if blank c then [] else [c])
      else c :: l.rdropWhile blank := by
  rw [List.rdropWhile, List.reverse_cons, List.dropWhile_append, List.rdropWhile]
  simp only [List.isEmpty_iff, List.reverse_eq_nil_iff]
  split
  · rw [List.dropWhile_cons]
    split <;> rfl
  · rw [List.reverse_append, List.reverse_singleton, List.singleton_append]

/-- What is solid stays, whatever follows it. -/
theorem prefix_trim (hl : Solid blank l) (ha : ∀ c ∈ a, blank c = true) (b : List α) :
    l <+: trim blank (a ++ (l ++ b)) := by
  have hhead : ∀ c ∈ (l ++ b).head?, blank c = false := by
    rw [List.head?_append_of_ne_nil _ hl.ne_nil]
    exact hl.head
  rw [trim, dropWhile_pad ha hhead, List.rdropWhile, List.reverse_append, List.dropWhile_append]
  split
  · -- all that follows goes, and nothing of what is solid
    have hkept := rdropWhile_pad (b := []) (by simp) hl.last
    rw [List.append_nil, List.rdropWhile] at hkept
    rw [hkept]
  · rw [List.reverse_append, List.reverse_reverse]
    exact List.prefix_append l _

theorem trim_prefix_dropWhile (blank : α → Bool) (l : List α) :
    trim blank l <+: l.dropWhile blank := List.rdropWhile_prefix blank _

theorem trim_ne_cons {c d : α} (h : l.dropWhile blank = c :: a) (hcd : d ≠ c) :
    trim blank l ≠ d :: b := by
  intro htrim
  have hprefix : trim blank l <+: l.dropWhile blank := List.rdropWhile_prefix blank _
  rw [htrim, h] at hprefix
  exact hcd (List.cons_prefix_cons.mp hprefix).1

/-- **A word before a blank is the first token.** -/
theorem firstToken_append (hne : l ≠ []) (hl : ∀ c ∈ l, blank c = false)
    (ha : ∀ c ∈ a, blank c = true) (hb : ∀ c ∈ b.head?, blank c = true) :
    firstToken blank (a ++ (l ++ b)) = some l := by
  have hhead : ∀ c ∈ (l ++ b).head?, blank c = false := by
    rw [List.head?_append_of_ne_nil _ hne]
    exact fun c hc => hl c (List.mem_of_mem_head? hc)
  have htake : (l ++ b).takeWhile (fun c => !blank c) = l := by
    rw [List.takeWhile_append_of_pos (fun c hc => by rw [hl c hc]; rfl)]
    cases b with
    | nil => rw [List.takeWhile_nil, List.append_nil]
    | cons c b =>
      have hc : blank c = true := hb c rfl
      rw [List.takeWhile_cons_of_neg (by rw [hc]; decide), List.append_nil]
  rw [firstToken, dropWhile_pad ha hhead, htake]
  simp [hne]

end Blanks

/-! ### Patterns -/

variable {pat x y : List α} {c : α}

theorem not_prefix_of_ne {d : α} (h : c ≠ d) : ¬ c :: pat <+: d :: x := fun hp =>
  h (List.cons_prefix_cons.mp hp).1

variable [DecidableEq α]

/-- What follows the pattern at the front. -/
def stripPrefix (pat l : List α) : Option (List α) :=
  if pat <+: l then some (l.drop pat.length) else none

/-- What follows the first place of the pattern. -/
def afterFirst (pat : List α) : List α → Option (List α)
  | [] => if pat = [] then some [] else none
  | c :: l =>
    if pat <+: c :: l then some ((c :: l).drop pat.length) else afterFirst pat l

/-- The places of the pattern are taken away from the left; so many elements still belong to
the last one found. -/
def withoutFrom (pat : List α) : ℕ → List α → List α
  | _, [] => []
  | n + 1, _ :: l => withoutFrom pat n l
  | 0, c :: l =>
    if pat <+: c :: l then withoutFrom pat (pat.length - 1) l else c :: withoutFrom pat 0 l

/-- The list with every place of the pattern taken away. -/
def without (pat l : List α) : List α := withoutFrom pat 0 l

theorem withoutFrom_nil (pat : List α) (n : ℕ) : withoutFrom pat n [] = [] := by
  unfold withoutFrom
  rfl

theorem stripPrefix_append (pat y : List α) : stripPrefix pat (pat ++ y) = some y := by
  rw [stripPrefix, if_pos (List.prefix_append pat y), List.drop_left]

theorem stripPrefix_eq_none (h : ¬ pat <+: x) : stripPrefix pat x = none := if_neg h

theorem stripPrefix_of_head (hne : pat ≠ []) (h : x.head? ≠ pat.head?) :
    stripPrefix pat x = none := by
  refine stripPrefix_eq_none fun hp => h ?_
  obtain ⟨t, rfl⟩ := hp
  exact List.head?_append_of_ne_nil _ hne

theorem afterFirst_prefix (hne : pat ≠ []) (y : List α) : afterFirst pat (pat ++ y) = some y := by
  obtain ⟨c, pat, rfl⟩ := List.exists_cons_of_ne_nil hne
  rw [List.cons_append, afterFirst, if_pos (by simp)]
  simp

/-- **What holds no pattern and ends at a foreign character is skipped.** -/
theorem afterFirst_append_cons (hne : pat ≠ []) (hx : ¬ pat <:+: x) (hc : c ∉ pat) :
    afterFirst pat (x ++ c :: y) = afterFirst pat y := by
  induction x with
  | nil =>
    obtain ⟨d, pat, rfl⟩ := List.exists_cons_of_ne_nil hne
    have hd : d ≠ c := fun h => hc (h ▸ List.mem_cons_self)
    rw [List.nil_append, afterFirst, if_neg (not_prefix_of_ne hd)]
  | cons d x ih =>
    have hnot : ¬ pat <+: d :: (x ++ c :: y) := by
      -- a pattern here lies in what is skipped, or goes beyond the foreign character
      intro hp
      obtain hin | hout := List.prefix_or_prefix_of_prefix hp
        (List.prefix_append (d :: (x ++ [c])) y |>.trans (by simp))
      · rw [← List.cons_append, List.prefix_concat_iff] at hin
        obtain rfl | hin := hin
        · simp at hc
        · exact hx hin.isInfix
      · exact hc (hout.subset (by simp))
    rw [List.cons_append, afterFirst, if_neg hnot]
    exact ih fun h => hx (h.trans (List.suffix_cons d x).isInfix)

/-- **Nothing is taken away before the first character of a pattern.** -/
theorem without_append {d : α} (hx : d ∉ x) (y : List α) :
    without (d :: pat) (x ++ y) = x ++ without (d :: pat) y := by
  induction x with
  | nil => rfl
  | cons c x ih =>
    obtain ⟨hdc, hx⟩ := not_or.mp (List.mem_cons.not.mp hx)
    rw [List.cons_append, without, withoutFrom, if_neg (not_prefix_of_ne hdc), ← without, ih hx,
      List.cons_append]

theorem without_of_notMem {d : α} (hx : d ∉ x) : without (d :: pat) x = x := by
  have : without (d :: pat) (x ++ []) = x ++ without (d :: pat) [] := without_append hx []
  rwa [List.append_nil, without, without, withoutFrom_nil, List.append_nil] at this

/-- A pattern alone. -/
theorem without_self (pat : List α) : without pat pat = [] := by
  have hskip : ∀ (n : ℕ) (l : List α), l.length ≤ n → withoutFrom pat n l = [] := by
    intro n l
    induction l generalizing n with
    | nil => exact fun _ => withoutFrom_nil pat n
    | cons c l ih =>
      intro hn
      obtain ⟨n, rfl⟩ := Nat.exists_eq_succ_of_ne_zero (n := n) (by rintro rfl; simp at hn)
      rw [withoutFrom]
      exact ih n (by simpa using hn)
  cases pat with
  | nil => rfl
  | cons c pat =>
    rw [without, withoutFrom, if_pos (List.prefix_refl _)]
    exact hskip _ _ (by simp)

end Pantoken.Cut
