import Mathlib.Data.Char
import Mathlib.Data.List.Infix

/-!
# UTF-16

A JavaScript string is a list of code units: one for a character of the basic plane, and a pair
of surrogates for another one.

## Main definitions

* `utf16`, `utf16Length` — the code units of a text, and their number.

## Main results

* `utf16_injective` — **a text is known from its code units.**
* `utf16_prefix_iff` — so is what it starts with.
* `mem_utf16_iff` — a character of the basic plane is where its code unit is.
-/

namespace Pantoken

/-- A JavaScript string, by its code units. -/
abbrev JsString := List ℕ

/-- The code units of a text. -/
def utf16 (s : List Char) : JsString :=
  s.flatMap fun c =>
    if c.toNat < 0x10000 then [c.toNat]
    else [0xD800 + (c.toNat - 0x10000) / 0x400, 0xDC00 + (c.toNat - 0x10000) % 0x400]

/-- The `length` of a text. -/
def utf16Length (s : List Char) : ℕ := (utf16 s).length

theorem utf16_cons (c : Char) (s : List Char) : utf16 (c :: s) = utf16 [c] ++ utf16 s := by
  unfold utf16
  rw [List.flatMap_cons, List.flatMap_singleton]

theorem utf16_append (s t : List Char) : utf16 (s ++ t) = utf16 s ++ utf16 t :=
  List.flatMap_append

theorem utf16_singleton (c : Char) : utf16 [c] =
    if c.toNat < 0x10000 then [c.toNat]
    else [0xD800 + (c.toNat - 0x10000) / 0x400, 0xDC00 + (c.toNat - 0x10000) % 0x400] :=
  List.flatMap_singleton _ _

/-- The code units of a character before other ones. -/
theorem utf16_char_append {c d : Char} {s t : JsString} (h : utf16 [c] ++ s = utf16 [d] ++ t) :
    c = d ∧ s = t := by
  -- the code points between are no characters
  have hc : c.toNat < 0xD800 ∨ 0xDFFF < c.toNat ∧ c.toNat < 0x110000 := c.valid
  have hd : d.toNat < 0xD800 ∨ 0xDFFF < d.toNat ∧ d.toNat < 0x110000 := d.valid
  rw [utf16_singleton, utf16_singleton] at h
  split_ifs at h
  · obtain ⟨hcd, hst⟩ := List.cons.inj h
    exact ⟨Char.toNat_inj.mp hcd, hst⟩
  · -- a unit of its own is no surrogate
    obtain ⟨hcd, -⟩ := List.cons.inj h
    omega
  · obtain ⟨hcd, -⟩ := List.cons.inj h
    omega
  · -- two pairs of surrogates
    obtain ⟨hhigh, h⟩ := List.cons.inj h
    obtain ⟨hlow, hst⟩ := List.cons.inj h
    exact ⟨Char.toNat_inj.mp (by omega), hst⟩

theorem utf16_eq_nil_iff {s : List Char} : utf16 s = [] ↔ s = [] := by
  cases s with
  | nil => exact iff_of_true rfl rfl
  | cons c s =>
    refine iff_of_false (fun h => ?_) (List.cons_ne_nil _ _)
    rw [utf16_cons, utf16_singleton] at h
    split_ifs at h <;> exact List.cons_ne_nil _ _ h

/-- **A text is known from its code units.** -/
theorem utf16_injective : Function.Injective utf16 := by
  intro s
  induction s with
  | nil => exact fun t h => (utf16_eq_nil_iff.mp h.symm).symm
  | cons c s ih =>
    intro t h
    cases t with
    | nil => exact utf16_eq_nil_iff.mp h
    | cons d t =>
      rw [utf16_cons, utf16_cons d] at h
      obtain ⟨rfl, hst⟩ := utf16_char_append h
      rw [ih hst]

/-- Only a character of the basic plane has its code unit. -/
theorem mem_utf16_iff {d : Char} (hd : d.toNat < 0xD800) {s : List Char} :
    d.toNat ∈ utf16 s ↔ d ∈ s := by
  induction s with
  | nil => exact iff_of_false List.not_mem_nil List.not_mem_nil
  | cons c s ih =>
    rw [utf16_cons, List.mem_append, ih, List.mem_cons]
    refine or_congr_left ?_
    rw [utf16_singleton, ← Char.toNat_inj]
    split_ifs
    · exact List.mem_singleton
    · rw [List.mem_cons, List.mem_singleton]
      omega

theorem utf16_prefix_iff {p s : List Char} : utf16 p <+: utf16 s ↔ p <+: s := by
  constructor
  · rintro ⟨r, hr⟩
    induction p generalizing s with
    | nil => exact List.nil_prefix
    | cons c p ih =>
      cases s with
      | nil =>
        rw [utf16_cons, List.append_assoc] at hr
        exact absurd (utf16_eq_nil_iff.mp (List.append_eq_nil_iff.mp hr).1) (List.cons_ne_nil _ _)
      | cons d s =>
        rw [utf16_cons, utf16_cons d, List.append_assoc] at hr
        obtain ⟨rfl, hrest⟩ := utf16_char_append hr
        exact List.cons_prefix_cons.mpr ⟨rfl, ih hrest⟩
  · rintro ⟨r, rfl⟩
    rw [utf16_append]
    exact List.prefix_append _ _

end Pantoken
