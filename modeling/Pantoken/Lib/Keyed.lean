import Mathlib.Data.List.Nodup

/-!
# Lists that are used as maps

A list of records with keys is used as a map: a record is looked up and edited at the first place
of its key, and all places of a key are taken away together.  It is a map when no key has two
places.

## Main definitions

* `Keyed.named`, `Keyed.others` — the records with a key, and those without it.
* `Keyed.editFirst` — an edit of the first record with a key, which may fail.

## Main results

* `Keyed.named_eq_singleton` — **in a map each key that is there names one record.**
* `Keyed.editFirst_eq_ok` — what an edit does.
* `Keyed.others_editFirst` — it leaves the other records as they are.
* `Keyed.named_editFirst` — in a map it edits the one record with the key.
-/

namespace Pantoken.Keyed

variable {α κ ε : Type*} [DecidableEq κ] (key : α → κ) (k : κ)

/-- The records with a key. -/
def named (l : List α) : List α := l.filter (key · = k)

/-- The records without it. -/
def others (l : List α) : List α := l.filter (key · ≠ k)

/-- An edit of the first record with a key. -/
def editFirst (edit : α → Except ε α) (missing : ε) : List α → Except ε (List α)
  | [] => .error missing
  | a :: l =>
    if key a = k then (edit a).map (· :: l) else (editFirst edit missing l).map (a :: ·)

variable {key k} {edit : α → Except ε α} {missing : ε} {a b : α} {l l' front back : List α}

theorem named_append : named key k (front ++ back) = named key k front ++ named key k back :=
  List.filter_append _ _

theorem others_append : others key k (front ++ back) = others key k front ++ others key k back :=
  List.filter_append _ _

theorem named_cons_of_eq (h : key a = k) : named key k (a :: l) = a :: named key k l :=
  List.filter_cons_of_pos (by simpa using h)

theorem others_cons_of_eq (h : key a = k) : others key k (a :: l) = others key k l :=
  List.filter_cons_of_neg (by simpa using h)

theorem named_eq_nil_iff : named key k l = [] ↔ k ∉ l.map key := by
  rw [named, List.filter_eq_nil_iff]
  simp

theorem others_eq_self_iff : others key k l = l ↔ k ∉ l.map key := by
  rw [others, List.filter_eq_self]
  simp

theorem notMem_map_others : k ∉ (others key k l).map key := by
  simp [others]

theorem named_others : named key k (others key k l) = [] := named_eq_nil_iff.mpr notMem_map_others

theorem others_others : others key k (others key k l) = others key k l :=
  others_eq_self_iff.mpr notMem_map_others

/-- **What an edit of the first record does.** -/
theorem editFirst_eq_ok : editFirst key k edit missing l = .ok l' ↔
    ∃ front a b back, l = front ++ a :: back ∧ k ∉ front.map key ∧ key a = k ∧ edit a = .ok b ∧
      l' = front ++ b :: back := by
  induction l generalizing l' with
  | nil =>
    rw [editFirst]
    refine ⟨fun h => (by cases h), ?_⟩
    rintro ⟨front, a, b, back, h, -⟩
    exact absurd h (by simp)
  | cons c l ih =>
    rw [editFirst]
    by_cases hc : key c = k
    · -- the first place of the key is here
      rw [if_pos hc]
      constructor
      · intro h
        cases hedit : edit c with
        | error e => rw [hedit] at h; cases h
        | ok b =>
          rw [hedit] at h
          cases h
          exact ⟨[], c, b, l, rfl, by simp, hc, hedit, rfl⟩
      · rintro ⟨front, a, b, back, h, hfront, ha, hedit, rfl⟩
        cases front with
        | nil =>
          obtain ⟨rfl, rfl⟩ := List.cons.inj h
          rw [hedit]
          rfl
        | cons d front =>
          obtain ⟨rfl, -⟩ := List.cons.inj h
          rw [List.map_cons, List.mem_cons, not_or] at hfront
          exact absurd hc.symm hfront.1
    · -- it is in the rest
      rw [if_neg hc]
      constructor
      · intro h
        cases hrest : editFirst key k edit missing l with
        | error e => rw [hrest] at h; cases h
        | ok rest =>
          rw [hrest] at h
          cases h
          obtain ⟨front, a, b, back, rfl, hfront, ha, hedit, rfl⟩ := ih.mp hrest
          refine ⟨c :: front, a, b, back, rfl, ?_, ha, hedit, rfl⟩
          rw [List.map_cons, List.mem_cons, not_or]
          exact ⟨fun heq => hc heq.symm, hfront⟩
      · rintro ⟨front, a, b, back, h, hfront, ha, hedit, rfl⟩
        cases front with
        | nil =>
          obtain ⟨rfl, -⟩ := List.cons.inj h
          exact absurd ha hc
        | cons d front =>
          obtain ⟨rfl, rfl⟩ := List.cons.inj h
          rw [List.map_cons, List.mem_cons, not_or] at hfront
          rw [ih.mpr ⟨front, a, b, back, rfl, hfront.2, ha, hedit, rfl⟩]
          rfl

/-- **In a map each key that is there names one record.** -/
theorem named_eq_singleton (hl : (l.map key).Nodup) (ha : a ∈ l) : named key (key a) l = [a] := by
  obtain ⟨front, back, rfl⟩ := List.append_of_mem ha
  rw [List.map_append, List.map_cons, List.nodup_append] at hl
  obtain ⟨-, hback, hfront⟩ := hl
  have hfront' : key a ∉ front.map key := fun hmem =>
    hfront _ hmem _ List.mem_cons_self rfl
  rw [named_append, named_eq_nil_iff.mpr hfront', named_cons_of_eq rfl,
    named_eq_nil_iff.mpr (List.nodup_cons.mp hback).1, List.nil_append]

/-- What is there after an edit was there before, or was edited. -/
theorem mem_editFirst (h : editFirst key k edit missing l = .ok l') (hb : b ∈ l') :
    b ∈ l ∨ ∃ a ∈ l, key a = k ∧ edit a = .ok b := by
  obtain ⟨front, a, c, back, rfl, -, ha, hac, rfl⟩ := editFirst_eq_ok.mp h
  rw [List.mem_append, List.mem_cons] at hb
  obtain hb | rfl | hb := hb
  · exact Or.inl (List.mem_append_left _ hb)
  · exact Or.inr ⟨a, List.mem_append_right _ List.mem_cons_self, ha, hac⟩
  · exact Or.inl (List.mem_append_right _ (List.mem_cons_of_mem _ hb))

section KeepsKey

variable (hedit : ∀ a b, key a = k → edit a = .ok b → key b = k)

include hedit

/-- An edit that keeps the key keeps all keys in their places. -/
theorem map_editFirst (h : editFirst key k edit missing l = .ok l') :
    l'.map key = l.map key := by
  obtain ⟨front, a, b, back, rfl, -, ha, hab, rfl⟩ := editFirst_eq_ok.mp h
  simp [hedit a b ha hab, ha]

/-- **An edit that keeps the key leaves the other records as they are.** -/
theorem others_editFirst (h : editFirst key k edit missing l = .ok l') :
    others key k l' = others key k l := by
  obtain ⟨front, a, b, back, rfl, -, ha, hab, rfl⟩ := editFirst_eq_ok.mp h
  rw [others_append, others_append, others_cons_of_eq ha, others_cons_of_eq (hedit a b ha hab)]

/-- In a map the one record with the key is edited. -/
theorem named_editFirst (hl : (l.map key).Nodup) (h : editFirst key k edit missing l = .ok l') :
    ∃ a b, named key k l = [a] ∧ edit a = .ok b ∧ named key k l' = [b] := by
  have hl' : (l'.map key).Nodup := by rwa [map_editFirst hedit h]
  obtain ⟨front, a, b, back, rfl, -, ha, hab, rfl⟩ := editFirst_eq_ok.mp h
  have hb : key b = k := hedit a b ha hab
  refine ⟨a, b, ?_, hab, ?_⟩
  · rw [← ha]
    exact named_eq_singleton hl (List.mem_append_right _ List.mem_cons_self)
  · rw [← hb]
    exact named_eq_singleton hl' (List.mem_append_right _ List.mem_cons_self)

end KeepsKey

end Pantoken.Keyed
