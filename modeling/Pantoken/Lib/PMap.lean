import Mathlib.Logic.Function.Basic
import Mathlib.Data.List.Nodup

/-!
# Partial maps

A keyed store is read through lookups, changed one key at a time, and sometimes
walked entry by entry in an order nothing promises.  `PMap κ α` is the lookup
function itself, so that two stores with the same entries are equal; a walk is
described by `Enumerates`, which holds of every list that names each entry once.

## Main definitions

* `PMap`, `PMap.insert`, `PMap.erase` — the store and its updates.
* `PMap.Enumerates`, `PMap.Finite` — a list that walks a store, and a store that has one.

## Main results

* `PMap.foldl_insert_eq` — inserting the entries of a walk rebuilds the store.
-/

namespace Pantoken

/-- A store from keys `κ` to values `α`. -/
abbrev PMap (κ α : Type*) := κ → Option α

namespace PMap

variable {κ α β : Type*}

/-- The store with no entry. -/
def empty : PMap κ α := fun _ => none

@[simp] theorem empty_apply (k : κ) : (empty : PMap κ α) k = none := rfl

section Update

variable [DecidableEq κ]

/-- Set the value at `k`. -/
def insert (m : PMap κ α) (k : κ) (v : α) : PMap κ α := fun k' => if k' = k then some v else m k'

/-- Remove the entry at `k`. -/
def erase (m : PMap κ α) (k : κ) : PMap κ α := fun k' => if k' = k then none else m k'

@[simp] theorem insert_self (m : PMap κ α) (k : κ) (v : α) : m.insert k v k = some v := if_pos rfl

@[simp] theorem insert_of_ne (m : PMap κ α) {k k' : κ} (v : α) (h : k' ≠ k) :
    m.insert k v k' = m k' := if_neg h

@[simp] theorem erase_self (m : PMap κ α) (k : κ) : m.erase k k = none := if_pos rfl

@[simp] theorem erase_of_ne (m : PMap κ α) {k k' : κ} (h : k' ≠ k) : m.erase k k' = m k' :=
  if_neg h

theorem insert_apply (m : PMap κ α) (k k' : κ) (v : α) :
    m.insert k v k' = if k' = k then some v else m k' := rfl

theorem erase_apply (m : PMap κ α) (k k' : κ) :
    m.erase k k' = if k' = k then none else m k' := rfl

/-- A store built by inserts holds the last value written at a key. -/
theorem foldl_insert_apply (l : List (κ × α)) (m : PMap κ α) (k : κ)
    (hk : k ∉ l.map Prod.fst) : l.foldl (fun m e => m.insert e.1 e.2) m k = m k := by
  induction l generalizing m with
  | nil => rfl
  | cons e l ih =>
    rw [List.map_cons, List.mem_cons, not_or] at hk
    rw [List.foldl_cons, ih _ hk.2, insert_of_ne _ _ hk.1]

end Update

/-- `l` walks `m`: it names every entry of `m` exactly once, in some order. -/
structure Enumerates (m : PMap κ α) (l : List (κ × α)) : Prop where
  /-- No key is named twice. -/
  nodup : (l.map Prod.fst).Nodup
  /-- Exactly the entries of `m` are named. -/
  mem_iff : ∀ k v, (k, v) ∈ l ↔ m k = some v

theorem enumerates_empty : Enumerates (empty : PMap κ α) [] := ⟨List.nodup_nil, by simp⟩

theorem Enumerates.notMem_keys {m : PMap κ α} {l : List (κ × α)} (h : Enumerates m l) {k : κ}
    (hk : m k = none) : k ∉ l.map Prod.fst := by
  intro hmem
  obtain ⟨⟨k', v⟩, he, rfl⟩ := List.mem_map.mp hmem
  rw [(h.mem_iff _ _).mp he] at hk
  cases hk

/-- A store some list walks. -/
def Finite (m : PMap κ α) : Prop := ∃ l, Enumerates m l

theorem finite_empty : Finite (empty : PMap κ α) := ⟨[], enumerates_empty⟩

section Finite

variable [DecidableEq κ] {m : PMap κ α}

/-- Walking a store without its entry at `k`. -/
theorem Enumerates.erase {l : List (κ × α)} (h : Enumerates m l) (k : κ) :
    Enumerates (m.erase k) (l.filter (·.1 ≠ k)) where
  nodup := h.nodup.sublist (List.filter_sublist.map _)
  mem_iff := by
    intro k' v
    rw [List.mem_filter, h.mem_iff, erase_apply]
    by_cases hk : k' = k <;> simp [hk]

theorem Enumerates.insert {l : List (κ × α)} (h : Enumerates m l) (k : κ) (v : α) :
    Enumerates (m.insert k v) ((k, v) :: l.filter (·.1 ≠ k)) where
  nodup := by
    rw [List.map_cons, List.nodup_cons]
    exact ⟨by simp, (h.erase k).nodup⟩
  mem_iff := by
    intro k' v'
    rw [List.mem_cons, (h.erase k).mem_iff, erase_apply, insert_apply]
    by_cases hk : k' = k
    · subst hk
      simp [eq_comm]
    · simp [hk]

theorem Finite.erase (h : Finite m) (k : κ) : Finite (m.erase k) :=
  h.elim fun _ hl => ⟨_, hl.erase k⟩

theorem Finite.insert (h : Finite m) (k : κ) (v : α) : Finite (m.insert k v) :=
  h.elim fun _ hl => ⟨_, hl.insert k v⟩

end Finite

/-- **Inserting the entries of a walk rebuilds the store**, whatever the order of
the walk. -/
theorem foldl_insert_eq [DecidableEq κ] {m : PMap κ α} {l : List (κ × α)} (h : Enumerates m l) :
    l.foldl (fun m e => m.insert e.1 e.2) empty = m := by
  have key : ∀ (l : List (κ × α)) (m₀ : PMap κ α) (k : κ) (v : α), (l.map Prod.fst).Nodup →
      (k, v) ∈ l → l.foldl (fun m e => m.insert e.1 e.2) m₀ k = some v := by
    intro l
    induction l with
    | nil => intro _ _ _ _ hm; cases hm
    | cons e l ih =>
      intro m₀ k v hnd hm
      rw [List.map_cons, List.nodup_cons] at hnd
      rw [List.foldl_cons]
      rcases List.mem_cons.mp hm with rfl | hm
      · rw [foldl_insert_apply _ _ _ hnd.1, insert_self]
      · exact ih _ k v hnd.2 hm
  funext k
  cases hk : m k with
  | none => rw [foldl_insert_apply _ _ _ (h.notMem_keys hk), empty_apply]
  | some v => exact key l empty k v h.nodup ((h.mem_iff k v).mpr hk)

end PMap

end Pantoken
