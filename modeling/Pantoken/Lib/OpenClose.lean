import Pantoken.Lib.Register

/-!
# Entries that are opened and closed

A stream opens entries under keys and closes keys with a value.  A key may be opened more
than once, and a close writes its value into every entry of the key that is there.

## Main definitions

* `Mark` — an open or a close.
* `entries v₀ marks` — the entries after a stream; `v₀` is the value of an open one.
* `closing k` — what a mark writes to the entries of a key.

## Main results

* `getElem?_entries`, `mem_entries_iff` — **an entry holds the last value its key was closed
  with after it was opened.**
-/

namespace Pantoken.OpenClose

variable {κ ν : Type*}

inductive Mark (κ ν : Type*) where
  | opens (k : κ)
  | closes (k : κ) (v : ν)

/-- The keys opened, in order. -/
def opened (marks : List (Mark κ ν)) : List κ :=
  marks.filterMap fun m =>
    match m with
    | .opens k => some k
    | .closes _ _ => none

@[simp] theorem opened_nil : opened ([] : List (Mark κ ν)) = [] := rfl

@[simp] theorem opened_append (ms ms' : List (Mark κ ν)) :
    opened (ms ++ ms') = opened ms ++ opened ms' := List.filterMap_append ..

/-- A key is among those opened when the stream can be cut at an open of it. -/
theorem mem_opened_iff {k : κ} {marks : List (Mark κ ν)} :
    k ∈ opened marks ↔ ∃ pre post, marks = pre ++ .opens k :: post := by
  unfold opened
  rw [List.mem_filterMap]
  constructor
  · rintro ⟨m, hm, hk⟩
    obtain ⟨pre, post, rfl⟩ := List.append_of_mem hm
    cases m with
    | opens k' =>
      cases hk
      exact ⟨pre, post, rfl⟩
    | closes => cases hk
  · rintro ⟨pre, post, rfl⟩
    exact ⟨.opens k, List.mem_append_right _ List.mem_cons_self, rfl⟩

/-- Closes at the end of a stream come after all its opens. -/
theorem cut_of_append {k : κ} {ms cs pre post : List (Mark κ ν)} (hcs : opened cs = [])
    (h : ms ++ cs = pre ++ .opens k :: post) :
    ∃ post', ms = pre ++ .opens k :: post' ∧ post = post' ++ cs := by
  have hnone : ∀ x, cs ≠ x ++ .opens k :: post := by
    intro x hx
    have hmem : k ∈ opened cs := mem_opened_iff.mpr ⟨x, post, hx⟩
    rw [hcs] at hmem
    cases hmem
  rcases List.append_eq_append_iff.mp h with ⟨x, -, hx⟩ | ⟨x, hms, hx⟩
  · exact absurd hx (hnone x)
  · cases x with
    | nil => exact absurd hx.symm (hnone [])
    | cons m x =>
      rw [List.cons_append, List.cons.injEq] at hx
      exact ⟨x, by rw [hms, hx.1], hx.2⟩

variable [DecidableEq κ]

/-- What a mark writes to the entries of a key. -/
def closing (k : κ) : Mark κ ν → Option ν
  | .opens _ => none
  | .closes k' v => if k' = k then some v else none

/-- The values a key is closed with. -/
def closings (k : κ) (marks : List (Mark κ ν)) : List ν := marks.filterMap (closing k)

@[simp] theorem closings_nil (k : κ) : closings k ([] : List (Mark κ ν)) = [] := rfl

@[simp] theorem closings_append (k : κ) (ms ms' : List (Mark κ ν)) :
    closings k (ms ++ ms') = closings k ms ++ closings k ms' := List.filterMap_append ..

@[simp] theorem closings_opens (k k' : κ) (ms : List (Mark κ ν)) :
    closings k (.opens k' :: ms) = closings k ms := rfl

theorem closings_closes (k k' : κ) (v : ν) (ms : List (Mark κ ν)) :
    closings k (.closes k' v :: ms) = (if k' = k then [v] else []) ++ closings k ms := by
  unfold closings closing
  split <;> simp_all

section Entries

variable (v₀ : ν)

/-- One mark on the entries. -/
def step (es : List (κ × ν)) : Mark κ ν → List (κ × ν)
  | .opens k => es ++ [(k, v₀)]
  | .closes k v => es.map fun e => if e.1 = k then (k, v) else e

def entries (marks : List (Mark κ ν)) : List (κ × ν) := marks.foldl (step v₀) []

/-- The entries that were there are written to, and the others come after them. -/
theorem foldl_step (marks : List (Mark κ ν)) : ∀ es : List (κ × ν),
    marks.foldl (step v₀) es =
      es.map (fun e => (e.1, (Register.lastWrite (closing e.1) marks).getD e.2)) ++
        entries v₀ marks := by
  induction marks using List.reverseRecOn with
  | nil =>
    intro es
    simp [entries]
  | append_singleton ms m ih =>
    intro es
    rw [entries, List.foldl_append, List.foldl_append, ih es, ← entries]
    cases m with
    | opens k => simp [step, Register.lastWrite_concat, closing]
    | closes k v =>
      simp only [List.foldl_cons, List.foldl_nil, step, List.map_append, List.map_map,
        List.append_cancel_right_eq]
      apply List.map_congr_left
      intro e _
      by_cases hk : e.1 = k
      · simp [Register.lastWrite_concat, closing, hk]
      · have hne : ¬ k = e.1 := fun h => hk h.symm
        simp [Register.lastWrite_concat, closing, hk, hne]

theorem entries_append (ms ms' : List (Mark κ ν)) :
    entries v₀ (ms ++ ms') =
      (entries v₀ ms).map (fun e => (e.1, (Register.lastWrite (closing e.1) ms').getD e.2)) ++
        entries v₀ ms' := by
  rw [entries, List.foldl_append, foldl_step]
  rfl

/-- An entry holds the last value it was closed with, or is open. -/
theorem entries_opens (k : κ) (ms : List (Mark κ ν)) :
    entries v₀ (.opens k :: ms) = (k, (closings k ms).getLast?.getD v₀) :: entries v₀ ms := by
  rw [← List.singleton_append, entries_append]
  rfl

/-- A close with nothing opened before it writes nothing. -/
theorem entries_closes (k : κ) (v : ν) (ms : List (Mark κ ν)) :
    entries v₀ (.closes k v :: ms) = entries v₀ ms := by
  rw [← List.singleton_append, entries_append]
  rfl

theorem map_fst_entries : ∀ ms : List (Mark κ ν), (entries v₀ ms).map (·.1) = opened ms
  | [] => rfl
  | .opens k :: ms => by
    rw [entries_opens, List.map_cons, map_fst_entries ms]
    rfl
  | .closes k v :: ms => by
    rw [entries_closes, map_fst_entries ms]
    rfl

/-- **The entry of an open holds the last value its key is closed with after it.** -/
theorem getElem?_entries (k : κ) (pre post : List (Mark κ ν)) :
    (entries v₀ (pre ++ .opens k :: post))[(opened pre).length]? =
      some (k, (closings k post).getLast?.getD v₀) := by
  rw [entries_append, entries_opens]
  have hlength := congrArg List.length (map_fst_entries v₀ pre)
  rw [List.length_map] at hlength
  rw [List.getElem?_append_right (by simp [hlength]), List.length_map, hlength,
    Nat.sub_self, List.getElem?_cons_zero]

theorem mem_entries_iff {e : κ × ν} : ∀ {ms : List (Mark κ ν)},
    e ∈ entries v₀ ms ↔ ∃ pre post, ms = pre ++ .opens e.1 :: post ∧
      e.2 = (closings e.1 post).getLast?.getD v₀ := by
  intro ms
  constructor
  · intro he
    induction ms with
    | nil => cases he
    | cons m ms ih =>
      cases m with
      | opens k =>
        rw [entries_opens] at he
        rcases List.mem_cons.mp he with rfl | he
        · exact ⟨[], ms, rfl, rfl⟩
        · obtain ⟨pre, post, rfl, hv⟩ := ih he
          exact ⟨.opens k :: pre, post, rfl, hv⟩
      | closes k v =>
        rw [entries_closes] at he
        obtain ⟨pre, post, rfl, hv⟩ := ih he
        exact ⟨.closes k v :: pre, post, rfl, hv⟩
  · rintro ⟨pre, post, rfl, hv⟩
    have hget := getElem?_entries v₀ e.1 pre post
    rw [← hv] at hget
    exact List.mem_of_getElem? hget

end Entries

end Pantoken.OpenClose
