import Mathlib.Data.List.Nodup
import Mathlib.Data.List.Perm.Basic
import Mathlib.Order.Nat

/-!
# The cap of a session group

A group of the sidebar shows its first sessions up to a limit.  A pinned session beyond the
limit, the one that is viewed or running, trades places with the last unpinned one within it;
of several only the first does.

## Main definitions

* `splitGroup` — the visible and the hidden rows of a group.
* `Trades` — some row beyond the limit is pinned, and some row within it is not.

## Main results

* `splitGroup_cases` — what a split is: a cut, or a cut with two rows traded.
* `splitGroup_spec` — **the rows are kept, with their count; which pinned rows stay hidden and
  which unpinned rows change their order.**
-/

namespace Pantoken.Client.SessionFilter

/-- The last index of an element, as a loop from the end finds it. -/
def findLastIdx? {α : Type*} (p : α → Bool) (l : List α) : Option ℕ :=
  (l.reverse.findIdx? p).map (l.length - 1 - ·)

structure GroupSplit (α : Type*) where
  visible : List α
  hidden : List α
  deriving DecidableEq

section Split

variable {α : Type*} (sessionId : α → String)

/-- `pinnedIds?.has(s.sessionId)` -/
def isPinned (pinnedIds : Option (List String)) (s : α) : Bool :=
  match pinnedIds with
  | some ids => ids.contains (sessionId s)
  | none => false

/-- The rows at two indices, one of each list, trade places. -/
def trade (visible hidden : List α) (i j : ℕ) : GroupSplit α :=
  match visible[i]?, hidden[j]? with
  | some v, some h => ⟨visible.set i h, hidden.set j v⟩
  | _, _ => ⟨visible, hidden⟩

/-- `splitGroup` -/
def splitGroup (items : List α) (limit : Int) (pinnedIds : Option (List String)) : GroupSplit α :=
  if limit ≤ 0 ∨ items.length ≤ limit then ⟨items, []⟩
  else
    let visible := items.take limit.toNat
    let hidden := items.drop limit.toNat
    match hidden.findIdx? (isPinned sessionId pinnedIds) with
    | none => ⟨visible, hidden⟩
    | some pinnedInHiddenIdx =>
      match findLastIdx? (fun s => !isPinned sessionId pinnedIds s) visible with
      | none => ⟨visible, hidden⟩
      | some swapIdx => trade visible hidden swapIdx pinnedInHiddenIdx

end Split

/-! ### Finding and trading -/

section Trade

variable {α : Type*} {p : α → Bool} {l : List α} {i : ℕ}

/-- The element at the first index, with what is before and after it. -/
theorem exists_of_findIdx? (h : l.findIdx? p = some i) :
    ∃ front x back, l = front ++ x :: back ∧ front.length = i ∧ p x = true ∧
      ∀ y ∈ front, p y = false := by
  obtain ⟨hi, hp, hfront⟩ := List.findIdx?_eq_some_iff_getElem.mp h
  refine ⟨l.take i, l[i], l.drop (i + 1), ?_, List.length_take_of_le (Nat.le_of_lt hi), hp, ?_⟩
  · rw [← List.drop_eq_getElem_cons hi, List.take_append_drop]
  · intro y hy
    obtain ⟨j, hj, rfl⟩ := List.mem_take_iff_getElem.mp hy
    exact Bool.not_eq_true _ ▸ hfront j (Nat.lt_of_lt_of_le hj (Nat.min_le_left _ _))

theorem exists_of_findLastIdx? (h : findLastIdx? p l = some i) :
    ∃ front x back, l = front ++ x :: back ∧ front.length = i ∧ p x = true ∧
      ∀ y ∈ back, p y = false := by
  obtain ⟨j, hj, rfl⟩ := Option.map_eq_some_iff.mp h
  obtain ⟨back, x, front, hsplit, rfl, hx, hback⟩ := exists_of_findIdx? hj
  have hl : l = front.reverse ++ x :: back.reverse := by
    rw [← List.reverse_reverse l, hsplit]
    simp
  refine ⟨front.reverse, x, back.reverse, hl, ?_, hx, fun y hy => hback y (List.mem_reverse.mp hy)⟩
  rw [hl]
  simp only [List.length_append, List.length_reverse, List.length_cons]
  omega

theorem findLastIdx?_eq_none : findLastIdx? p l = none ↔ ∀ x ∈ l, p x = false := by
  rw [findLastIdx?, Option.map_eq_none_iff, List.findIdx?_eq_none_iff]
  simp only [List.mem_reverse]

theorem trade_append (front back front' back' : List α) (x y : α) :
    trade (front ++ x :: back) (front' ++ y :: back') front.length front'.length =
      ⟨front ++ y :: back, front' ++ x :: back'⟩ := by
  unfold trade
  simp

end Trade

/-! ### What a split is -/

section Spec

variable {α : Type*} {sessionId : α → String} {items : List α} {limit : Int}
  {pinnedIds : Option (List String)}

/-- Some row beyond the limit is pinned, and some row within it is not. -/
def Trades (sessionId : α → String) (items : List α) (limit : Int)
    (pinnedIds : Option (List String)) : Prop :=
  (∃ s ∈ items.drop limit.toNat, isPinned sessionId pinnedIds s = true) ∧
    ∃ s ∈ items.take limit.toNat, isPinned sessionId pinnedIds s = false

/-- **A split is a cut, or a cut with two rows traded**: the last unpinned one within the limit,
and the first pinned one beyond it. -/
theorem splitGroup_cases (sessionId : α → String) (items : List α)
    (pinnedIds : Option (List String)) (hlimit : 0 < limit) :
    (¬ Trades sessionId items limit pinnedIds ∧
      splitGroup sessionId items limit pinnedIds =
        ⟨items.take limit.toNat, items.drop limit.toNat⟩) ∨
    ∃ front x back front' y back',
      items.take limit.toNat = front ++ x :: back ∧
      items.drop limit.toNat = front' ++ y :: back' ∧
      isPinned sessionId pinnedIds x = false ∧ (∀ s ∈ back, isPinned sessionId pinnedIds s = true) ∧
      isPinned sessionId pinnedIds y = true ∧
      (∀ s ∈ front', isPinned sessionId pinnedIds s = false) ∧
      splitGroup sessionId items limit pinnedIds =
        ⟨front ++ y :: back, front' ++ x :: back'⟩ := by
  unfold splitGroup
  by_cases hshort : items.length ≤ limit
  · -- nothing is beyond the limit
    have hnat : items.length ≤ limit.toNat := by omega
    refine .inl ⟨?_, ?_⟩
    · rintro ⟨⟨s, hs, -⟩, -⟩
      rw [List.drop_eq_nil_of_le hnat] at hs
      cases hs
    · rw [if_pos (.inr hshort), List.take_of_length_le hnat, List.drop_eq_nil_of_le hnat]
  · rw [if_neg (by omega)]
    dsimp only
    cases hfirst : (items.drop limit.toNat).findIdx? (isPinned sessionId pinnedIds) with
    | none =>
      refine .inl ⟨?_, rfl⟩
      rintro ⟨⟨s, hs, hpinned⟩, -⟩
      rw [List.findIdx?_eq_none_iff.mp hfirst s hs] at hpinned
      cases hpinned
    | some j =>
      obtain ⟨front', y, back', hhidden, rfl, hy, hfront'⟩ := exists_of_findIdx? hfirst
      dsimp only
      cases hlast : findLastIdx? (fun s => !isPinned sessionId pinnedIds s)
          (items.take limit.toNat) with
      | none =>
        refine .inl ⟨?_, rfl⟩
        rintro ⟨-, s, hs, hpinned⟩
        have hnone := findLastIdx?_eq_none.mp hlast s hs
        rw [hpinned] at hnone
        cases hnone
      | some i =>
        obtain ⟨front, x, back, hvisible, rfl, hx, hback⟩ := exists_of_findLastIdx? hlast
        refine .inr ⟨front, x, back, front', y, back', hvisible, hhidden, ?_, ?_, hy, hfront', ?_⟩
        · simpa using hx
        · exact fun s hs => by simpa using hback s hs
        · dsimp only
          rw [hvisible, hhidden, trade_append]

/-- The rows that are not pinned, in their order. -/
def unpinned (sessionId : α → String) (pinnedIds : Option (List String)) (rows : List α) :
    List α :=
  rows.filter fun s => !isPinned sessionId pinnedIds s

/-- No pinned row is hidden while an unpinned one is visible. -/
def PinnedFirst (sessionId : α → String) (pinnedIds : Option (List String))
    (split : GroupSplit α) : Prop :=
  ∀ s ∈ split.hidden, isPinned sessionId pinnedIds s = true →
    ∀ t ∈ split.visible, isPinned sessionId pinnedIds t = true

/-- The rows of a cut, with the two that trade. -/
theorem eq_of_cut {front back front' back' : List α} {x y : α}
    (hvisible : items.take limit.toNat = front ++ x :: back)
    (hhidden : items.drop limit.toNat = front' ++ y :: back') :
    items = front ++ x :: back ++ (front' ++ y :: back') := by
  rw [← hvisible, ← hhidden, List.take_append_drop]

theorem unpinned_append (rows rows' : List α) : unpinned sessionId pinnedIds (rows ++ rows') =
    unpinned sessionId pinnedIds rows ++ unpinned sessionId pinnedIds rows' :=
  List.filter_append ..

theorem unpinned_eq_nil {rows : List α} : unpinned sessionId pinnedIds rows = [] ↔
    ∀ s ∈ rows, isPinned sessionId pinnedIds s = true := by
  rw [unpinned, List.filter_eq_nil_iff]
  simp

theorem unpinned_eq_self {rows : List α} : unpinned sessionId pinnedIds rows = rows ↔
    ∀ s ∈ rows, isPinned sessionId pinnedIds s = false := by
  rw [unpinned, List.filter_eq_self]
  simp

theorem unpinned_cons_of_pinned {s : α} (h : isPinned sessionId pinnedIds s = true)
    (rows : List α) : unpinned sessionId pinnedIds (s :: rows) =
      unpinned sessionId pinnedIds rows := by
  simp [unpinned, h]

theorem unpinned_cons_of_unpinned {s : α} (h : isPinned sessionId pinnedIds s = false)
    (rows : List α) : unpinned sessionId pinnedIds (s :: rows) =
      s :: unpinned sessionId pinnedIds rows := by
  simp [unpinned, h]

theorem splitGroup_perm (hlimit : 0 < limit) :
    ((splitGroup sessionId items limit pinnedIds).visible ++
      (splitGroup sessionId items limit pinnedIds).hidden).Perm items := by
  rcases splitGroup_cases sessionId items pinnedIds hlimit with
    ⟨-, hsplit⟩ | ⟨front, x, back, front', y, back', hvisible, hhidden, -, -, -, -, hsplit⟩
  · rw [hsplit, List.take_append_drop]
  · rw [hsplit, eq_of_cut hvisible hhidden]
    classical
    rw [List.perm_iff_count]
    intro a
    simp only [List.count_append, List.count_cons]
    omega

theorem splitGroup_length (hlimit : 0 < limit) :
    (splitGroup sessionId items limit pinnedIds).visible.length =
      min limit.toNat items.length := by
  rcases splitGroup_cases sessionId items pinnedIds hlimit with
    ⟨-, hsplit⟩ | ⟨front, x, back, front', y, back', hvisible, hhidden, -, -, -, -, hsplit⟩
  · rw [hsplit, List.length_take]
  · have hlength := congrArg List.length hvisible
    rw [List.length_take, List.length_append, List.length_cons] at hlength
    rw [hsplit, hlength, List.length_append, List.length_cons]

/-- The unpinned rows before and after a trade: the traded one is behind the rows before `y`. -/
theorem unpinned_traded (front back' : List α) {back front' : List α} {x y : α}
    (hx : isPinned sessionId pinnedIds x = false)
    (hback : ∀ s ∈ back, isPinned sessionId pinnedIds s = true)
    (hy : isPinned sessionId pinnedIds y = true)
    (hfront' : ∀ s ∈ front', isPinned sessionId pinnedIds s = false) :
    unpinned sessionId pinnedIds (front ++ x :: back ++ (front' ++ y :: back')) =
        unpinned sessionId pinnedIds front ++
          x :: (front' ++ unpinned sessionId pinnedIds back') ∧
      unpinned sessionId pinnedIds (front ++ y :: back ++ (front' ++ x :: back')) =
        unpinned sessionId pinnedIds front ++
          (front' ++ x :: unpinned sessionId pinnedIds back') := by
  simp only [unpinned_append, unpinned_cons_of_unpinned hx, unpinned_cons_of_pinned hy,
    unpinned_eq_nil.mpr hback, unpinned_eq_self.mpr hfront', List.append_assoc, List.cons_append,
    List.nil_append, and_self]

theorem append_cons_eq_cons_append {l r : List α} {x : α} (hx : x ∉ l) :
    l ++ x :: r = x :: (l ++ r) ↔ l = [] := by
  cases l with
  | nil => simp
  | cons z l =>
    simp only [List.cons_append, List.cons.injEq, reduceCtorEq, iff_false]
    rintro ⟨rfl, -⟩
    exact hx List.mem_cons_self

/-- **The unpinned rows keep their order** where no rows trade, or the first row beyond the limit
is the one that trades. -/
theorem unpinned_splitGroup_iff (hids : (items.map sessionId).Nodup) (hlimit : 0 < limit) :
    unpinned sessionId pinnedIds ((splitGroup sessionId items limit pinnedIds).visible ++
        (splitGroup sessionId items limit pinnedIds).hidden) =
      unpinned sessionId pinnedIds items ↔
    (Trades sessionId items limit pinnedIds →
      ∀ s, (items.drop limit.toNat).head? = some s → isPinned sessionId pinnedIds s = true) := by
  rcases splitGroup_cases sessionId items pinnedIds hlimit with
    ⟨htrades, hsplit⟩ | ⟨front, x, back, front', y, back', hvisible, hhidden, hx, hback, hy,
      hfront', hsplit⟩
  · rw [hsplit, List.take_append_drop]
    exact iff_of_true rfl fun h => absurd h htrades
  · have hitems := eq_of_cut hvisible hhidden
    have hnodup := hids.of_map
    rw [hitems, List.nodup_append] at hnodup
    have hnotMem : x ∉ front' := fun hmem =>
      hnodup.2.2 x (by simp) x (List.mem_append_left _ hmem) rfl
    have htrades : Trades sessionId items limit pinnedIds :=
      ⟨⟨y, by rw [hhidden]; simp, hy⟩, x, by rw [hvisible]; simp, hx⟩
    obtain ⟨hbefore, hafter⟩ := unpinned_traded front back' hx hback hy hfront'
    rw [forall_prop_of_true htrades, hsplit]
    dsimp only
    -- both orders have the same rows around the traded one and those it is moved behind
    rw [hafter, hhidden, hitems, hbefore, List.append_right_inj,
      append_cons_eq_cons_append hnotMem]
    cases front' with
    | nil => simp [hy]
    | cons z rest => simp [hfront' z List.mem_cons_self]

/-- Whoever is moved aside, the other unpinned rows keep their order. -/
theorem exists_moved (sessionId : α → String) (items : List α) (pinnedIds : Option (List String))
    (hlimit : 0 < limit) : ∃ moved,
      (unpinned sessionId pinnedIds ((splitGroup sessionId items limit pinnedIds).visible ++
        (splitGroup sessionId items limit pinnedIds).hidden)).filter (sessionId · ≠ moved) =
      (unpinned sessionId pinnedIds items).filter (sessionId · ≠ moved) := by
  rcases splitGroup_cases sessionId items pinnedIds hlimit with
    ⟨-, hsplit⟩ | ⟨front, x, back, front', y, back', hvisible, hhidden, hx, hback, hy, hfront',
      hsplit⟩
  · -- nobody is moved
    refine ⟨"", ?_⟩
    rw [hsplit, List.take_append_drop]
  · have hitems := eq_of_cut hvisible hhidden
    obtain ⟨hbefore, hafter⟩ := unpinned_traded front back' hx hback hy hfront'
    refine ⟨sessionId x, ?_⟩
    rw [hsplit]
    dsimp only
    rw [hafter, hitems, hbefore]
    simp [List.filter_append]

/-- **Of several pinned rows beyond the limit only the first is shown**: none is hidden while an
unpinned row is visible where there is at most one of them, or one unpinned row to trade. -/
theorem pinnedFirst_iff (hlimit : 0 < limit) :
    PinnedFirst sessionId pinnedIds (splitGroup sessionId items limit pinnedIds) ↔
      ((items.drop limit.toNat).filter (isPinned sessionId pinnedIds)).length ≤ 1 ∨
        (unpinned sessionId pinnedIds (items.take limit.toNat)).length ≤ 1 := by
  rcases splitGroup_cases sessionId items pinnedIds hlimit with
    ⟨htrades, hsplit⟩ | ⟨front, x, back, front', y, back', hvisible, hhidden, hx, hback, hy,
      hfront', hsplit⟩
  · rw [hsplit]
    -- nothing is traded: no row beyond the limit is pinned, or all rows within it are
    rcases not_and_or.mp htrades with hnone | hall
    · have hnone' : ∀ s ∈ items.drop limit.toNat, ¬ isPinned sessionId pinnedIds s = true :=
        fun s hs hpinned => hnone ⟨s, hs, hpinned⟩
      refine iff_of_true (fun s hs hpinned => absurd hpinned (hnone' s hs)) (.inl ?_)
      rw [List.filter_eq_nil_iff.mpr hnone']
      exact Nat.zero_le 1
    · have hall' : ∀ s ∈ items.take limit.toNat, isPinned sessionId pinnedIds s = true := by
        intro s hs
        by_contra h
        exact hall ⟨s, hs, Bool.not_eq_true _ ▸ h⟩
      refine iff_of_true (fun _ _ _ => hall') (.inr ?_)
      rw [unpinned_eq_nil.mpr hall']
      exact Nat.zero_le 1
  · rw [hsplit, hvisible, hhidden]
    have hfilter : (front' ++ y :: back').filter (isPinned sessionId pinnedIds) =
        y :: back'.filter (isPinned sessionId pinnedIds) := by
      rw [List.filter_append, List.filter_cons_of_pos hy,
        List.filter_eq_nil_iff.mpr fun s hs => by rw [hfront' s hs]; exact Bool.false_ne_true]
      rfl
    rw [hfilter, unpinned_append, unpinned_cons_of_unpinned hx, unpinned_eq_nil.mpr hback,
      List.length_cons, List.length_append, List.length_singleton]
    have hone : ∀ l : List α, l.length + 1 ≤ 1 ↔ l = [] := by
      intro l
      rw [← List.length_eq_zero_iff]
      omega
    rw [hone, hone, unpinned_eq_nil, List.filter_eq_nil_iff]
    -- what is left to ask is of the rows behind `y`, and of those in front of `x`
    constructor
    · intro h
      by_cases hmore : ∃ s ∈ back', isPinned sessionId pinnedIds s = true
      · obtain ⟨s, hs, hpinned⟩ := hmore
        exact .inr fun t ht => h s (by simp [hs]) hpinned t (by simp [ht])
      · exact .inl fun s hs hpinned => hmore ⟨s, hs, hpinned⟩
    · rintro (h | h) s hs hpinned t ht
      · rcases List.mem_append.mp hs with hs | hs
        · rw [hfront' s hs] at hpinned
          cases hpinned
        · rcases List.mem_cons.mp hs with rfl | hs
          · rw [hx] at hpinned
            cases hpinned
          · exact absurd hpinned (h s hs)
      · rcases List.mem_append.mp ht with ht | ht
        · exact h t ht
        · rcases List.mem_cons.mp ht with rfl | ht
          · exact hy
          · exact hback t ht

/-- The first pinned row beyond the limit is shown, unless all rows within it are pinned. -/
theorem shown_of_find (hids : (items.map sessionId).Nodup) (hlimit : 0 < limit) {s : α}
    (hfind : (items.drop limit.toNat).find? (isPinned sessionId pinnedIds) = some s)
    (hs : s ∈ (splitGroup sessionId items limit pinnedIds).hidden) :
    ∀ t ∈ (splitGroup sessionId items limit pinnedIds).visible,
      isPinned sessionId pinnedIds t = true := by
  have hmem := List.mem_of_find?_eq_some hfind
  have hpinned := List.find?_some hfind
  rcases splitGroup_cases sessionId items pinnedIds hlimit with
    ⟨htrades, hsplit⟩ | ⟨front, x, back, front', y, back', hvisible, hhidden, hx, -, hy, hfront',
      hsplit⟩
  · rw [hsplit]
    intro t ht
    by_contra h
    exact htrades ⟨⟨s, hmem, hpinned⟩, t, ht, Bool.not_eq_true _ ▸ h⟩
  · -- the row that is found is the one that trades
    have hsy : s = y := by
      rw [hhidden, List.find?_append, List.find?_eq_none.mpr fun t ht => by
        rw [hfront' t ht]; exact Bool.false_ne_true] at hfind
      simpa [hy] using hfind.symm
    subst hsy
    have hnodup := hids.of_map
    rw [eq_of_cut hvisible hhidden] at hnodup
    rw [hsplit] at hs
    exfalso
    rcases List.mem_append.mp hs with hs | hs
    · rw [hfront' s hs] at hy
      cases hy
    · rcases List.mem_cons.mp hs with rfl | hs
      · rw [hx] at hy
        cases hy
      · have hback' := (List.nodup_append.mp hnodup).2.1
        rw [List.nodup_append, List.nodup_cons] at hback'
        exact hback'.2.1.1 hs

/-- **The rows and their count are kept, and one trade decides the rest**: which pinned rows are
hidden while an unpinned one is visible, and whether the unpinned ones change their order. -/
theorem splitGroup_spec (hids : (items.map sessionId).Nodup) (hlimit : 0 < limit) :
    let split := splitGroup sessionId items limit pinnedIds
    (split.visible ++ split.hidden).Perm items ∧
    split.visible.length = min limit.toNat items.length ∧
    (∃ moved, (unpinned sessionId pinnedIds (split.visible ++ split.hidden)).filter
        (sessionId · ≠ moved) =
      (unpinned sessionId pinnedIds items).filter (sessionId · ≠ moved)) ∧
    (unpinned sessionId pinnedIds (split.visible ++ split.hidden) =
        unpinned sessionId pinnedIds items ↔
      (Trades sessionId items limit pinnedIds →
        ∀ s, (items.drop limit.toNat).head? = some s → isPinned sessionId pinnedIds s = true)) ∧
    (∀ s, (items.drop limit.toNat).find? (isPinned sessionId pinnedIds) = some s →
      s ∈ split.hidden → ∀ t ∈ split.visible, isPinned sessionId pinnedIds t = true) ∧
    (PinnedFirst sessionId pinnedIds split ↔
      ((items.drop limit.toNat).filter (isPinned sessionId pinnedIds)).length ≤ 1 ∨
        (unpinned sessionId pinnedIds (items.take limit.toNat)).length ≤ 1) :=
  ⟨splitGroup_perm hlimit, splitGroup_length hlimit,
    exists_moved sessionId items pinnedIds hlimit, unpinned_splitGroup_iff hids hlimit,
    fun _ => shown_of_find hids hlimit, pinnedFirst_iff hlimit⟩

end Spec

/-- A pinned row beyond the limit is shown in the place of the last one within it. -/
theorem splitGroup_spec_pinned :
    (splitGroup id ["s0", "s1", "s2", "s3"] 2 (some ["s2"])).visible.length = 2 :=
  (splitGroup_spec (α := String) (by decide) (by decide)).2.1

/-- Of two pinned rows beyond the limit one stays hidden, under an unpinned one.  A row that is
moved behind another unpinned one has lost its order. -/
theorem not_pinnedFirst :
    ¬ PinnedFirst id (some ["s2", "s3"])
        (splitGroup id ["s0", "s1", "s2", "s3"] 2 (some ["s2", "s3"])) ∧
      (let split := splitGroup id ["s0", "s1", "s2", "s3"] 2 (some ["s3"])
       unpinned id (some ["s3"]) (split.visible ++ split.hidden) = ["s0", "s2", "s1"] ∧
         unpinned id (some ["s3"]) ["s0", "s1", "s2", "s3"] = ["s0", "s1", "s2"]) := by
  refine ⟨fun h => ?_, by decide⟩
  exact absurd (h "s3" (by decide) (by decide) "s0" (by decide)) (by decide)

end Pantoken.Client.SessionFilter
