import Mathlib.Data.List.DropRight
import Mathlib.Data.List.Flatten
import Mathlib.Data.List.Pairwise
import Mathlib.Data.List.Perm.Basic
import Pantoken.Lib.ListEdit
import Pantoken.Protocol.State

/-!
# The turns of a transcript

The client shows a transcript as turns.  A turn starts at a prompt of the user, or at an
injected message marked as a boundary; its body is split into lanes (runs of work that may
be collapsed, and pinned items that stay visible), the response, which is the last run of
assistant items, and what trails the response.

## Main definitions

* `collectTurnInputs` — the turns, each with its body.
* `findPreservedSegments` — the settled responses that a notice trails.
* `buildTurn`, `groupTurns` — the view.

## Main results

* `laneItems_buildLanes` — the lanes hold the work items, in order.
* `conserves_groupTurns` — **the view holds the items of the transcript, each once and in
  order, and in each turn the collapsed work and what stays visible partition its items.**
-/

namespace Pantoken
namespace TranscriptView

/-! ### Kinds of items -/

def isAssistant : TranscriptItem → Bool
  | .assistant _ => true
  | _ => false

def isNotice : TranscriptItem → Bool
  | .notice _ => true
  | _ => false

/-- `VISIBLE_TOOLS` -/
def visibleTools : List String := ["answer"]

/-- `toolHasImages` -/
def toolHasImages (t : ToolItem) : Bool := (t.images.elim 0 List.length) > 0

/-- `isVisibleTool` -/
def isVisibleTool : TranscriptItem → Bool
  | .tool t => visibleTools.contains t.name || toolHasImages t
  | _ => false

/-- `startsTurn` -/
def startsTurn : TranscriptItem → Bool
  | .user _ => true
  | .inject i => i.turnBoundary
  | _ => false

/-- `STRUCTURAL_MARKER_TYPES` -/
def structuralMarkerTypes : List String := ["context-cleared", "compaction"]

/-- `isStructuralMarker` -/
def isStructuralMarker : TranscriptItem → Bool
  | .inject i => structuralMarkerTypes.contains i.customType
  | _ => false

/-- `isInterruptedTool` -/
def isInterruptedTool : TranscriptItem → Bool
  | .tool t => t.status = .interrupted
  | _ => false

/-- `isAnswerTool` -/
def isAnswerTool : TranscriptItem → Bool
  | .tool t => t.name = "answer"
  | _ => false

/-- `isWorkTool` -/
def isWorkTool : TranscriptItem → Bool
  | .tool _ => true
  | _ => false

/-- A settled assistant response. -/
def isSettled : TranscriptItem → Bool
  | .assistant a => a.completedAt.isSome
  | _ => false

/-- The id of an item. -/
def itemId : TranscriptItem → String
  | .user u => u.id
  | .assistant a => a.id
  | .tool t => t.id
  | .notice n => n.id
  | .inject i => i.id

/-- `itemStart` -/
def itemStart : TranscriptItem → Option String
  | .tool t => t.startedAt.or t.finishedAt
  | .user u => u.ts
  | .assistant a => a.ts
  | .inject i => i.ts
  | .notice _ => none

/-- `itemEnd` -/
def itemEnd : TranscriptItem → Option String
  | .assistant a => a.completedAt.or a.ts
  | .tool t => t.finishedAt.or t.startedAt
  | .user u => u.ts
  | .inject i => i.ts
  | .notice _ => none

/-! ### The view -/

/-- `TurnLane` -/
inductive TurnLane where
  | work (id : String) (items : List TranscriptItem) (collapsible : Bool)
    (startTs endTs : Option String)
  | pinned (id : String) (item : TranscriptItem)

namespace TurnLane

def isWork : TurnLane → Bool
  | .work .. => true
  | .pinned .. => false

def items : TurnLane → List TranscriptItem
  | .work _ items _ _ _ => items
  | .pinned _ item => [item]

end TurnLane

/-- The items of some lanes, in order. -/
def laneItems (lanes : List TurnLane) : List TranscriptItem := lanes.flatMap TurnLane.items

/-- `TurnGroup` -/
structure TurnGroup where
  id : String
  user : Option TranscriptItem
  work : List TranscriptItem
  visible : List TranscriptItem
  response : List TranscriptItem
  postResponse : List TranscriptItem
  lanes : List TurnLane
  collapsible : Bool
  startTs : Option String
  endTs : Option String

/-- The items of a turn: its head, its lanes, the response and what follows it. -/
def TurnGroup.items (turn : TurnGroup) : List TranscriptItem :=
  turn.user.toList ++ laneItems turn.lanes ++ turn.response ++ turn.postResponse

/-! ### Preserved segments -/

/-- `findPreservedSegments`, from index `i`; the loop goes on at index `next`. -/
def preservedFrom : List TranscriptItem → ℕ → ℕ → List (ℕ × ℕ)
  | [], _, _ => []
  | it :: rest, i, next =>
    if i < next then preservedFrom rest (i + 1) next
    else if isSettled it ∧ rest.head?.any isNotice then
      let last := i + (rest.takeWhile isNotice).length
      (i, last) :: preservedFrom rest (i + 1) (last + 1)
    else preservedFrom rest (i + 1) next

/-- `findPreservedSegments`: the inclusive index ranges. -/
def findPreservedSegments (workItems : List TranscriptItem) : List (ℕ × ℕ) :=
  preservedFrom workItems 0 0

/-- `preservedAt`, in which a later segment would overwrite an earlier one. -/
def preservedAt (preserved : List (ℕ × ℕ)) (idx : ℕ) : Option (ℕ × ℕ) :=
  preserved.reverse.find? fun seg => seg.1 ≤ idx ∧ idx ≤ seg.2

/-- Index ranges below `n` that are nonempty, disjoint and in order. -/
structure Segments (n : ℕ) (segs : List (ℕ × ℕ)) : Prop where
  bounds : ∀ seg ∈ segs, seg.1 ≤ seg.2 ∧ seg.2 < n
  disjoint : segs.Pairwise fun a b => a.2 < b.1

theorem preservedFrom_bounds (items : List TranscriptItem) (i next : ℕ) :
    ∀ seg ∈ preservedFrom items i next,
      i ≤ seg.1 ∧ next ≤ seg.1 ∧ seg.1 ≤ seg.2 ∧ seg.2 < i + items.length := by
  induction items generalizing i next with
  | nil => simp [preservedFrom]
  | cons it rest ih =>
    intro seg hseg
    have htake : (rest.takeWhile isNotice).length ≤ rest.length :=
      (List.takeWhile_sublist _).length_le
    simp only [preservedFrom] at hseg
    rw [List.length_cons]
    split at hseg
    · have := ih _ _ seg hseg
      omega
    · split at hseg
      · rcases List.mem_cons.mp hseg with rfl | hseg
        · dsimp only
          omega
        · have := ih _ _ seg hseg
          omega
      · have := ih _ _ seg hseg
        omega

theorem pairwise_preservedFrom (items : List TranscriptItem) (i next : ℕ) :
    (preservedFrom items i next).Pairwise fun a b => a.2 < b.1 := by
  induction items generalizing i next with
  | nil => simp [preservedFrom]
  | cons it rest ih =>
    simp only [preservedFrom]
    split
    · exact ih _ _
    · split
      · refine List.pairwise_cons.mpr ⟨fun seg hseg => ?_, ih _ _⟩
        have := preservedFrom_bounds rest _ _ seg hseg
        dsimp only
        omega
      · exact ih _ _

theorem segments_findPreservedSegments (workItems : List TranscriptItem) :
    Segments workItems.length (findPreservedSegments workItems) where
  bounds := fun seg hseg => by
    have := preservedFrom_bounds workItems 0 0 seg hseg
    omega
  disjoint := pairwise_preservedFrom workItems 0 0

/-- Of two segments the first ends before the second begins, or they are one. -/
theorem Segments.apart {n : ℕ} {segs : List (ℕ × ℕ)} (hs : Segments n segs) {a b : ℕ × ℕ}
    (ha : a ∈ segs) (hb : b ∈ segs) : a = b ∨ a.2 < b.1 ∨ b.2 < a.1 := by
  rcases eq_or_ne a b with h | h
  · exact Or.inl h
  · have : Std.Symm fun a b : ℕ × ℕ => a.2 < b.1 ∨ b.2 < a.1 := ⟨fun _ _ => Or.symm⟩
    have hpair : segs.Pairwise fun a b => a.2 < b.1 ∨ b.2 < a.1 :=
      hs.disjoint.imp fun h => Or.inl h
    exact Or.inr (hpair.forall ha hb h)

theorem preservedAt_eq_some {preserved : List (ℕ × ℕ)} {idx : ℕ} {seg : ℕ × ℕ}
    (h : preservedAt preserved idx = some seg) :
    seg ∈ preserved ∧ seg.1 ≤ idx ∧ idx ≤ seg.2 := by
  unfold preservedAt at h
  have hmem := List.mem_of_find?_eq_some h
  have hin := List.find?_some h
  simp only [decide_eq_true_eq] at hin
  exact ⟨List.mem_reverse.mp hmem, hin⟩

theorem preservedAt_eq_none {preserved : List (ℕ × ℕ)} {idx : ℕ}
    (h : preservedAt preserved idx = none) {seg : ℕ × ℕ} (hseg : seg ∈ preserved) :
    seg.2 < idx ∨ idx < seg.1 := by
  have := List.find?_eq_none.mp h seg (List.mem_reverse.mpr hseg)
  simp only [decide_eq_true_eq] at this
  omega

/-! ### The lanes -/

/-- `splitLeadUp` -/
def splitLeadUp (run : List TranscriptItem) : List TranscriptItem × List TranscriptItem :=
  (run.rdropWhile isAssistant, run.rtakeWhile isAssistant)

/-- The variables of the loop over the work items. -/
structure LaneLoop where
  lanes : List TurnLane
  run : List TranscriptItem
  runIndex : ℕ

namespace LaneLoop

/-- `flushRun` -/
def flushRun (turnId : String) (turnHasResponse : Bool) (s : LaneLoop) : LaneLoop :=
  if s.run = [] then s
  else
    { lanes := s.lanes ++ [.work s!"{turnId}:w{s.runIndex}" s.run
        (turnHasResponse && 2 ≤ (s.run.filter isWorkTool).length)
        (s.run.head?.bind itemStart) (s.run.getLast?.bind itemEnd)]
      run := []
      runIndex := s.runIndex + 1 }

/-- Pin some items as lanes of their own; `flushLeadUp` is this on the lead-up. -/
def pin (s : LaneLoop) (items : List TranscriptItem) : LaneLoop :=
  { s with lanes := s.lanes ++ items.map fun it => .pinned (itemId it) it }

/-- What the loop does with an item outside the preserved segments. -/
def step (turnId : String) (turnHasResponse : Bool) (s : LaneLoop) (it : TranscriptItem) :
    LaneLoop :=
  if isStructuralMarker it then (s.flushRun turnId turnHasResponse).pin [it]
  else if isVisibleTool it then
    if isAnswerTool it ∧ 0 < s.run.length then
      let (work, leadUp) := splitLeadUp s.run
      (({ s with run := work }.flushRun turnId turnHasResponse).pin leadUp).pin [it]
    else (s.flushRun turnId turnHasResponse).pin [it]
  else { s with run := s.run ++ [it] }

/-- The loop, from index `idx`; it goes on at index `next`. -/
def loop (turnId : String) (turnHasResponse : Bool) (workItems : List TranscriptItem)
    (preserved : List (ℕ × ℕ)) : List TranscriptItem → ℕ → ℕ → LaneLoop → LaneLoop
  | [], _, _, s => s
  | it :: rest, idx, next, s =>
    if idx < next then loop turnId turnHasResponse workItems preserved rest (idx + 1) next s
    else
      match preservedAt preserved idx with
      | some seg =>
        loop turnId turnHasResponse workItems preserved rest (idx + 1) (seg.2 + 1)
          ((s.flushRun turnId turnHasResponse).pin (workItems.extract seg.1 (seg.2 + 1)))
      | none =>
        loop turnId turnHasResponse workItems preserved rest (idx + 1) next
          (s.step turnId turnHasResponse it)

/-- The items the loop has taken. -/
def items (s : LaneLoop) : List TranscriptItem := laneItems s.lanes ++ s.run

variable (turnId : String) (r : Bool)

@[simp] theorem run_flushRun (s : LaneLoop) : (s.flushRun turnId r).run = [] := by
  unfold flushRun
  split
  · assumption
  · rfl

@[simp] theorem items_flushRun (s : LaneLoop) : (s.flushRun turnId r).items = s.items := by
  unfold flushRun
  split
  · rfl
  · simp [items, laneItems, TurnLane.items]

/-- Pinning adds the items, once the run is flushed. -/
theorem items_pin {s : LaneLoop} (hrun : s.run = []) (its : List TranscriptItem) :
    (s.pin its).items = s.items ++ its := by
  simp [items, pin, laneItems, hrun, List.flatMap_map, TurnLane.items]

theorem splitLeadUp_append (run : List TranscriptItem) :
    (splitLeadUp run).1 ++ (splitLeadUp run).2 = run :=
  List.rdropWhile_append_rtakeWhile

/-- **Whatever its kind, an item is added after the others.** -/
theorem items_step (s : LaneLoop) (it : TranscriptItem) :
    (s.step turnId r it).items = s.items ++ [it] := by
  unfold step
  split
  · rw [items_pin (run_flushRun ..), items_flushRun]
  · split
    · split
      · -- the lead-up leaves the run and is pinned right behind it
        rw [items_pin (by simp [pin]), items_pin (run_flushRun ..), items_flushRun]
        have h := splitLeadUp_append s.run
        simp only [items, List.append_assoc]
        rw [← List.append_assoc (splitLeadUp s.run).1, h]
      · rw [items_pin (run_flushRun ..), items_flushRun]
    · simp [items]

/-- **The loop takes the items from index `next` on.**  The segments met so far end before
the place the loop goes on at, so that a segment is met at its start. -/
theorem items_loop {workItems : List TranscriptItem} {preserved : List (ℕ × ℕ)}
    (hs : Segments workItems.length preserved) :
    ∀ (rest : List TranscriptItem) (idx next : ℕ) (s : LaneLoop),
      rest = workItems.drop idx →
      (∀ seg ∈ preserved, seg.2 < max idx next ∨ max idx next ≤ seg.1) →
      (s.loop turnId r workItems preserved rest idx next).items =
        s.items ++ rest.drop (next - idx) := by
  intro rest
  induction rest with
  | nil => intros; simp [loop]
  | cons it rest ih =>
    intro idx next s hrest hfree
    have htail : rest = workItems.drop (idx + 1) := by
      rw [← List.drop_drop, ← hrest, List.drop_one, List.tail_cons]
    unfold loop
    split
    · next hlt =>
      -- the item went with its segment
      rw [ih _ _ _ htail (by rwa [max_eq_right (by omega : idx + 1 ≤ next),
        ← max_eq_right (by omega : idx ≤ next)])]
      rw [show next - idx = (next - (idx + 1)) + 1 by omega, List.drop_succ_cons]
    · next hge =>
      have hmax : max idx next = idx := max_eq_left (by omega)
      rw [hmax] at hfree
      rw [show next - idx = 0 by omega, List.drop_zero]
      split
      · next seg hseg =>
        -- a segment is met, at its start, and pinned as a whole
        obtain ⟨hmem, hle, hle'⟩ := preservedAt_eq_some hseg
        have hstart : seg.1 = idx := by
          have := hfree seg hmem
          omega
        have hlast := (hs.bounds seg hmem).2
        rw [ih _ _ _ htail, items_pin (run_flushRun ..), items_flushRun, List.append_assoc]
        · congr 1
          rw [List.extract_eq_take_drop, hstart, ← hrest,
            show seg.2 + 1 - idx = (seg.2 - idx) + 1 by omega, List.take_succ_cons,
            show seg.2 + 1 - (idx + 1) = seg.2 - idx by omega, List.cons_append,
            List.take_append_drop]
        · intro seg' hmem'
          rw [max_eq_right (by omega)]
          rcases hs.apart hmem' hmem with rfl | h | h
          · exact Or.inl (Nat.lt_succ_self _)
          · exact Or.inl (by omega)
          · exact Or.inr (by omega)
      · next hseg =>
        rw [ih _ _ _ htail, items_step]
        · rw [show next - (idx + 1) = 0 by omega, List.drop_zero, List.append_assoc]
          rfl
        · intro seg hmem
          have h := hfree seg hmem
          have h' := preservedAt_eq_none hseg hmem
          rw [max_eq_left (by omega)]
          omega

end LaneLoop

/-- The lanes of a turn. -/
def buildLanes (turnId : String) (turnHasResponse : Bool) (workItems : List TranscriptItem) :
    List TurnLane :=
  let s : LaneLoop := ⟨[], [], 0⟩
  ((s.loop turnId turnHasResponse workItems (findPreservedSegments workItems) workItems 0
    0).flushRun turnId turnHasResponse).lanes

/-- **The lanes hold the work items, in order.** -/
theorem laneItems_buildLanes (turnId : String) (r : Bool) (workItems : List TranscriptItem) :
    laneItems (buildLanes turnId r workItems) = workItems := by
  have h := LaneLoop.items_loop turnId r (segments_findPreservedSegments workItems) workItems 0 0
    ⟨[], [], 0⟩ rfl (by simp)
  rw [← LaneLoop.items_flushRun turnId r] at h
  simpa [buildLanes, LaneLoop.items, laneItems] using h

/-! ### A turn -/

/-- Trailing items that do not break the scan for the response. -/
def isTrailingPinned (it : TranscriptItem) : Bool :=
  isStructuralMarker it || isInterruptedTool it || isNotice it

/-- The work items, the response and what is pinned after it: the scan backwards over the
trailing pinned items and the assistant items before them. -/
def splitBody (body : List TranscriptItem) :
    List TranscriptItem × List TranscriptItem × List TranscriptItem :=
  let trailingPinned := body.rtakeWhile isTrailingPinned
  let untrailed := body.rdropWhile isTrailingPinned
  let workItems := untrailed.rdropWhile isAssistant
  let response := untrailed.rtakeWhile isAssistant
  -- there is no assistant item at the cut: everything goes back into the work items
  if (response ++ trailingPinned).head?.any isAssistant then (workItems, response, trailingPinned)
  else (body, [], [])

theorem splitBody_append (body : List TranscriptItem) :
    (splitBody body).1 ++ (splitBody body).2.1 ++ (splitBody body).2.2 = body := by
  unfold splitBody
  dsimp only
  split
  · rw [List.rdropWhile_append_rtakeWhile, List.rdropWhile_append_rtakeWhile]
  · simp

/-- The turn's id. -/
def turnId (user : Option TranscriptItem) (body : List TranscriptItem) (index : ℕ) : String :=
  ((user.map itemId).or (body.head?.map itemId)).getD s!"turn-{index}"

/-- Write the start of a work run. -/
def TurnLane.setStart (ts : String) : TurnLane → Option TurnLane
  | .work id items collapsible _ endTs => some (.work id items collapsible (some ts) endTs)
  | .pinned .. => none

/-- Write the end of a work run. -/
def TurnLane.setEnd (ts : String) : TurnLane → Option TurnLane
  | .work id items collapsible startTs _ => some (.work id items collapsible startTs (some ts))
  | .pinned .. => none

/-- The first work run starts with the turn, and the last one ends with it. -/
def anchorLanes (startTs endTs : Option String) (lanes : List TurnLane) : List TurnLane :=
  let lanes := startTs.elim lanes fun ts => lanes.modifyFirst (TurnLane.setStart ts)
  endTs.elim lanes fun ts => lanes.modifyLastWhere (TurnLane.setEnd ts)

/-- `buildTurn` -/
def buildTurn (user : Option TranscriptItem) (body : List TranscriptItem) (index : ℕ) :
    TurnGroup :=
  let (workItems, response, postResponse) := splitBody body
  let turnHasResponse : Bool := 0 < response.length
  let prePeelWork := workItems.filter fun it => !isVisibleTool it
  let collapsible := turnHasResponse && 2 ≤ (prePeelWork.filter isWorkTool).length
  let id := turnId user body index
  let lanes := buildLanes id turnHasResponse workItems
  let work := laneItems (lanes.filter TurnLane.isWork)
  let visible := laneItems (lanes.filter fun lane => !lane.isWork) ++ postResponse
  let startTs := user.elim (work.head?.bind itemStart) itemStart
  let endTs := ((postResponse.getLast?.bind itemEnd).or (response.getLast?.bind itemEnd)).or
    (work.getLast?.bind itemEnd)
  { id := id
    user := user
    work := work
    visible := visible
    response := response
    postResponse := postResponse
    lanes := anchorLanes startTs endTs lanes
    collapsible := collapsible
    startTs := startTs
    endTs := endTs }

/-- What a lane shows of the items, and whether they may be collapsed. -/
def TurnLane.content (lane : TurnLane) : Bool × List TranscriptItem := (lane.isWork, lane.items)

/-- The times of the work runs are all that anchoring writes. -/
theorem map_anchorLanes {β : Type*} {f : TurnLane → β}
    (hf : ∀ id items collapsible startTs endTs startTs' endTs',
      f (.work id items collapsible startTs endTs) = f (.work id items collapsible startTs' endTs'))
    (startTs endTs : Option String) (lanes : List TurnLane) :
    (anchorLanes startTs endTs lanes).map f = lanes.map f := by
  have hstart : ∀ ts x y, TurnLane.setStart ts x = some y → f y = f x := by
    intro ts x y h
    cases x <;> cases h
    exact hf ..
  have hend : ∀ ts x y, TurnLane.setEnd ts x = some y → f y = f x := by
    intro ts x y h
    cases x <;> cases h
    exact hf ..
  have h : (startTs.elim lanes fun ts => lanes.modifyFirst (TurnLane.setStart ts)).map f =
      lanes.map f := by
    cases startTs with
    | none => rfl
    | some ts => exact List.map_modifyFirst (hstart ts) lanes
  unfold anchorLanes
  cases endTs with
  | none => exact h
  | some ts => exact (List.map_modifyLastWhere (hend ts) _).trans h

theorem content_anchorLanes (startTs endTs : Option String) (lanes : List TurnLane) :
    (anchorLanes startTs endTs lanes).map TurnLane.content = lanes.map TurnLane.content :=
  map_anchorLanes (fun _ _ _ _ _ _ _ => rfl) startTs endTs lanes

theorem laneItems_work (lanes : List TurnLane) :
    laneItems (lanes.filter TurnLane.isWork) =
      ((lanes.map TurnLane.content).filter Prod.fst).flatMap Prod.snd := by
  rw [List.filter_map, List.flatMap_map]
  rfl

theorem laneItems_pinned (lanes : List TurnLane) :
    laneItems (lanes.filter fun lane => !lane.isWork) =
      ((lanes.map TurnLane.content).filter fun c => !c.1).flatMap Prod.snd := by
  rw [List.filter_map, List.flatMap_map]
  rfl

theorem laneItems_eq (lanes : List TurnLane) :
    laneItems lanes = (lanes.map TurnLane.content).flatMap Prod.snd := by
  rw [List.flatMap_map]
  rfl

/-- A turn's flat lists are what its lanes show. -/
structure TurnGroup.Split (turn : TurnGroup) : Prop where
  work : turn.work = laneItems (turn.lanes.filter TurnLane.isWork)
  visible : turn.visible =
    laneItems (turn.lanes.filter fun lane => !lane.isWork) ++ turn.postResponse

theorem TurnGroup.Split.of_content {turn turn' : TurnGroup} (h : turn.Split)
    (hlanes : turn'.lanes.map TurnLane.content = turn.lanes.map TurnLane.content)
    (hwork : turn'.work = turn.work) (hvisible : turn'.visible = turn.visible)
    (hpost : turn'.postResponse = turn.postResponse) : turn'.Split where
  work := by rw [hwork, h.work, laneItems_work, laneItems_work, hlanes]
  visible := by rw [hvisible, h.visible, hpost, laneItems_pinned, laneItems_pinned, hlanes]

theorem split_buildTurn (user : Option TranscriptItem) (body : List TranscriptItem) (index : ℕ) :
    (buildTurn user body index).Split where
  work := by
    unfold buildTurn
    dsimp only
    rw [laneItems_work, laneItems_work, content_anchorLanes]
  visible := by
    unfold buildTurn
    dsimp only
    rw [laneItems_pinned, laneItems_pinned, content_anchorLanes]

/-- **A turn holds its head and its body, in order.** -/
theorem items_buildTurn (user : Option TranscriptItem) (body : List TranscriptItem) (index : ℕ) :
    (buildTurn user body index).items = user.toList ++ body := by
  unfold buildTurn TurnGroup.items
  dsimp only
  rw [laneItems_eq, content_anchorLanes, ← laneItems_eq, laneItems_buildLanes]
  simp only [List.append_assoc]
  rw [← List.append_assoc (splitBody body).1, splitBody_append]

/-- The lists a turn is split into are its items, in some order. -/
theorem TurnGroup.Split.perm {turn : TurnGroup} (h : turn.Split) :
    (turn.user.toList ++ turn.work ++ turn.visible ++ turn.response).Perm turn.items := by
  have hlanes : (turn.work ++ laneItems (turn.lanes.filter fun lane => !lane.isWork)).Perm
      (laneItems turn.lanes) := by
    rw [h.work]
    unfold laneItems
    rw [← List.flatMap_append]
    exact (List.filter_append_perm _ _).flatMap_right _
  rw [h.visible]
  unfold TurnGroup.items
  simp only [List.append_assoc]
  refine List.Perm.append_left _ ?_
  rw [← List.append_assoc]
  exact hlanes.append List.perm_append_comm

/-! ### The turns of a transcript -/

/-- `TurnInput`, of items of any type. -/
structure TurnInput (α : Type*) where
  user : Option α
  body : List α

namespace TurnInput

variable {α β : Type*}

/-- The items of a turn. -/
def items (input : TurnInput α) : List α := input.user.toList ++ input.body

def map (f : α → β) (input : TurnInput α) : TurnInput β :=
  ⟨input.user.map f, input.body.map f⟩

end TurnInput

/-- The variables of `collectTurnInputs`. -/
structure Collecting (α : Type*) where
  inputs : List (TurnInput α)
  user : Option α
  body : List α
  started : Bool

namespace Collecting

variable {α β : Type*}

def init : Collecting α := ⟨[], none, [], false⟩

/-- `flush` -/
def flush (s : Collecting α) : Collecting α :=
  if s.started then { s with inputs := s.inputs ++ [⟨s.user, s.body⟩], user := none, body := [] }
  else s

/-- The loop's body. -/
def step (starts : α → Bool) (s : Collecting α) (item : α) : Collecting α :=
  if starts item then { s.flush with user := some item, body := [], started := true }
  else { s with started := true, body := s.body ++ [item] }

/-- The items collected so far. -/
def items (s : Collecting α) : List α :=
  s.inputs.flatMap TurnInput.items ++ s.user.toList ++ s.body

/-- Nothing is held before the first item, and no turn is empty. -/
structure Ok (s : Collecting α) : Prop where
  unstarted : s.started = false → s.user = none ∧ s.body = []
  started : s.started = true → s.user.toList ++ s.body ≠ []
  inputs : ∀ input ∈ s.inputs, input.items ≠ []

theorem ok_init : (init : Collecting α).Ok where
  unstarted := fun _ => ⟨rfl, rfl⟩
  started := fun h => by cases h
  inputs := by simp [init]

/-- What `flush` closes is the turn that was open. -/
theorem flatMap_inputs_flush {s : Collecting α} (hs : s.Ok) :
    s.flush.inputs.flatMap TurnInput.items = s.items := by
  unfold flush items
  split
  · simp [TurnInput.items]
  · next h =>
    obtain ⟨huser, hbody⟩ := hs.unstarted (by simpa using h)
    simp [huser, hbody]

theorem inputs_flush {s : Collecting α} (hs : s.Ok) :
    ∀ input ∈ s.flush.inputs, input.items ≠ [] := by
  unfold flush
  split
  · next h =>
    intro input hinput
    rcases List.mem_append.mp hinput with hinput | hinput
    · exact hs.inputs input hinput
    · rw [List.mem_singleton.mp hinput]
      exact hs.started h
  · exact hs.inputs

theorem Ok.step (starts : α → Bool) {s : Collecting α} (hs : s.Ok) (item : α) :
    (s.step starts item).Ok := by
  unfold Collecting.step
  split
  · exact ⟨fun h => (Bool.noConfusion h), fun _ => by simp, inputs_flush hs⟩
  · exact ⟨fun h => (Bool.noConfusion h), fun _ => by simp, hs.inputs⟩

theorem items_step (starts : α → Bool) {s : Collecting α} (hs : s.Ok) (item : α) :
    (s.step starts item).items = s.items ++ [item] := by
  unfold Collecting.step
  split
  · rw [← flatMap_inputs_flush hs]
    simp [items]
  · simp [items]

/-- **The loop collects every item, in order.** -/
theorem items_foldl (starts : α → Bool) (its : List α) {s : Collecting α} (hs : s.Ok) :
    (its.foldl (Collecting.step starts) s).Ok ∧
      (its.foldl (Collecting.step starts) s).items = s.items ++ its := by
  induction its generalizing s with
  | nil => simpa using hs
  | cons item its ih =>
    obtain ⟨hok, hitems⟩ := ih (hs.step starts item)
    refine ⟨hok, ?_⟩
    rw [List.foldl_cons, hitems, items_step starts hs, List.append_assoc, List.singleton_append]

end Collecting

/-- `collectTurnInputs`, for items that carry more than what is shown. -/
def collectTurnInputsBy {α : Type*} (starts : α → Bool) (items : List α) : List (TurnInput α) :=
  (items.foldl (Collecting.step starts) .init).flush.inputs

/-- `collectTurnInputs` -/
def collectTurnInputs (items : List TranscriptItem) : List (TurnInput TranscriptItem) :=
  collectTurnInputsBy startsTurn items

theorem flatMap_collectTurnInputsBy {α : Type*} (starts : α → Bool) (items : List α) :
    (collectTurnInputsBy starts items).flatMap TurnInput.items = items := by
  obtain ⟨hok, hitems⟩ := Collecting.items_foldl starts items Collecting.ok_init
  exact (Collecting.flatMap_inputs_flush hok).trans hitems

theorem items_ne_nil_of_mem {α : Type*} {starts : α → Bool} {items : List α} {input : TurnInput α}
    (h : input ∈ collectTurnInputsBy starts items) : input.items ≠ [] :=
  Collecting.inputs_flush (Collecting.items_foldl starts items Collecting.ok_init).1 input h

/-- The lanes of a live turn stay inline. -/
def TurnLane.inactive : TurnLane → TurnLane
  | .work id items _ startTs endTs => .work id items false startTs endTs
  | .pinned id item => .pinned id item

/-- `inactiveLastTurn` -/
def inactiveLastTurn (turn : TurnGroup) : TurnGroup :=
  { turn with collapsible := false, lanes := turn.lanes.map TurnLane.inactive }

/-- `applyLastTurnActive` -/
def applyLastTurnActive (turns : List TurnGroup) (lastTurnActive : Bool) : List TurnGroup :=
  if !lastTurnActive then turns else turns.mapLast inactiveLastTurn

/-- `groupTurns` -/
def groupTurns (items : List TranscriptItem) (lastTurnActive : Bool) : List TurnGroup :=
  applyLastTurnActive
    ((collectTurnInputs items).mapIdx fun index input => buildTurn input.user input.body index)
    lastTurnActive

@[simp] theorem items_inactiveLastTurn (turn : TurnGroup) :
    (inactiveLastTurn turn).items = turn.items := by
  have h : (turn.lanes.map TurnLane.inactive).map TurnLane.items =
      turn.lanes.map TurnLane.items := by
    rw [List.map_map]
    exact List.map_congr_left fun lane _ => by cases lane <;> rfl
  have h' : laneItems (turn.lanes.map TurnLane.inactive) = laneItems turn.lanes := by
    rw [laneItems, laneItems, List.flatMap_def, List.flatMap_def, h]
  unfold TurnGroup.items
  rw [← h']
  rfl

theorem TurnGroup.Split.inactive {turn : TurnGroup} (h : turn.Split) :
    (inactiveLastTurn turn).Split := by
  refine h.of_content ?_ rfl rfl rfl
  change (turn.lanes.map TurnLane.inactive).map TurnLane.content = _
  rw [List.map_map]
  exact List.map_congr_left fun lane _ => by cases lane <;> rfl

/-- The turns hold the items, each once and in order, and in each of them the work and the
visible parts make up its items. -/
structure Conserves (items : List TranscriptItem) (turns : List TurnGroup) : Prop where
  inOrder : turns.flatMap TurnGroup.items = items
  split : ∀ turn ∈ turns, turn.Split
  partition : ∀ turn ∈ turns,
    (turn.user.toList ++ turn.work ++ turn.visible ++ turn.response).Perm turn.items

theorem items_applyLastTurnActive (turns : List TurnGroup) (active : Bool) :
    (applyLastTurnActive turns active).map TurnGroup.items = turns.map TurnGroup.items := by
  unfold applyLastTurnActive
  split
  · rfl
  · exact List.map_mapLast items_inactiveLastTurn turns

theorem split_applyLastTurnActive {turns : List TurnGroup} (h : ∀ turn ∈ turns, turn.Split)
    (active : Bool) : ∀ turn ∈ applyLastTurnActive turns active, turn.Split := by
  unfold applyLastTurnActive
  split
  · exact h
  · exact List.forall_mapLast (fun _ => TurnGroup.Split.inactive) h

/-- **Grouping conserves the transcript.** -/
theorem conserves_groupTurns (items : List TranscriptItem) (lastTurnActive : Bool) :
    Conserves items (groupTurns items lastTurnActive) := by
  have hsplit : ∀ turn ∈ groupTurns items lastTurnActive, turn.Split := by
    refine split_applyLastTurnActive (fun turn hturn => ?_) lastTurnActive
    obtain ⟨index, _, rfl⟩ := List.mem_mapIdx.mp hturn
    exact split_buildTurn ..
  refine ⟨?_, hsplit, fun turn hturn => (hsplit turn hturn).perm⟩
  have hmap : (groupTurns items lastTurnActive).map TurnGroup.items =
      (collectTurnInputs items).map TurnInput.items := by
    unfold groupTurns
    rw [items_applyLastTurnActive]
    exact List.ext_getElem (by simp) fun i _ _ => by simp [items_buildTurn, TurnInput.items]
  rw [List.flatMap_def, hmap, ← List.flatMap_def]
  exact flatMap_collectTurnInputsBy startsTurn items

end TranscriptView
end Pantoken
