import Mathlib.Data.List.Nodup
import Pantoken.Lib.Run

/-!
# Overlay history

On a phone an overlay that opens pushes an entry on the browser's history, so that a back
gesture closes it.  An overlay closed by its own controls takes its entry back with a
`history.back()` of the module, whose popstate comes later; what opens meanwhile is
deferred.  The handler cannot tell its own popstates from those of the user: it counts the
pops it owes and takes each popstate that comes for one of them.

A traversal is under way from the call to its popstate, and takes off the entry that is on
top when it arrives.  Below the overlay entries are those of the app and of other pages.

## Main definitions

* `OverlayHistory` — the module's variables and the browser's history.
* `OverlayHistory.opened`, `openedNested`, `closed`, `popped` — the module.
* `OverlayHistory.InStep` — what is promised.
* `OverlayHistory.Fresh`, `OverlayHistory.Leaves` — the two conditions.

## Main results

* `entries_eq` — **the overlay entries are those of the stack, the pops owed and the closes
  out of order, in every run.**
* `distinct_iff` — **the ids stay distinct exactly when nothing that is on the stack opens
  while a pop is owed.**
* `inStep_of_keeps` — **the history is in step while, besides, each `back()` of the module
  finds fewer traversals under way than there are overlay entries.**
-/

namespace Pantoken

/-- `Entry`, whose `close` is known by a number. -/
structure OverlayEntry where
  id : String
  close : ℕ
  deriving DecidableEq

/-- A traversal of the history by one entry. -/
inductive Traversal where
  /-- A `back()` of the module. -/
  | own
  /-- The user goes back. -/
  | user
  deriving DecidableEq

/-- `createOverlayHistory`, over the browser's history. -/
structure OverlayHistory where
  stack : List OverlayEntry
  installed : Bool
  pendingOwnPops : ℕ
  pendingReplacementId : Option String
  deferredStack : List OverlayEntry
  /-- The close callbacks that were run. -/
  ran : List ℕ
  /-- The markers of the overlay entries, the newest last. -/
  entries : List String
  /-- The traversals under way. -/
  flight : List Traversal
  /-- The closes out of order whose entry is still there. -/
  outOfOrder : ℕ
  /-- The traversals of the module that met no overlay entry. -/
  strayed : ℕ

namespace OverlayHistory

/-! ### The browser -/

/-- `pushState` for each entry. -/
def pushStates (s : OverlayHistory) (es : List OverlayEntry) : OverlayHistory :=
  { s with entries := s.entries ++ es.map (·.id) }

/-- `replaceState` -/
def replaceState (s : OverlayHistory) (id : String) : OverlayHistory :=
  { s with entries := if s.entries = [] then [] else s.entries.dropLast ++ [id] }

/-- `history.back()`, whose popstate comes later. -/
def back (s : OverlayHistory) : OverlayHistory := { s with flight := s.flight ++ [.own] }

/-! ### The module -/

/-- The close callbacks run. -/
def run (s : OverlayHistory) (es : List OverlayEntry) : OverlayHistory :=
  { s with ran := s.ran ++ es.map (·.close) }

/-- A new callback for the first entry of the id. -/
def setClose (id : String) (close : ℕ) : List OverlayEntry → List OverlayEntry
  | [] => []
  | e :: es => if e.id = id then { e with close := close } :: es else e :: setClose id close es

/-- Whether a replacement is pending, as JavaScript tests it. -/
def replacing (s : OverlayHistory) : Bool := s.pendingReplacementId.any (· ≠ "")

/-- `opened` while a pop is owed. -/
def openedDeferred (s : OverlayHistory) (id : String) (close : ℕ) : OverlayHistory :=
  if s.replacing = true ∧ s.stack.length = 1 then
    if s.stack.any (·.id = id) then { s with stack := setClose id close s.stack }
    else
      { (s.run s.deferredStack.reverse).run s.stack with
        deferredStack := []
        stack := [⟨id, close⟩]
        pendingReplacementId := some id }
  else if s.deferredStack.any (·.id = id) then
    { s with deferredStack := setClose id close s.deferredStack }
  else { s.run s.deferredStack.reverse with deferredStack := [⟨id, close⟩] }

/-- `opened` over a parent and its children: the peer takes the place of all. -/
def replaceHierarchy (s : OverlayHistory) (id : String) (close : ℕ) : OverlayHistory :=
  { (s.run s.stack.reverse).back with
    stack := [⟨id, close⟩]
    pendingReplacementId := some id
    pendingOwnPops := s.stack.length - 1 }

/-- `opened` over one overlay: the peer takes its entry. -/
def replaceTop (s : OverlayHistory) (id : String) (close : ℕ) : OverlayHistory :=
  { (s.run s.stack).replaceState id with stack := [⟨id, close⟩] }

/-- An entry of its own. -/
def push (s : OverlayHistory) (e : OverlayEntry) : OverlayHistory :=
  { s.pushStates [e] with stack := s.stack ++ [e] }

/-- A new callback for an overlay that is tracked. -/
def refresh (s : OverlayHistory) (id : String) (close : ℕ) : OverlayHistory :=
  { s with stack := setClose id close s.stack }

/-- `opened` while no pop is owed. -/
def openedNow (s : OverlayHistory) (id : String) (close : ℕ) : OverlayHistory :=
  if s.stack.any (·.id = id) then s.refresh id close
  else if s.stack.length > 1 then s.replaceHierarchy id close
  else if s.stack.length > 0 then s.replaceTop id close
  else s.push ⟨id, close⟩

/-- `ensureInstalled` -/
def install (s : OverlayHistory) : OverlayHistory := { s with installed := true }

/-- `opened` -/
def opened (s : OverlayHistory) (isPhone : Bool) (id : String) (close : ℕ) : OverlayHistory :=
  if isPhone = false then s
  else if s.pendingOwnPops > 0 then s.install.openedDeferred id close
  else s.install.openedNow id close

/-- `openedNested` while a pop is owed. -/
def nestedDeferred (s : OverlayHistory) (id : String) (close : ℕ) : OverlayHistory :=
  if s.deferredStack.any (·.id = id) then
    { s with deferredStack := setClose id close s.deferredStack }
  else { s with deferredStack := s.deferredStack ++ [⟨id, close⟩] }

/-- `openedNested` -/
def openedNested (s : OverlayHistory) (isPhone : Bool) (id : String) (close : ℕ) :
    OverlayHistory :=
  if isPhone = false then s
  else if s.pendingOwnPops > 0 then s.install.nestedDeferred id close
  else if s.stack.any (·.id = id) then s.install.refresh id close
  else s.install.push ⟨id, close⟩

/-- The overlay on top is closed: its entry is owed, and the first pop owed is asked for. -/
def closedTop (s : OverlayHistory) : OverlayHistory :=
  if s.pendingOwnPops = 0 then { s with pendingOwnPops := 1 }.back
  else { s with pendingOwnPops := s.pendingOwnPops + 1 }

/-- An overlay leaves the stack. -/
def dropAt (s : OverlayHistory) (id : String) (idx : ℕ) : OverlayHistory :=
  { s with
    pendingReplacementId :=
      if s.pendingReplacementId = some id then none else s.pendingReplacementId
    stack := s.stack.eraseIdx idx }

/-- `closed` -/
def closed (s : OverlayHistory) (id : String) : OverlayHistory :=
  if s.deferredStack.any (·.id = id) then
    { s with deferredStack := s.deferredStack.eraseP (·.id = id) }
  else
    match s.stack.findIdx? (·.id = id) with
    | none => s
    | some idx =>
      if idx = s.stack.length - 1 then (s.dropAt id idx).closedTop
      else { s.dropAt id idx with outOfOrder := s.outOfOrder + 1 }

/-- The entries, once the one left of a hierarchy has the marker of the peer. -/
def markReplacement (s : OverlayHistory) : List String :=
  match s.pendingReplacementId, s.stack with
  | some id, top :: _ =>
    if id ≠ "" ∧ top.id = id then (s.replaceState id).entries else s.entries
  | _, _ => s.entries

/-- The last pop owed has come, and what was deferred opens. -/
def settle (s : OverlayHistory) : OverlayHistory :=
  { s with
    pendingReplacementId := none
    entries := s.markReplacement ++ s.deferredStack.map (·.id)
    stack := s.stack ++ s.deferredStack
    deferredStack := [] }

/-- The popstate handler. -/
def popped (s : OverlayHistory) : OverlayHistory :=
  if s.pendingOwnPops > 0 then
    if s.pendingOwnPops > 1 then { s with pendingOwnPops := s.pendingOwnPops - 1 }.back
    else { s with pendingOwnPops := 0 }.settle
  else
    match s.stack.getLast? with
    | some top => { s.run [top] with stack := s.stack.dropLast }
    | none => { s with outOfOrder := s.outOfOrder - 1 }

/-! ### Steps -/

/-- The oldest traversal arrives: the top entry goes, and the handler runs. -/
def arrive (s : OverlayHistory) : OverlayHistory :=
  match s.flight with
  | [] => s
  | t :: flight =>
    let s' := { s with
      flight := flight
      entries := s.entries.dropLast
      strayed := if t = .own ∧ s.entries = [] then s.strayed + 1 else s.strayed }
    if s.installed then s'.popped else s'

inductive Action where
  | opened (isPhone : Bool) (id : String) (close : ℕ)
  | openedNested (isPhone : Bool) (id : String) (close : ℕ)
  | closed (id : String)
  /-- The user goes back. -/
  | press
  | arrive

/-- One step. -/
def step (s : OverlayHistory) : Action → OverlayHistory
  | .opened isPhone id close => s.opened isPhone id close
  | .openedNested isPhone id close => s.openedNested isPhone id close
  | .closed id => s.closed id
  | .press => { s with flight := s.flight ++ [.user] }
  | .arrive => s.arrive

/-- The module before its first overlay. -/
def boot : OverlayHistory where
  stack := []
  installed := false
  pendingOwnPops := 0
  pendingReplacementId := none
  deferredStack := []
  ran := []
  entries := []
  flight := []
  outOfOrder := 0
  strayed := 0

/-! ### What is promised -/

/-- The ids of the stack and of what is deferred. -/
def ids (s : OverlayHistory) : List String := (s.stack ++ s.deferredStack).map (·.id)

/-- The ids are distinct, each overlay entry belongs to the stack, to a pop that is owed or
to a close out of order, and no `back()` of the module went past them. -/
structure InStep (s : OverlayHistory) : Prop where
  distinct : s.ids.Nodup
  entries : s.entries.length = s.stack.length + s.pendingOwnPops + s.outOfOrder
  strayed : s.strayed = 0

/-- While a pop is owed, what opens is not on the stack; a peer in the place of the peer
that replaced a hierarchy may be. -/
def Fresh (s : OverlayHistory) : Action → Prop
  | .opened true id _ => 0 < s.pendingOwnPops → ¬ (s.replacing = true ∧ s.stack.length = 1) →
      id ∉ s.stack.map (·.id)
  | .openedNested true id _ => 0 < s.pendingOwnPops → id ∉ s.stack.map (·.id)
  | .opened false .. | .openedNested false .. | .closed _ | .press | .arrive => True

instance Fresh.decidable (s : OverlayHistory) : ∀ a, Decidable (s.Fresh a)
  | .opened true id _ => inferInstanceAs (Decidable (0 < s.pendingOwnPops →
      ¬ (s.replacing = true ∧ s.stack.length = 1) → id ∉ s.stack.map (·.id)))
  | .openedNested true id _ =>
    inferInstanceAs (Decidable (0 < s.pendingOwnPops → id ∉ s.stack.map (·.id)))
  | .opened false .. | .openedNested false .. | .closed _ | .press | .arrive => isTrue trivial

/-- The module calls `back()`: it replaces a hierarchy, takes the first pop owed, or goes on
with the next. -/
def CallsBack (s : OverlayHistory) : Action → Prop
  | .opened isPhone id _ => isPhone = true ∧ s.pendingOwnPops = 0 ∧ 1 < s.stack.length ∧
      id ∉ s.stack.map (·.id)
  | .closed id => s.pendingOwnPops = 0 ∧ s.stack.findIdx? (·.id = id) = some (s.stack.length - 1)
  | .arrive => 1 < s.pendingOwnPops
  | .openedNested .. | .press => False

instance CallsBack.decidable (s : OverlayHistory) : ∀ a, Decidable (s.CallsBack a)
  | .opened isPhone id _ => inferInstanceAs (Decidable (isPhone = true ∧ s.pendingOwnPops = 0 ∧
      1 < s.stack.length ∧ id ∉ s.stack.map (·.id)))
  | .closed id => inferInstanceAs (Decidable (s.pendingOwnPops = 0 ∧
      s.stack.findIdx? (·.id = id) = some (s.stack.length - 1)))
  | .arrive => inferInstanceAs (Decidable (1 < s.pendingOwnPops))
  | .openedNested .. | .press => isFalse id

/-- The traversals under way leave an overlay entry for a `back()` of the module. -/
def Leaves (s : OverlayHistory) (a : Action) : Prop :=
  s.CallsBack a → s.flight.length < s.entries.length

/-- Both conditions. -/
def Keeps (s : OverlayHistory) (a : Action) : Prop := s.Fresh a ∧ s.Leaves a

instance Keeps.decidable (s : OverlayHistory) (a : Action) : Decidable (s.Keeps a) :=
  inferInstanceAs (Decidable (s.Fresh a ∧ (s.CallsBack a → s.flight.length < s.entries.length)))

/-! ### The entries -/

section Entries

variable {s : OverlayHistory}

@[simp] theorem setClose_map_id (id : String) (close : ℕ) (es : List OverlayEntry) :
    (setClose id close es).map (·.id) = es.map (·.id) := by
  induction es with
  | nil => rfl
  | cons e es ih =>
    unfold setClose
    split
    · rfl
    · rw [List.map_cons, List.map_cons, ih]

@[simp] theorem setClose_length (id : String) (close : ℕ) (es : List OverlayEntry) :
    (setClose id close es).length = es.length := by
  rw [← List.length_map (·.id), setClose_map_id, List.length_map]

theorem replaceState_length (s : OverlayHistory) (id : String) :
    (s.replaceState id).entries.length = s.entries.length := by
  show (if s.entries = [] then [] else s.entries.dropLast ++ [id]).length = s.entries.length
  split
  · next hnil => rw [hnil]
  · next hne =>
    have hpos := List.length_pos_iff.mpr hne
    rw [List.length_append, List.length_dropLast, List.length_singleton]
    omega

/-- Every overlay entry is accounted for, and before the first overlay there is none. -/
structure Balanced (s : OverlayHistory) : Prop where
  entries : s.entries.length = s.stack.length + s.pendingOwnPops + s.outOfOrder
  installed : s.installed = false → s.entries = []

theorem Balanced.openedDeferred (hs : s.Balanced) (id : String) (close : ℕ) :
    (s.openedDeferred id close).Balanced := by
  unfold OverlayHistory.openedDeferred
  split
  · next hone =>
    split
    · refine ⟨?_, hs.installed⟩
      show s.entries.length = (setClose id close s.stack).length + _ + _
      rw [setClose_length]
      exact hs.entries
    · refine ⟨?_, hs.installed⟩
      show s.entries.length = 1 + s.pendingOwnPops + s.outOfOrder
      rw [hs.entries, hone.2]
  · split
    · exact ⟨hs.entries, hs.installed⟩
    · exact ⟨hs.entries, hs.installed⟩

theorem Balanced.refresh (hs : s.Balanced) (id : String) (close : ℕ) :
    (s.refresh id close).Balanced := by
  refine ⟨?_, hs.installed⟩
  show s.entries.length = (setClose id close s.stack).length + _ + _
  rw [setClose_length]
  exact hs.entries

theorem Balanced.push (hs : s.Balanced) (hinstalled : s.installed = true) (e : OverlayEntry) :
    (s.push e).Balanced := by
  have hentries := hs.entries
  refine ⟨?_, fun h => ?_⟩
  · show (s.entries ++ [e.id]).length = (s.stack ++ [e]).length + _ + _
    rw [List.length_append, List.length_append, List.length_singleton, List.length_singleton,
      hentries]
    show _ = s.stack.length + 1 + s.pendingOwnPops + s.outOfOrder
    omega
  · have hnot : s.installed = false := h
    rw [hinstalled] at hnot
    cases hnot

theorem Balanced.openedNow (hs : s.Balanced) (hinstalled : s.installed = true)
    (hzero : s.pendingOwnPops = 0) (id : String) (close : ℕ) :
    (s.openedNow id close).Balanced := by
  have hentries := hs.entries
  have hnot : ∀ s' : OverlayHistory, s'.installed = s.installed → s'.installed = false →
      s'.entries = [] := by
    intro s' hsame h
    rw [hsame, hinstalled] at h
    cases h
  unfold OverlayHistory.openedNow
  split
  · exact hs.refresh id close
  · split
    · refine ⟨?_, hnot _ rfl⟩
      show s.entries.length = 1 + (s.stack.length - 1) + s.outOfOrder
      omega
    · split
      · refine ⟨?_, hnot _ rfl⟩
        show ((s.run s.stack).replaceState id).entries.length = 1 + s.pendingOwnPops + s.outOfOrder
        rw [replaceState_length]
        show s.entries.length = _
        omega
      · exact hs.push hinstalled _

theorem Balanced.install (hs : s.Balanced) : s.install.Balanced :=
  ⟨hs.entries, fun h => by cases h⟩

theorem Balanced.opened (hs : s.Balanced) (isPhone : Bool) (id : String) (close : ℕ) :
    (s.opened isPhone id close).Balanced := by
  unfold OverlayHistory.opened
  split
  · exact hs
  · split
    · exact hs.install.openedDeferred id close
    · next hzero => exact hs.install.openedNow rfl (Nat.eq_zero_of_not_pos hzero) id close

theorem Balanced.openedNested (hs : s.Balanced) (isPhone : Bool) (id : String) (close : ℕ) :
    (s.openedNested isPhone id close).Balanced := by
  unfold OverlayHistory.openedNested
  split
  · exact hs
  · split
    · unfold nestedDeferred
      split
      · exact ⟨hs.install.entries, hs.install.installed⟩
      · exact ⟨hs.install.entries, hs.install.installed⟩
    · split
      · exact hs.install.refresh id close
      · exact hs.install.push rfl _

theorem Balanced.closed (hs : s.Balanced) (id : String) : (s.closed id).Balanced := by
  have hentries := hs.entries
  unfold OverlayHistory.closed
  split
  · exact ⟨hs.entries, hs.installed⟩
  · split
    · exact hs
    · next idx hidx =>
      have hlt : idx < s.stack.length := (List.findIdx?_eq_some_iff_findIdx_eq.mp hidx).1
      have herase : (s.stack.eraseIdx idx).length = s.stack.length - 1 :=
        List.length_eraseIdx_of_lt hlt
      split
      · unfold closedTop
        split
        · next hzero =>
          have hzero : s.pendingOwnPops = 0 := hzero
          refine ⟨?_, hs.installed⟩
          show s.entries.length = (s.stack.eraseIdx idx).length + 1 + s.outOfOrder
          omega
        · refine ⟨?_, hs.installed⟩
          show s.entries.length =
            (s.stack.eraseIdx idx).length + (s.pendingOwnPops + 1) + s.outOfOrder
          omega
      · refine ⟨?_, hs.installed⟩
        show s.entries.length =
          (s.stack.eraseIdx idx).length + s.pendingOwnPops + (s.outOfOrder + 1)
        omega

/-- The marker may change, and the deferred entries are pushed. -/
theorem settle_entries (s : OverlayHistory) :
    s.settle.entries.length = s.entries.length + s.deferredStack.length := by
  have hmark : s.markReplacement.length = s.entries.length := by
    unfold markReplacement
    split
    · split
      · exact replaceState_length s _
      · rfl
    · rfl
  show (s.markReplacement ++ s.deferredStack.map (·.id)).length = _
  rw [List.length_append, List.length_map, hmark]

/-- The top entry is gone, and what it was accounted for with it. -/
theorem Balanced.popped (hentries : s.entries.length =
    s.stack.length + s.pendingOwnPops + s.outOfOrder - 1) (hinstalled : s.installed = true) :
    s.popped.Balanced := by
  have hnot : ∀ s' : OverlayHistory, s'.installed = s.installed → s'.installed = false →
      s'.entries = [] := by
    intro s' hsame h
    rw [hsame, hinstalled] at h
    cases h
  unfold OverlayHistory.popped
  split
  · split
    · refine ⟨?_, hnot _ rfl⟩
      show s.entries.length = s.stack.length + (s.pendingOwnPops - 1) + s.outOfOrder
      omega
    · next hpos hone =>
      refine ⟨?_, hnot _ rfl⟩
      rw [settle_entries]
      show s.entries.length + s.deferredStack.length =
        (s.stack ++ s.deferredStack).length + 0 + s.outOfOrder
      rw [List.length_append]
      omega
  · next hzero =>
    split
    · next top htop =>
      refine ⟨?_, hnot _ rfl⟩
      have hpos : 0 < s.stack.length := List.length_pos_of_mem (List.mem_of_getLast? htop)
      show s.entries.length = s.stack.dropLast.length + s.pendingOwnPops + s.outOfOrder
      rw [List.length_dropLast]
      omega
    · next hnone =>
      refine ⟨?_, hnot _ rfl⟩
      have hnil : s.stack = [] := List.getLast?_eq_none_iff.mp hnone
      show s.entries.length = s.stack.length + s.pendingOwnPops + (s.outOfOrder - 1)
      rw [hnil] at hentries ⊢
      rw [List.length_nil] at hentries ⊢
      omega

theorem Balanced.arrive (hs : s.Balanced) : s.arrive.Balanced := by
  unfold OverlayHistory.arrive
  split
  · exact hs
  · dsimp only
    split
    · next hinstalled =>
      refine Balanced.popped ?_ hinstalled
      show s.entries.dropLast.length = _
      rw [List.length_dropLast, hs.entries]
    · next hinstalled =>
      have hnil := hs.installed (Bool.eq_false_iff.mpr hinstalled)
      have hentries := hs.entries
      refine ⟨?_, fun _ => ?_⟩
      · show s.entries.dropLast.length = _
        rw [hnil] at hentries ⊢
        exact hentries
      · show s.entries.dropLast = []
        rw [hnil]
        rfl

theorem Balanced.step (hs : s.Balanced) (a : Action) : (s.step a).Balanced := by
  cases a with
  | opened isPhone id close => exact hs.opened isPhone id close
  | openedNested isPhone id close => exact hs.openedNested isPhone id close
  | closed id => exact hs.closed id
  | press => exact ⟨hs.entries, hs.installed⟩
  | arrive => exact hs.arrive

theorem balanced_boot : boot.Balanced := ⟨rfl, fun _ => rfl⟩

end Entries

/-- **The overlay entries are those of the stack, the pops owed and the closes out of order,
in every run.** -/
theorem entries_eq (acts : List Action) : (acts.foldl step boot).entries.length =
    (acts.foldl step boot).stack.length + (acts.foldl step boot).pendingOwnPops +
      (acts.foldl step boot).outOfOrder := by
  have hs : (acts.foldl step boot).Balanced :=
    foldl_invariant (I := Balanced) (fun _ a hs => hs.step a) balanced_boot acts
  exact hs.entries

/-! ### The ids -/

section Ids

variable {s : OverlayHistory}

/-- The ids are distinct, and nothing is deferred unless a pop is owed. -/
structure Tidy (s : OverlayHistory) : Prop where
  distinct : s.ids.Nodup
  deferred : s.pendingOwnPops = 0 → s.deferredStack = []

theorem ids_eq (s : OverlayHistory) :
    s.ids = s.stack.map (·.id) ++ s.deferredStack.map (·.id) := List.map_append

theorem any_id_iff (es : List OverlayEntry) (id : String) :
    es.any (·.id = id) = true ↔ id ∈ es.map (·.id) := by
  simp only [List.any_eq_true, decide_eq_true_eq, List.mem_map]

/-- What opens while a pop is owed is fresh exactly when the ids stay distinct. -/
theorem Tidy.openedDeferred (hs : s.Tidy) (id : String) (close : ℕ) :
    (¬ (s.replacing = true ∧ s.stack.length = 1) → id ∉ s.stack.map (·.id)) ↔
      (s.openedDeferred id close).ids.Nodup := by
  have hdistinct := hs.distinct
  rw [ids_eq, List.nodup_append] at hdistinct
  obtain ⟨hstack, hdeferred, hapart⟩ := hdistinct
  unfold OverlayHistory.openedDeferred
  split
  · next hone =>
    refine iff_of_true (fun hnot => absurd hone hnot) ?_
    split
    · rw [ids_eq]
      show ((setClose id close s.stack).map (·.id) ++ s.deferredStack.map (·.id)).Nodup
      rw [setClose_map_id, ← ids_eq]
      exact hs.distinct
    · exact List.nodup_singleton id
  · next hmany =>
    rw [iff_true_intro hmany, true_imp_iff]
    split
    · next hmem =>
      have hmem := (any_id_iff _ _).mp hmem
      refine iff_of_true (fun hstack => hapart id hstack id hmem rfl) ?_
      rw [ids_eq]
      show (s.stack.map (·.id) ++ (setClose id close s.deferredStack).map (·.id)).Nodup
      rw [setClose_map_id, ← ids_eq]
      exact hs.distinct
    · rw [ids_eq]
      show _ ↔ (s.stack.map (·.id) ++ [id]).Nodup
      rw [← List.concat_eq_append, List.nodup_concat]
      exact (and_iff_left hstack).symm

theorem Tidy.nestedDeferred (hs : s.Tidy) (id : String) (close : ℕ) :
    id ∉ s.stack.map (·.id) ↔ (s.nestedDeferred id close).ids.Nodup := by
  have hdistinct := hs.distinct
  rw [ids_eq, List.nodup_append] at hdistinct
  obtain ⟨hstack, hdeferred, hapart⟩ := hdistinct
  unfold OverlayHistory.nestedDeferred
  split
  · next hmem =>
    have hmem := (any_id_iff _ _).mp hmem
    refine iff_of_true (fun hstack => hapart id hstack id hmem rfl) ?_
    rw [ids_eq]
    show (s.stack.map (·.id) ++ (setClose id close s.deferredStack).map (·.id)).Nodup
    rw [setClose_map_id, ← ids_eq]
    exact hs.distinct
  · next hnew =>
    have hnew : id ∉ s.deferredStack.map (·.id) := fun hmem => hnew ((any_id_iff _ _).mpr hmem)
    rw [ids_eq]
    show _ ↔ (s.stack.map (·.id) ++
      (s.deferredStack ++ [OverlayEntry.mk id close]).map OverlayEntry.id).Nodup
    rw [List.map_append, ← List.append_assoc, ← ids_eq]
    show _ ↔ (s.ids ++ [id]).Nodup
    rw [← List.concat_eq_append, List.nodup_concat, ids_eq, List.mem_append, not_or]
    rw [← ids_eq]
    exact ⟨fun h => ⟨⟨h, hnew⟩, hs.distinct⟩, fun h => h.1.1⟩

theorem Tidy.refresh (hs : s.Tidy) (id : String) (close : ℕ) : (s.refresh id close).ids.Nodup := by
  rw [ids_eq]
  show ((setClose id close s.stack).map (·.id) ++ s.deferredStack.map (·.id)).Nodup
  rw [setClose_map_id, ← ids_eq]
  exact hs.distinct

/-- With no pop owed the stack alone counts, and only an id that is not on it is added. -/
theorem Tidy.push (hs : s.Tidy) (hzero : s.pendingOwnPops = 0) {id : String} (close : ℕ)
    (hnew : ¬ s.stack.any (·.id = id) = true) : (s.push ⟨id, close⟩).ids.Nodup := by
  have hnil := hs.deferred hzero
  have hdistinct := hs.distinct
  rw [ids_eq, hnil] at hdistinct
  rw [ids_eq]
  show ((s.stack ++ [OverlayEntry.mk id close]).map OverlayEntry.id ++
    s.deferredStack.map OverlayEntry.id).Nodup
  rw [hnil, List.map_nil, List.append_nil, List.map_append]
  rw [List.map_nil, List.append_nil] at hdistinct
  show (s.stack.map (·.id) ++ [id]).Nodup
  rw [← List.concat_eq_append, List.nodup_concat]
  exact ⟨fun hmem => hnew ((any_id_iff _ _).mpr hmem), hdistinct⟩

theorem Tidy.openedNow (hs : s.Tidy) (hzero : s.pendingOwnPops = 0) (id : String) (close : ℕ) :
    (s.openedNow id close).Tidy := by
  have hnil := hs.deferred hzero
  have hsingle : ∀ s' : OverlayHistory, s'.stack = [⟨id, close⟩] → s'.deferredStack = [] →
      s'.Tidy := by
    intro s' hstack hdeferred
    refine ⟨?_, fun _ => hdeferred⟩
    rw [ids_eq, hstack, hdeferred]
    exact List.nodup_singleton id
  unfold OverlayHistory.openedNow
  split
  · exact ⟨hs.refresh id close, hs.deferred⟩
  · next hnew =>
    split
    · exact hsingle _ rfl hnil
    · split
      · exact hsingle _ rfl hnil
      · exact ⟨hs.push hzero close hnew, hs.deferred⟩

/-- A close takes an id away. -/
theorem Tidy.closed (hs : s.Tidy) (id : String) : (s.closed id).Tidy := by
  unfold OverlayHistory.closed
  split
  · next hmem =>
    refine ⟨?_, fun hzero => ?_⟩
    · refine List.Nodup.sublist ?_ hs.distinct
      exact (List.Sublist.append (List.Sublist.refl _) List.eraseP_sublist).map _
    · have hnil : s.deferredStack = [] := hs.deferred hzero
      rw [hnil] at hmem
      cases hmem
  · split
    · exact hs
    · next idx _ =>
      have hdistinct : ∀ s' : OverlayHistory, s'.stack = s.stack.eraseIdx idx →
          s'.deferredStack = s.deferredStack → s'.ids.Nodup := by
        intro s' hstack hdeferred
        refine List.Nodup.sublist ?_ hs.distinct
        unfold ids
        rw [hstack, hdeferred]
        exact (List.Sublist.append (List.eraseIdx_sublist _ _) (List.Sublist.refl _)).map _
      split
      · unfold closedTop
        split
        · refine ⟨hdistinct _ rfl rfl, fun h => ?_⟩
          cases h
        · refine ⟨hdistinct _ rfl rfl, fun h => ?_⟩
          cases h
      · exact ⟨hdistinct _ rfl rfl, hs.deferred⟩

/-- A popstate opens what was deferred, or closes the overlay on top. -/
theorem Tidy.popped (hs : s.Tidy) : s.popped.Tidy := by
  unfold OverlayHistory.popped
  split
  · split
    · next hmore =>
      refine ⟨hs.distinct, fun h => ?_⟩
      have hone : s.pendingOwnPops - 1 = 0 := h
      omega
    · refine ⟨?_, fun _ => rfl⟩
      rw [ids_eq]
      show ((s.stack ++ s.deferredStack).map OverlayEntry.id ++ []).Nodup
      rw [List.append_nil]
      exact hs.distinct
  · split
    · refine ⟨?_, hs.deferred⟩
      refine List.Nodup.sublist ?_ hs.distinct
      exact (List.Sublist.append (List.dropLast_sublist _) (List.Sublist.refl _)).map _
    · exact ⟨hs.distinct, hs.deferred⟩

/-- **A step keeps the ids distinct exactly when what it opens is fresh**, and never leaves
anything deferred without a pop that is owed. -/
theorem Tidy.step_iff (hs : s.Tidy) (a : Action) :
    (s.Fresh a ↔ (s.step a).ids.Nodup) ∧
      ((s.step a).pendingOwnPops = 0 → (s.step a).deferredStack = []) := by
  have hinstall : s.install.Tidy := ⟨hs.distinct, hs.deferred⟩
  have hkept : ∀ s' : OverlayHistory, s'.Tidy → ∀ {P : Prop}, P →
      (P ↔ s'.ids.Nodup) ∧ (s'.pendingOwnPops = 0 → s'.deferredStack = []) :=
    fun _ hs' _ hp => ⟨iff_of_true hp hs'.distinct, hs'.deferred⟩
  cases a with
  | opened isPhone id close =>
    cases isPhone with
    | false => exact hkept _ hs trivial
    | true =>
      show ((0 < s.pendingOwnPops → _) ↔ (s.opened true id close).ids.Nodup) ∧
        ((s.opened true id close).pendingOwnPops = 0 → (s.opened true id close).deferredStack = [])
      unfold OverlayHistory.opened
      rw [if_neg Bool.noConfusion]
      split
      · next hpos =>
        have hpos : 0 < s.pendingOwnPops := hpos
        rw [iff_true_intro hpos, true_imp_iff]
        have howed : (s.install.openedDeferred id close).pendingOwnPops = s.pendingOwnPops := by
          unfold OverlayHistory.openedDeferred
          split
          · split <;> rfl
          · split <;> rfl
        refine ⟨hinstall.openedDeferred id close, fun hzero => ?_⟩
        rw [howed] at hzero
        omega
      · next hzero =>
        exact hkept _ (hinstall.openedNow (Nat.eq_zero_of_not_pos hzero) id close)
          fun hpos => absurd hpos hzero
  | openedNested isPhone id close =>
    cases isPhone with
    | false => exact hkept _ hs trivial
    | true =>
      show ((0 < s.pendingOwnPops → _) ↔ (s.openedNested true id close).ids.Nodup) ∧
        ((s.openedNested true id close).pendingOwnPops = 0 →
          (s.openedNested true id close).deferredStack = [])
      unfold OverlayHistory.openedNested
      rw [if_neg Bool.noConfusion]
      split
      · next hpos =>
        have hpos : 0 < s.pendingOwnPops := hpos
        rw [iff_true_intro hpos, true_imp_iff]
        have howed : (s.install.nestedDeferred id close).pendingOwnPops = s.pendingOwnPops := by
          unfold OverlayHistory.nestedDeferred
          split <;> rfl
        refine ⟨hinstall.nestedDeferred id close, fun hzero => ?_⟩
        rw [howed] at hzero
        omega
      · next hzero =>
        have hfresh : 0 < s.pendingOwnPops → id ∉ s.stack.map (·.id) :=
          fun hpos => absurd hpos hzero
        split
        · exact hkept _ ⟨hinstall.refresh id close, hs.deferred⟩ hfresh
        · next hnew =>
          exact hkept _ ⟨hinstall.push (Nat.eq_zero_of_not_pos hzero) close hnew, hs.deferred⟩
            hfresh
  | closed id => exact hkept _ (hs.closed id) trivial
  | press => exact hkept _ ⟨hs.distinct, hs.deferred⟩ trivial
  | arrive =>
    refine hkept _ ?_ trivial
    show s.arrive.Tidy
    unfold OverlayHistory.arrive
    split
    · exact hs
    · dsimp only
      split
      · exact Tidy.popped ⟨hs.distinct, hs.deferred⟩
      · exact ⟨hs.distinct, hs.deferred⟩

end Ids

theorem tidy_boot : boot.Tidy := ⟨List.nodup_nil, fun _ => rfl⟩

/-- **The ids stay distinct exactly when nothing that is on the stack opens while a pop is
owed.** -/
theorem distinct_iff (acts : List Action) : Along step Fresh boot acts ↔
    ∀ pre, pre <+: acts → (pre.foldl step boot).ids.Nodup :=
  along_iff_forall_part_of (I := Tidy)
    (fun _ a hs hfresh => ⟨(hs.step_iff a).1.mp hfresh, (hs.step_iff a).2⟩)
    (fun _ hs => hs.distinct) (fun _ a hs hnodup => (hs.step_iff a).1.mpr hnodup) tidy_boot acts

/-! ### The traversals of the module -/

section Reach

variable {s s' : OverlayHistory}

/-- Each `back()` of the module that is under way will find an overlay entry. -/
structure Reaches (s : OverlayHistory) : Prop where
  reach : ∀ i, s.flight[i]? = some .own → i < s.entries.length
  strayed : s.strayed = 0

/-- The entries only grow, and nothing is asked for. -/
theorem Reaches.of_le (hs : s.Reaches) (hflight : s'.flight = s.flight)
    (hle : s.entries.length ≤ s'.entries.length) (hstrayed : s'.strayed = s.strayed) :
    s'.Reaches where
  reach := fun i hi => by
    rw [hflight] at hi
    exact (hs.reach i hi).trans_le hle
  strayed := hstrayed.trans hs.strayed

/-- A `back()` whose entry is not yet spoken for. -/
theorem Reaches.back (hs : s.Reaches) (hflight : s'.flight = s.flight ++ [.own])
    (hlt : s.flight.length < s.entries.length) (heq : s'.entries = s.entries)
    (hstrayed : s'.strayed = s.strayed) : s'.Reaches where
  reach := fun i hi => by
    rw [hflight] at hi
    rw [heq]
    rcases Nat.lt_trichotomy i s.flight.length with h | h | h
    · rw [List.getElem?_append_left h] at hi
      exact hs.reach i hi
    · rwa [h]
    · rw [List.getElem?_append_right h.le, List.getElem?_eq_none] at hi
      · cases hi
      · rw [List.length_singleton]
        omega
  strayed := hstrayed.trans hs.strayed

theorem Reaches.openedDeferred (hs : s.Reaches) (id : String) (close : ℕ) :
    (s.openedDeferred id close).Reaches := by
  unfold OverlayHistory.openedDeferred
  split
  · split <;> exact hs.of_le rfl le_rfl rfl
  · split <;> exact hs.of_le rfl le_rfl rfl

theorem Reaches.push (hs : s.Reaches) (e : OverlayEntry) : (s.push e).Reaches := by
  refine hs.of_le rfl ?_ rfl
  show s.entries.length ≤ (s.entries ++ [e.id]).length
  rw [List.length_append]
  exact Nat.le_add_right _ _

theorem Reaches.openedNow (hs : s.Reaches) (id : String) (close : ℕ)
    (hleaves : 1 < s.stack.length → id ∉ s.stack.map (·.id) →
      s.flight.length < s.entries.length) : (s.openedNow id close).Reaches := by
  unfold OverlayHistory.openedNow
  split
  · exact hs.of_le rfl le_rfl rfl
  · next hnew =>
    split
    · next hmany =>
      refine hs.back rfl (hleaves hmany fun hmem => ?_) rfl rfl
      exact hnew ((any_id_iff _ _).mpr hmem)
    · split
      · exact hs.of_le rfl (replaceState_length (s.run s.stack) id).ge rfl
      · exact hs.push _

theorem Reaches.closed (hs : s.Reaches) (id : String) (hleaves : s.Leaves (.closed id)) :
    (s.closed id).Reaches := by
  unfold OverlayHistory.closed
  split
  · exact hs.of_le rfl le_rfl rfl
  · split
    · exact hs
    · next idx hidx =>
      split
      · next htop =>
        unfold closedTop
        split
        · next hzero =>
          refine hs.back rfl (hleaves ⟨hzero, ?_⟩) rfl rfl
          rw [hidx, htop]
        · exact hs.of_le rfl le_rfl rfl
      · exact hs.of_le rfl le_rfl rfl

theorem Reaches.popped (hs : s.Reaches)
    (hleaves : 1 < s.pendingOwnPops → s.flight.length < s.entries.length) :
    s.popped.Reaches := by
  unfold OverlayHistory.popped
  split
  · split
    · next hmore => exact hs.back rfl (hleaves hmore) rfl rfl
    · refine hs.of_le rfl ?_ rfl
      rw [settle_entries]
      exact Nat.le_add_right _ _
  · split <;> exact hs.of_le rfl le_rfl rfl

/-- The traversal that arrives finds its entry, and those after it move up by one. -/
theorem Reaches.arrive (hs : s.Reaches) (hleaves : s.Leaves .arrive) : s.arrive.Reaches := by
  unfold OverlayHistory.arrive
  split
  · exact hs
  · next t flight hflight =>
    have hown : ¬ (t = .own ∧ s.entries = []) := by
      rintro ⟨rfl, hnil⟩
      have hpos := hs.reach 0 (by rw [hflight]; rfl)
      rw [hnil] at hpos
      exact absurd hpos (Nat.not_lt_zero 0)
    dsimp only
    rw [if_neg hown]
    set s₁ : OverlayHistory := { s with
      flight := flight
      entries := s.entries.dropLast } with hs₁
    have hreaches : s₁.Reaches := by
      refine ⟨fun i hi => ?_, hs.strayed⟩
      have hlt : i + 1 < s.entries.length := by
        apply hs.reach
        rw [hflight, List.getElem?_cons_succ]
        exact hi
      show i < s.entries.dropLast.length
      rw [List.length_dropLast]
      omega
    split
    · refine hreaches.popped fun hmore => ?_
      have hlt := hleaves hmore
      rw [hflight, List.length_cons] at hlt
      show flight.length < s.entries.dropLast.length
      rw [List.length_dropLast]
      omega
    · exact hreaches

/-- **A `back()` of the module that finds an entry left keeps finding it.** -/
theorem Reaches.step (hs : s.Reaches) {a : Action} (hleaves : s.Leaves a) :
    (s.step a).Reaches := by
  have hinstall : s.install.Reaches := ⟨hs.reach, hs.strayed⟩
  cases a with
  | opened isPhone id close =>
    show (s.opened isPhone id close).Reaches
    unfold OverlayHistory.opened
    split
    · exact hs
    · next hphone =>
      split
      · exact hinstall.openedDeferred id close
      · next hzero =>
        refine hinstall.openedNow id close fun hmany hnew => hleaves ⟨?_, ?_, hmany, hnew⟩
        · exact Bool.not_eq_false _ ▸ hphone
        · exact Nat.eq_zero_of_not_pos hzero
  | openedNested isPhone id close =>
    show (s.openedNested isPhone id close).Reaches
    unfold OverlayHistory.openedNested
    split
    · exact hs
    · split
      · unfold OverlayHistory.nestedDeferred
        split <;> exact hinstall.of_le rfl le_rfl rfl
      · split
        · exact hinstall.of_le rfl le_rfl rfl
        · exact hinstall.push _
  | closed id => exact hs.closed id hleaves
  | press =>
    refine ⟨fun i hi => ?_, hs.strayed⟩
    have hi : (s.flight ++ [Traversal.user])[i]? = some .own := hi
    rcases Nat.lt_or_ge i s.flight.length with h | h
    · rw [List.getElem?_append_left h] at hi
      exact hs.reach i hi
    · rw [List.getElem?_append_right h, List.getElem?_singleton] at hi
      split at hi <;> cases hi
  | arrive => exact hs.arrive hleaves

theorem reaches_boot : boot.Reaches where
  reach := fun i hi => by cases hi
  strayed := rfl

end Reach

/-! ### In step -/

/-- **The overlay history is in step in every run in which nothing that is on the stack
opens while a pop is owed, and each `back()` of the module finds fewer traversals under way
than there are overlay entries.**  The first condition alone decides whether the ids are
distinct. -/
theorem inStep_of_keeps (acts : List Action) :
    (Along step Keeps boot acts → ∀ pre, pre <+: acts → (pre.foldl step boot).InStep) ∧
      (Along step Fresh boot acts ↔
        ∀ pre, pre <+: acts → (pre.foldl step boot).ids.Nodup) := by
  refine ⟨fun hkeeps pre hpre => ?_, distinct_iff acts⟩
  have hall : (pre.foldl step boot).Tidy ∧ (pre.foldl step boot).Reaches := by
    obtain ⟨rest, rfl⟩ := hpre
    refine Along.foldl_invariant (I := fun s => s.Tidy ∧ s.Reaches) (fun s a hs hk => ?_)
      ⟨tidy_boot, reaches_boot⟩ hkeeps.of_append
    obtain ⟨hfresh, hdeferred⟩ := hs.1.step_iff a
    exact ⟨⟨hfresh.mp hk.1, hdeferred⟩, hs.2.step hk.2⟩
  exact ⟨hall.1.distinct, entries_eq pre, hall.2.strayed⟩

/-- A view and its child open, the child is closed by its own controls, and the user goes
back. -/
theorem inStep_of_keeps_nested :
    let acts : List Action :=
      [.opened true "settings" 0, .openedNested true "settings-detail" 1,
        .closed "settings-detail", .opened true "context" 2, .arrive, .press, .arrive]
    (acts.foldl step boot).InStep := by
  intro acts
  refine (inStep_of_keeps acts).1 ?_ acts (List.prefix_refl acts)
  decide

/-- A view reopens while the pop for its child is owed, and is both on the stack and
deferred; and a view is closed by its own controls while the user's way back is under way,
so that the module goes back once more, past its entries. -/
theorem not_inStep :
    ¬ ([.opened true "settings" 0, .openedNested true "settings-detail" 1,
        .closed "settings-detail", .opened true "settings" 2].foldl step boot).InStep ∧
      ¬ ([.opened true "settings" 0, .press, .closed "settings", .arrive, .arrive].foldl
        step boot).InStep := by
  refine ⟨fun h => ?_, fun h => ?_⟩
  · exact absurd h.distinct (by decide)
  · exact absurd h.strayed (by decide)

end OverlayHistory

end Pantoken
