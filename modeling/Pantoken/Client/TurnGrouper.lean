import Mathlib.Data.List.Basic
import Pantoken.Client.TranscriptView
import Pantoken.Lib.PMap
import Pantoken.Lib.Utf16

/-!
# The caching grouper

`createTurnGrouper` keeps the turns it built, by the id of the turn and a fingerprint of its
items, and uses them again when both agree.  The fingerprint has lengths in place of texts,
and leaves fields out.

An item carries the identity of the object that is its output, and an object has one content;
a map of the page numbers these objects as they are met, by any grouper.

## Main definitions

* `itemFingerprint`, `turnFingerprint` — what is compared.
* `Grouper.call`, `results` — a call of the grouper, and what a sequence of calls returns.
* `Tells` — **the fingerprints tell the turns of a call from those of the call before.**

## Main results

* `results_eq_iff` — the grouper returns what `groupTurns` does exactly when the
  fingerprints tell the turns of consecutive calls apart.
-/

namespace Pantoken
namespace TranscriptView

/-! ### Fingerprints -/

/-- The output of an item, when it is an object. -/
def outputObject? : TranscriptItem → Option Json
  | .tool t =>
    match t.output with
    | some (.array values) => some (.array values)
    | some (.object fields) => some (.object fields)
    | _ => none
  | _ => none

/-- A transcript item, with the object its output is, when it is one; that object has the
content it has in the memory of the page. -/
structure HeldItem (memory : ℕ → Json) where
  item : TranscriptItem
  outputRef : ℕ
  held : ∀ output ∈ outputObject? item, output = memory outputRef

variable {memory : ℕ → Json}

/-- The objects of the page, in the order in which `objectFingerprintIds` numbered them. -/
def numberObjects (numbered refs : List ℕ) : List ℕ :=
  refs.foldl (fun numbered ref => if numbered.contains ref then numbered else numbered ++ [ref])
    numbered

/-- The number of an object; the counter starts at 1. -/
def objectFingerprintId (numbered : List ℕ) (ref : ℕ) : ℕ := numbered.idxOf ref + 1

section Fingerprint

-- `numberString` is `String(x)` of a number
variable (numberString : Json → String) (numbered : List ℕ)

/-- `outputFingerprint` -/
def outputFingerprint (outputRef : ℕ) : Option Json → String
  | none => ""
  | some .null => "null"
  | some (.array _) | some (.object _) => "o:" ++ toString (objectFingerprintId numbered outputRef)
  | some (.str s) => "s:" ++ toString (utf16Length s.toList)
  | some (.bool b) => "boolean:" ++ toString b
  | some (.int n) => "number:" ++ numberString (.int n)
  | some (.float x) => "number:" ++ numberString (.float x)

def toolStatusString : ToolStatus → String
  | .running => "running"
  | .ok => "ok"
  | .error => "error"
  | .interrupted => "interrupted"

def noticeLevelString : NoticeLevel → String
  | .info => "info"
  | .warning => "warning"
  | .error => "error"

/-- `itemFingerprint` -/
def itemFingerprint (h : HeldItem memory) : String :=
  "\u001f".intercalate <|
    match h.item with
    | .assistant a =>
      ["assistant", a.id, a.ts.getD "", a.completedAt.getD "", a.entryId.getD "",
        if a.streaming then "1" else "0", toString (utf16Length a.text.toList),
        toString (utf16Length a.thinking.toList)]
    | .tool t =>
      ["tool", t.id, t.name, toolStatusString t.status, t.startedAt.getD "",
        t.finishedAt.getD "", toString (t.images.elim 0 List.length),
        toString (t.text.elim 0 (utf16Length ·.toList)),
        t.progress.elim "" fun x => numberString (.float x),
        outputFingerprint numberString numbered h.outputRef t.output]
    | .user u =>
      ["user", u.id, u.ts.getD "", u.entryId.getD "", u.delivery.getD "",
        u.deliveryError.getD "", toString (utf16Length u.text.toList),
        toString (u.images.elim 0 List.length)]
    | .inject i =>
      ["inject", i.id, i.ts.getD "", i.customType, if i.display then "1" else "0",
        if i.turnBoundary then "1" else "0", toString (utf16Length i.text.toList)]
    | .notice n => ["notice", n.id, noticeLevelString n.level, n.text]

/-- `turnFingerprint` -/
def turnFingerprint (input : TurnInput (HeldItem memory)) : String :=
  "\u001e".intercalate (input.items.map (itemFingerprint numberString numbered))

end Fingerprint

/-- The object an item's output is. -/
def HeldItem.object? (h : HeldItem memory) : Option ℕ :=
  (outputObject? h.item).map fun _ => h.outputRef

/-! ### The grouper -/

/-- What a turn shows. -/
def TurnInput.shown (input : TurnInput (HeldItem memory)) : TurnInput TranscriptItem :=
  input.map HeldItem.item

/-- `CachedTurn` -/
structure CachedTurn where
  fingerprint : String
  turn : TurnGroup

/-- A call, and the objects other groupers numbered since the one before it. -/
structure GrouperCall (memory : ℕ → Json) where
  numbered : List ℕ
  items : List (HeldItem memory)
  lastTurnActive : Bool

namespace GrouperCall

/-- The objects the call finds numbered, or numbers. -/
def objects (c : GrouperCall memory) : List ℕ := c.numbered ++ c.items.filterMap HeldItem.object?

/-- The turns of the call's items. -/
def inputs (c : GrouperCall memory) : List (TurnInput (HeldItem memory)) :=
  collectTurnInputsBy (fun h => startsTurn h.item) c.items

/-- What `groupTurns` returns on the same input. -/
def grouped (c : GrouperCall memory) : List TurnGroup :=
  groupTurns (c.items.map HeldItem.item) c.lastTurnActive

end GrouperCall

/-- The grouper's cache, with the objects numbered so far. -/
structure Grouper where
  cache : PMap String CachedTurn
  numbered : List ℕ

/-- The turn of an input, which is new or the cached one. -/
def cachedTurn (numberString : Json → String) (cache : PMap String CachedTurn)
    (numbered : List ℕ) (index : ℕ) (input : TurnInput (HeldItem memory)) : String × CachedTurn :=
  let shown := input.shown
  let id := turnId shown.user shown.body index
  let fingerprint := turnFingerprint numberString numbered input
  match cache id with
  | some cached =>
    if cached.fingerprint = fingerprint then (id, cached)
    else (id, ⟨fingerprint, buildTurn shown.user shown.body index⟩)
  | none => (id, ⟨fingerprint, buildTurn shown.user shown.body index⟩)

/-- A call of the function `createTurnGrouper` returns.  An object has the same number
whenever it is asked for, so that those of the call are numbered first. -/
def Grouper.call (numberString : Json → String) (g : Grouper) (c : GrouperCall memory) :
    Grouper × List TurnGroup :=
  let numbered := numberObjects g.numbered c.objects
  let entries := c.inputs.mapIdx (cachedTurn numberString g.cache numbered)
  let nextCache := entries.foldl (fun cache e => cache.insert e.1 e.2) PMap.empty
  (⟨nextCache, numbered⟩, applyLastTurnActive (entries.map (·.2.turn)) c.lastTurnActive)

/-- What a sequence of calls returns. -/
def results (numberString : Json → String) (g : Grouper) :
    List (GrouperCall memory) → List (List TurnGroup)
  | [] => []
  | c :: calls =>
    let (g, turns) := g.call numberString c
    turns :: results numberString g calls

/-! ### Objects keep their numbers -/

theorem prefix_numberObjects (numbered refs : List ℕ) :
    numbered <+: numberObjects numbered refs := by
  unfold numberObjects
  induction refs generalizing numbered with
  | nil => exact List.prefix_refl _
  | cons ref refs ih =>
    rw [List.foldl_cons]
    refine List.IsPrefix.trans ?_ (ih _)
    split
    · exact List.prefix_refl _
    · exact List.prefix_append _ _

theorem mem_numberObjects {numbered refs : List ℕ} {ref : ℕ} (h : ref ∈ refs) :
    ref ∈ numberObjects numbered refs := by
  obtain ⟨before, after, rfl⟩ := List.append_of_mem h
  unfold numberObjects
  rw [List.foldl_append, List.foldl_cons]
  refine (prefix_numberObjects _ after).subset ?_
  split
  · next hmem => exact List.contains_iff_mem.mp hmem
  · exact List.mem_append_right _ (List.mem_singleton_self _)

/-- The objects of a turn have numbers. -/
def Numbered (numbered : List ℕ) (input : TurnInput (HeldItem memory)) : Prop :=
  ∀ h ∈ input.items, ∀ ref ∈ h.object?, ref ∈ numbered

section Stable

variable (numberString : Json → String) {numbered numbered' : List ℕ}

theorem itemFingerprint_stable (hn : numbered <+: numbered') {h : HeldItem memory}
    (hh : ∀ ref ∈ h.object?, ref ∈ numbered) :
    itemFingerprint numberString numbered' h = itemFingerprint numberString numbered h := by
  obtain ⟨more, rfl⟩ := hn
  have hid : ∀ ref ∈ h.object?, objectFingerprintId (numbered ++ more) ref =
      objectFingerprintId numbered ref := fun ref href => by
    rw [objectFingerprintId, objectFingerprintId, List.idxOf_append_of_mem (hh ref href)]
  obtain ⟨item, ref, hheld⟩ := h
  cases item with
  | tool t =>
    obtain ⟨id, name, label, description, input, output, images, text, progress, status, started,
      finished⟩ := t
    rcases output with _ | _ | _ | _ | _ | _ | _ | _
    case some.array | some.object =>
      simp only [itemFingerprint, outputFingerprint, hid ref rfl]
    all_goals rfl
  | user | assistant | notice | inject => rfl

/-- **A turn has the same fingerprint whenever it is taken.** -/
theorem turnFingerprint_stable (hn : numbered <+: numbered') {input : TurnInput (HeldItem memory)}
    (hi : Numbered numbered input) :
    turnFingerprint numberString numbered' input = turnFingerprint numberString numbered input := by
  unfold turnFingerprint
  congr 1
  exact List.map_congr_left fun h hh => itemFingerprint_stable numberString hn (hi h hh)

end Stable

/-! ### The turns of held items -/

/-- The id of a turn that is not empty. -/
def TurnInput.id (input : TurnInput (HeldItem memory)) : String :=
  turnId input.shown.user input.shown.body 0

/-- What `buildTurn` makes of a turn that is not empty. -/
def TurnInput.built (input : TurnInput (HeldItem memory)) : TurnGroup :=
  buildTurn input.shown.user input.shown.body 0

theorem turnId_eq {input : TurnInput (HeldItem memory)} (h : input.items ≠ []) (index : ℕ) :
    turnId input.shown.user input.shown.body index = input.id := by
  obtain ⟨user, body⟩ := input
  cases user with
  | some u => rfl
  | none =>
    cases body with
    | nil => exact absurd rfl h
    | cons it body => rfl

theorem buildTurn_eq {input : TurnInput (HeldItem memory)} (h : input.items ≠ []) (index : ℕ) :
    buildTurn input.shown.user input.shown.body index = input.built := by
  simp only [TurnInput.built, buildTurn, turnId_eq h]

theorem built_user (input : TurnInput (HeldItem memory)) :
    input.built.user = input.shown.user := rfl

theorem built_items (input : TurnInput (HeldItem memory)) : input.built.items = input.shown.items :=
  items_buildTurn ..

/-- A turn is its head and its items. -/
theorem TurnInput.ext_items {α : Type*} {a b : TurnInput α} (huser : a.user = b.user)
    (hitems : a.items = b.items) : a = b := by
  obtain ⟨user, body⟩ := a
  obtain ⟨user', body'⟩ := b
  cases huser
  have hbody : body = body' := List.append_cancel_left hitems
  rw [hbody]

def Collecting.map {α β : Type*} (f : α → β) (s : Collecting α) : Collecting β :=
  ⟨s.inputs.map (TurnInput.map f), s.user.map f, s.body.map f, s.started⟩

theorem Collecting.map_flush {α β : Type*} (f : α → β) (s : Collecting α) :
    (s.map f).flush = s.flush.map f := by
  unfold Collecting.flush
  cases h : s.started <;> simp [Collecting.map, TurnInput.map, h]

theorem collectTurnInputsBy_map {α β : Type*} (f : α → β) (starts : β → Bool) (items : List α) :
    collectTurnInputsBy starts (items.map f) =
      (collectTurnInputsBy (fun a => starts (f a)) items).map (TurnInput.map f) := by
  have hstep : ∀ (s : Collecting α) (a : α),
      (s.map f).step starts (f a) = (s.step (fun a => starts (f a)) a).map f := by
    intro s a
    unfold Collecting.step
    rw [Collecting.map_flush]
    cases h : starts (f a) <;> simp [Collecting.map, h]
  have hfold : ∀ (its : List α) (s : Collecting α),
      (its.map f).foldl (Collecting.step starts) (s.map f) =
        (its.foldl (Collecting.step fun a => starts (f a)) s).map f := by
    intro its
    induction its with
    | nil => exact fun s => rfl
    | cons a its ih =>
      intro s
      rw [List.map_cons, List.foldl_cons, hstep, ih, List.foldl_cons]
  unfold collectTurnInputsBy
  rw [show (Collecting.init : Collecting β) = Collecting.init.map f from rfl, hfold,
    Collecting.map_flush]
  rfl

/-! ### Calls after calls -/

section Calls

variable (numberString : Json → String)

/-- The cache entry of a turn that is built anew. -/
def freshTurn (numbered : List ℕ) (input : TurnInput (HeldItem memory)) : CachedTurn :=
  ⟨turnFingerprint numberString numbered input, input.built⟩

/-- The last turn with an id. -/
def lastTurn? (inputs : List (TurnInput (HeldItem memory))) (id : String) :
    Option (TurnInput (HeldItem memory)) :=
  inputs.reverse.find? fun a => a.id = id

/-- The cache after a call on these turns. -/
def remembered (numbered : List ℕ) (inputs : List (TurnInput (HeldItem memory))) :
    PMap String CachedTurn :=
  fun id => (lastTurn? inputs id).map (freshTurn numberString numbered)

/-- The fingerprints tell the turns of a call from those of the call before: a turn with the
id and the fingerprint of the last turn of that id shows the same. -/
def Tells (numbered : List ℕ) (prev cur : List (TurnInput (HeldItem memory))) : Prop :=
  ∀ a, ∀ b ∈ cur, lastTurn? prev b.id = some a →
    turnFingerprint numberString numbered a = turnFingerprint numberString numbered b →
    a.shown = b.shown

/-- Call after call, the fingerprints tell the turns from those of the call before. -/
def AllTell (numbered : List ℕ) (prev : List (TurnInput (HeldItem memory))) :
    List (GrouperCall memory) → Prop
  | [] => True
  | c :: calls =>
    let numbered := numberObjects numbered c.objects
    Tells numberString numbered prev c.inputs ∧ AllTell numbered c.inputs calls

theorem foldl_insert_freshTurn (numbered : List ℕ) (inputs : List (TurnInput (HeldItem memory))) :
    (inputs.map fun b => (b.id, freshTurn numberString numbered b)).foldl
      (fun cache e => cache.insert e.1 e.2) PMap.empty =
        remembered numberString numbered inputs := by
  induction inputs using List.reverseRecOn with
  | nil => rfl
  | append_singleton inputs b ih =>
    rw [List.map_append, List.foldl_append, ih]
    funext id
    simp only [List.map_cons, List.map_nil, List.foldl_cons, List.foldl_nil, remembered,
      PMap.insert_apply, lastTurn?, List.reverse_append, List.reverse_singleton,
      List.singleton_append, List.find?_cons]
    rcases eq_or_ne b.id id with h | h
    · simp [h]
    · simp [h, h.symm]

variable {numberString}

theorem numbered_inputs (numbered : List ℕ) (c : GrouperCall memory) :
    ∀ input ∈ c.inputs, Numbered (numberObjects numbered c.objects) input := by
  intro input hinput h hh ref href
  have hmem : h ∈ c.items := by
    have hall := flatMap_collectTurnInputsBy (fun h => startsTurn h.item) c.items
    rw [← hall]
    exact List.mem_flatMap.mpr ⟨input, hinput, hh⟩
  exact mem_numberObjects (List.mem_append_right _ (List.mem_filterMap.mpr ⟨h, hmem, href⟩))

theorem inputs_ne_nil (c : GrouperCall memory) : ∀ input ∈ c.inputs, input.items ≠ [] :=
  fun _ h => items_ne_nil_of_mem h

/-- What `groupTurns` returns, in terms of the turns of the call. -/
theorem grouped_eq (c : GrouperCall memory) :
    c.grouped = applyLastTurnActive (c.inputs.map TurnInput.built) c.lastTurnActive := by
  unfold GrouperCall.grouped groupTurns collectTurnInputs
  rw [collectTurnInputsBy_map]
  congr 1
  refine List.ext_getElem (by simp [GrouperCall.inputs]) fun i h h' => ?_
  simp only [List.getElem_mapIdx, List.getElem_map]
  exact buildTurn_eq (inputs_ne_nil c _ (List.getElem_mem _)) i

variable (numberString) in
/-- A turn is taken from the cache, or built anew. -/
theorem cachedTurn_spec (cache : PMap String CachedTurn) (numbered : List ℕ) (index : ℕ)
    {b : TurnInput (HeldItem memory)} (hb : b.items ≠ []) :
    (∃ cached, cache b.id = some cached ∧
      cached.fingerprint = turnFingerprint numberString numbered b ∧
      cachedTurn numberString cache numbered index b = (b.id, cached)) ∨
    cachedTurn numberString cache numbered index b = (b.id, freshTurn numberString numbered b) ∧
      ∀ cached, cache b.id = some cached →
        cached.fingerprint ≠ turnFingerprint numberString numbered b := by
  unfold cachedTurn
  simp only [turnId_eq hb index, buildTurn_eq hb index]
  cases h : cache b.id with
  | none => exact Or.inr ⟨rfl, fun _ h' => by cases h'⟩
  | some cached =>
    dsimp only
    split
    · next heq => exact Or.inl ⟨cached, rfl, heq, rfl⟩
    · next hne => exact Or.inr ⟨rfl, fun _ h' => by cases h'; exact hne⟩

/-- The grouper after a call on the turns `prev`. -/
structure Follows (numberString : Json → String) (g : Grouper)
    (prev : List (TurnInput (HeldItem memory))) : Prop where
  cache : g.cache = remembered numberString g.numbered prev
  numbered : ∀ input ∈ prev, Numbered g.numbered input

variable {g : Grouper} {prev : List (TurnInput (HeldItem memory))}

/-- What the cache has of a turn's id is the last turn of that id, with the fingerprint it
still has. -/
theorem Follows.cached (hg : Follows numberString g prev) (refs : List ℕ) {id : String}
    {cached : CachedTurn} (h : g.cache id = some cached) :
    ∃ a, lastTurn? prev id = some a ∧ cached.turn = a.built ∧
      cached.fingerprint = turnFingerprint numberString (numberObjects g.numbered refs) a := by
  rw [hg.cache] at h
  obtain ⟨a, ha, rfl⟩ := Option.map_eq_some_iff.mp h
  have hmem : a ∈ prev := List.mem_reverse.mp (List.mem_of_find?_eq_some ha)
  exact ⟨a, ha, rfl, (turnFingerprint_stable numberString (prefix_numberObjects _ _)
    (hg.numbered a hmem)).symm⟩

/-- **When the fingerprints tell the turns apart, each is what `buildTurn` makes of it.** -/
theorem Follows.cachedTurn_eq (hg : Follows numberString g prev) {c : GrouperCall memory}
    (ht : Tells numberString (numberObjects g.numbered c.objects) prev c.inputs) (index : ℕ)
    {b : TurnInput (HeldItem memory)} (hb : b ∈ c.inputs) :
    cachedTurn numberString g.cache (numberObjects g.numbered c.objects) index b =
      (b.id, freshTurn numberString (numberObjects g.numbered c.objects) b) := by
  rcases cachedTurn_spec numberString g.cache
    (numberObjects g.numbered c.objects) index (inputs_ne_nil c b hb) with
    ⟨cached, hcached, hfp, heq⟩ | ⟨heq, -⟩
  · obtain ⟨a, ha, hturn, hfp'⟩ := hg.cached c.objects hcached
    have hshown := ht a b hb ha (hfp'.symm.trans hfp)
    have hbuilt : a.built = b.built := by rw [TurnInput.built, TurnInput.built, hshown]
    obtain ⟨fingerprint, turn⟩ := cached
    rw [heq, freshTurn]
    exact congrArg _ (by rw [← hbuilt, ← hturn, ← hfp])
  · exact heq

theorem Follows.entries_eq (hg : Follows numberString g prev) {c : GrouperCall memory}
    (ht : Tells numberString (numberObjects g.numbered c.objects) prev c.inputs) :
    c.inputs.mapIdx (cachedTurn numberString g.cache (numberObjects g.numbered c.objects)) =
      c.inputs.map fun b =>
        (b.id, freshTurn numberString (numberObjects g.numbered c.objects) b) := by
  refine List.ext_getElem (by simp) fun i h h' => ?_
  simp only [List.getElem_mapIdx, List.getElem_map]
  exact hg.cachedTurn_eq ht i (List.getElem_mem _)

theorem Follows.call (hg : Follows numberString g prev) {c : GrouperCall memory}
    (ht : Tells numberString (numberObjects g.numbered c.objects) prev c.inputs) :
    Follows numberString (g.call numberString c).1 c.inputs where
  cache := by
    unfold Grouper.call
    dsimp only
    rw [hg.entries_eq ht, foldl_insert_freshTurn]
  numbered := numbered_inputs g.numbered c

/-- What the turns of a call are told apart by. -/
def TurnGroup.shown (turn : TurnGroup) : Option TranscriptItem × List TranscriptItem :=
  (turn.user, turn.items)

theorem shown_applyLastTurnActive (turns : List TurnGroup) (active : Bool) :
    (applyLastTurnActive turns active).map TurnGroup.shown = turns.map TurnGroup.shown := by
  unfold applyLastTurnActive
  split
  · rfl
  · refine List.map_mapLast (fun turn => ?_) turns
    rw [TurnGroup.shown, items_inactiveLastTurn]
    rfl

/-- **One call returns what `groupTurns` does exactly when the fingerprints tell its turns
from those of the call before.** -/
theorem Follows.call_eq_iff (hg : Follows numberString g prev) (c : GrouperCall memory) :
    (g.call numberString c).2 = c.grouped ↔
      Tells numberString (numberObjects g.numbered c.objects) prev c.inputs := by
  rw [grouped_eq]
  constructor
  · -- equal results show the same items, and a turn is its head and its items
    intro h a b hb ha hfp
    have h' := congrArg (List.map TurnGroup.shown) h
    unfold Grouper.call at h'
    rw [shown_applyLastTurnActive, shown_applyLastTurnActive] at h'
    obtain ⟨i, hi, rfl⟩ := List.mem_iff_getElem.mp hb
    have hat := congrArg (fun turns : List _ => turns[i]?) h'
    simp only [List.getElem?_map, List.getElem?_mapIdx, List.getElem?_eq_getElem hi,
      Option.map_some, Option.some.injEq] at hat
    rcases cachedTurn_spec numberString g.cache
      (numberObjects g.numbered c.objects) i (inputs_ne_nil c _ hb) with
      ⟨cached, hcached, -, heq⟩ | ⟨-, hnone⟩
    · obtain ⟨a', ha', hturn, -⟩ := hg.cached c.objects hcached
      rw [ha] at ha'
      cases ha'
      rw [heq, hturn, TurnGroup.shown, TurnGroup.shown, built_user, built_user, built_items,
        built_items] at hat
      exact TurnInput.ext_items (Prod.ext_iff.mp hat).1 (Prod.ext_iff.mp hat).2
    · -- a turn built anew had no turn of its fingerprint before it
      have hcached : g.cache c.inputs[i].id = some (freshTurn numberString g.numbered a) := by
        rw [hg.cache, remembered, ha]
        rfl
      obtain ⟨a', ha', -, hfp'⟩ := hg.cached c.objects hcached
      rw [ha] at ha'
      cases ha'
      exact absurd (hfp'.trans hfp) (hnone _ hcached)
  · intro ht
    unfold Grouper.call
    dsimp only
    rw [hg.entries_eq ht, List.map_map]
    rfl

theorem Follows.results_iff (hg : Follows numberString g prev) (calls : List (GrouperCall memory)) :
    results numberString g calls = calls.map GrouperCall.grouped ↔
      AllTell numberString g.numbered prev calls := by
  induction calls generalizing g prev with
  | nil => simp [results, AllTell]
  | cons c calls ih =>
    simp only [results, AllTell, List.map_cons, List.cons.injEq, hg.call_eq_iff c]
    exact and_congr_right fun ht => ih (hg.call ht)

end Calls

/-- **A new grouper returns what `groupTurns` does, call after call, exactly when the
fingerprints tell the turns of each call from those of the call before.** -/
theorem results_eq_iff (numberString : Json → String) (numbered : List ℕ)
    (calls : List (GrouperCall memory)) :
    results numberString ⟨PMap.empty, numbered⟩ calls = calls.map GrouperCall.grouped ↔
      AllTell numberString numbered [] calls :=
  have hg : Follows numberString ⟨PMap.empty, numbered⟩ [] := ⟨rfl, by simp⟩
  hg.results_iff calls

/-- A finished turn whose tool card gets its label after the call. -/
def labelled (label : Option String) : List (HeldItem fun _ => .null) :=
  [⟨.user ⟨"u1", "look", none, none, some "0", none, none, none⟩, 0, by nofun⟩,
    ⟨.tool ⟨"t1", "shell", label, none, none, none, none, none, none, .ok, some "1", some "2"⟩, 0,
      by nofun⟩]

/-- **The turn stays as it was.** -/
theorem not_results_eq :
    ¬ results (fun _ => "") ⟨PMap.empty, []⟩ [⟨[], labelled none, false⟩,
        ⟨[], labelled (some "List files"), false⟩] =
      [GrouperCall.grouped ⟨[], labelled none, false⟩,
        GrouperCall.grouped ⟨[], labelled (some "List files"), false⟩] := by
  intro h
  have hlabels := congrArg (List.map fun turns : List TurnGroup => turns.flatMap fun turn =>
    turn.work.map fun it => match it with
      | .tool t => t.label
      | _ => none) h
  revert hlabels
  decide

end TranscriptView
end Pantoken
