import Pantoken.Lib.Observe
import Pantoken.Protocol.State

/-!
# What a transcript shows

Two transcripts of one turn have different timestamps, entry ids and ids of bubbles.
This file says what is left of an item without them, and which events of a turn fold to
transcripts that show the same.

## Main definitions

* `TranscriptItem.untimed` — an item without its times and synthetic ids.
* `TranscriptItem.shown` — the same, open or closed.
* `TranscriptItem.settled` — an item at the end of its run.
* `TranscriptItem.Pending` — a tool that is running exactly as long as it has no result.

## Main results

* `same_assistantDelta`, `same_toolStarted`, `same_toolFinished` — an event's timestamp and
  entry id do not show; `same_assistantDelta_append` — neither do the pieces of a text.
* `commutes_toolFinished_assistantDelta`, `commutes_toolFinished_toolStarted`,
  `commutes_toolFinished_toolFinished` — where a result comes does not matter.
* `shownItems_runCompleted`, `shownItems_interrupted` — a run's end, announced or not.
-/

namespace Pantoken

/-! ### Items without times and synthetic ids -/

/-- A tool without its times. -/
def ToolItem.untimed (t : ToolItem) : ToolItem := { t with startedAt := none, finishedAt := none }

/-- An item without its times and synthetic ids: a tool's call id stays. -/
def TranscriptItem.untimed : TranscriptItem → TranscriptItem
  | .user u => .user { u with id := "", ts := none, entryId := none }
  | .assistant a => .assistant { a with id := "", ts := none, entryId := none, completedAt := none }
  | .tool t => .tool t.untimed
  | .notice n => .notice { n with id := "" }
  | .inject i => .inject { i with id := "", ts := none }

/-- An item without its times and synthetic ids, whether it is open or closed. -/
def TranscriptItem.shown (i : TranscriptItem) : TranscriptItem :=
  match i.untimed with
  | .assistant a => .assistant { a with streaming := false }
  | i => i

/-- Among the tools started and those with a result, a tool that is running exactly as long
as it has no result, and has no output then. -/
def TranscriptItem.Pending (started finished : List String) : TranscriptItem → Prop
  | .tool t =>
    t.id ∈ started ∧ (t.status = .running ↔ t.id ∉ finished) ∧
      (t.id ∉ finished → t.output = none)
  | _ => True

/-- An item at the end of its run: a bubble is closed and a running tool interrupted. -/
def TranscriptItem.settled : TranscriptItem → TranscriptItem
  | .assistant a => .assistant { a with streaming := false }
  | .tool t => if t.status = .running then .tool { t with status := .interrupted } else .tool t
  | i => i

def SessionState.untimedItems (s : SessionState) : List TranscriptItem :=
  s.items.map TranscriptItem.untimed

/-- What the transcript shows. -/
def SessionState.shownItems (s : SessionState) : List TranscriptItem :=
  s.items.map TranscriptItem.shown

/-! ### The edits, on what is left -/

/-- A bubble without its times and ids, when it has just been opened. -/
def blankBubble : TranscriptItem := .assistant ⟨"", "", "", true, none, none, none⟩

theorem untimed_appendDelta (ch : Option AssistantDeltaChannel) (text : String)
    (i : TranscriptItem) :
    (appendDelta ch text i).untimed = appendDelta ch text i.untimed := by
  cases i with
  | assistant a => rcases ch with _ | _ | _ <;> rfl
  | user | tool | notice | inject => rfl

theorem untimed_closeItem (c : Option String) (i : TranscriptItem) :
    (closeItem c i).untimed = closeItem none i.untimed := by
  cases i with
  | assistant a => by_cases h : a.streaming = true <;> simp [closeItem, TranscriptItem.untimed, h]
  | user | tool | notice | inject => rfl

theorem isSome_openAssistant_untimed (items : List TranscriptItem) :
    (openAssistant (items.map TranscriptItem.untimed)).isSome = (openAssistant items).isSome := by
  rcases List.eq_nil_or_concat' items with rfl | ⟨xs, x, rfl⟩
  · rfl
  · cases x with
    | assistant a =>
      rw [List.map_append]
      simp only [List.map_cons, List.map_nil, TranscriptItem.untimed, openAssistant_concat]
      split <;> rfl
    | user | tool | notice | inject => simp [openAssistant, TranscriptItem.untimed]

/-- A delta, on what is left of the items. -/
theorem untimed_foldDelta (items : List TranscriptItem) (ts text : String)
    (ch : Option AssistantDeltaChannel) (e : Option String) :
    (foldDelta items ts text ch e).map TranscriptItem.untimed =
      (if (openAssistant items).isSome then items.map TranscriptItem.untimed
        else items.map TranscriptItem.untimed ++ [blankBubble]).mapLast (appendDelta ch text) := by
  unfold foldDelta
  rw [List.map_mapLast_of_comm (untimed_appendDelta ch text)]
  split
  · rfl
  · rw [List.map_append]
    rfl

/-- An item pushed, on what is left of the items. -/
theorem untimed_pushItem (items : List TranscriptItem) (i : TranscriptItem) :
    (pushItem items i).map TranscriptItem.untimed =
      pushItem (items.map TranscriptItem.untimed) i.untimed := by
  unfold pushItem closeOpenAssistant
  rw [List.map_append, List.map_mapLast_of_comm (untimed_closeItem none)]
  rfl

/-- An edit of a tool, on what is left of the items. -/
theorem untimed_mapTools {f g : ToolItem → ToolItem}
    (h : ∀ t, (f t).untimed = (g t.untimed).untimed) (callId : String)
    (items : List TranscriptItem) :
    (mapTools callId f items).map TranscriptItem.untimed =
      (mapTools callId g (items.map TranscriptItem.untimed)).map TranscriptItem.untimed := by
  unfold mapTools
  rw [List.map_map, List.map_map, List.map_map]
  refine List.map_congr_left fun i _ => ?_
  cases i with
  | tool t =>
    by_cases hid : t.id = callId
    · simpa [TranscriptItem.untimed, hid, ToolItem.untimed] using h t
    · simp [TranscriptItem.untimed, hid, ToolItem.untimed]
  | user | assistant | notice | inject => rfl

/-! ### Events that show the same -/

section Same

variable (base base' : SessionEventBase)

/-- The time of a delta and its entry id do not show. -/
theorem same_assistantDelta (text : String) (ch : Option AssistantDeltaChannel)
    (e e' : Option String) :
    Same foldEvent SessionState.untimedItems [.assistantDelta base text ch e]
      [.assistantDelta base' text ch e'] := by
  intro s t hst
  have hopen : (openAssistant s.items).isSome = (openAssistant t.items).isSome := by
    rw [← isSome_openAssistant_untimed, ← isSome_openAssistant_untimed t.items]
    exact congrArg (fun items => (openAssistant items).isSome) hst
  show (foldDelta s.items _ text ch e).map _ = (foldDelta t.items _ text ch e').map _
  rw [untimed_foldDelta, untimed_foldDelta, hopen]
  exact congrArg (fun items =>
    (if (openAssistant t.items).isSome then items else items ++ [blankBubble]).mapLast
      (appendDelta ch text)) hst

/-- **A text arrives whole or in pieces**, which does not show. -/
theorem same_assistantDelta_append (text text' : String) (ch : AssistantDeltaChannel)
    (e e' : Option String) :
    Same foldEvent SessionState.untimedItems
      [.assistantDelta base text (some ch) e, .assistantDelta base' text' (some ch) e']
      [.assistantDelta base (text ++ text') (some ch) e] := by
  have hjoin (s : SessionState) :
      [SessionDriverEvent.assistantDelta base (text ++ text') (some ch) e].foldl foldEvent s =
        [SessionDriverEvent.assistantDelta base text (some ch) e,
          .assistantDelta base' text' (some ch) e'].foldl foldEvent s := by
    simp only [List.foldl_cons, List.foldl_nil, foldEvent]
    rw [foldDelta_foldDelta _ rfl]
    rfl
  exact ((same_assistantDelta base base _ _ e e).of_eq hjoin).symm

/-- The time of a tool's start does not show. -/
theorem same_toolStarted (name callId : String) (input : Option Json)
    (label description : Option String) :
    Same foldEvent SessionState.untimedItems
      [.toolStarted base name callId input label description]
      [.toolStarted base' name callId input label description] := by
  intro s t hst
  show (pushItem s.items _).map _ = (pushItem t.items _).map _
  rw [untimed_pushItem, untimed_pushItem]
  exact congrArg (pushItem · _) hst

/-- The time of a tool's end does not show. -/
theorem same_toolFinished (callId : String) (success : Bool) (output : Option Json)
    (images : Option (List ImageContent)) (interrupted : Option Bool) :
    Same foldEvent SessionState.untimedItems
      [.toolFinished base callId success output images interrupted]
      [.toolFinished base' callId success output images interrupted] := by
  have h (ts : String) (t : ToolItem) :
      (finishTool success output images interrupted ts t).untimed =
        (finishTool success output images interrupted "" t.untimed).untimed := rfl
  intro s t hst
  calc (mapTools callId _ s.items).map TranscriptItem.untimed
      = (mapTools callId _ s.untimedItems).map TranscriptItem.untimed :=
        untimed_mapTools (h _) callId s.items
    _ = (mapTools callId _ t.untimedItems).map TranscriptItem.untimed := by rw [hst]
    _ = (mapTools callId _ t.items).map TranscriptItem.untimed :=
        (untimed_mapTools (h _) callId t.items).symm

end Same

/-! ### A result moves -/

section Commutes

variable (callId : String) (f : ToolItem → ToolItem)

/-- An edit of tools leaves the open bubble. -/
theorem isSome_openAssistant_mapTools (items : List TranscriptItem) :
    (openAssistant (mapTools callId f items)).isSome = (openAssistant items).isSome := by
  unfold mapTools
  rcases List.eq_nil_or_concat' items with rfl | ⟨xs, x, rfl⟩
  · rfl
  · cases x with
    | assistant a => simp [openAssistant]
    | tool t =>
      by_cases h : t.id = callId <;> simp [openAssistant, h]
    | user | notice | inject => simp [openAssistant]

/-- An edit of tools and one of the last bubble do not interfere. -/
theorem mapTools_mapLast {g : TranscriptItem → TranscriptItem}
    (hg : ∀ i, g i = i ∨ ∃ a b, i = .assistant a ∧ g i = .assistant b)
    (items : List TranscriptItem) :
    mapTools callId f (items.mapLast g) = (mapTools callId f items).mapLast g := by
  have htool (t : ToolItem) : g (.tool t) = .tool t := by
    rcases hg (.tool t) with h | ⟨a, b, h, -⟩
    · exact h
    · cases h
  refine List.map_mapLast_of_comm (fun i => ?_) items
  cases i with
  | tool t =>
    rw [htool]
    dsimp only
    split <;> rw [htool]
  | user u | assistant u | notice u | inject u =>
    dsimp only
    split
    · next t ht =>
      rcases hg _ with h | ⟨a, b, -, h⟩
      · cases h.symm.trans ht
      · cases h.symm.trans ht
    · rfl

theorem mapTools_foldDelta (items : List TranscriptItem) (ts text : String)
    (ch : Option AssistantDeltaChannel) (e : Option String) :
    mapTools callId f (foldDelta items ts text ch e) =
      foldDelta (mapTools callId f items) ts text ch e := by
  have happend (i : TranscriptItem) : appendDelta ch text i = i ∨
      ∃ a b, i = .assistant a ∧ appendDelta ch text i = .assistant b := by
    cases i with
    | assistant a => exact .inr ⟨a, _, rfl, rfl⟩
    | user | tool | notice | inject => exact .inl rfl
  unfold foldDelta
  rw [mapTools_mapLast callId f happend]
  dsimp only
  rw [isSome_openAssistant_mapTools]
  split
  · rfl
  · simp [mapTools]

theorem mapTools_pushItem (items : List TranscriptItem) {i : TranscriptItem}
    (hi : ∀ t, i = .tool t → t.id ≠ callId) :
    mapTools callId f (pushItem items i) = pushItem (mapTools callId f items) i := by
  have hclose (i : TranscriptItem) : closeItem none i = i ∨
      ∃ a b, i = .assistant a ∧ closeItem none i = .assistant b := by
    cases i with
    | assistant a =>
      refine .inr ⟨a, if a.streaming then { a with streaming := false } else a, rfl, ?_⟩
      simp only [closeItem, Option.none_or]
      split <;> rfl
    | user | tool | notice | inject => exact .inl rfl
  unfold pushItem closeOpenAssistant
  rw [← mapTools_mapLast callId f hclose]
  unfold mapTools
  rw [List.map_append]
  congr 1
  cases i with
  | tool t => simp [hi t rfl]
  | user | assistant | notice | inject => rfl

theorem mapTools_mapTools {callId' : String} (h : callId ≠ callId') (g : ToolItem → ToolItem)
    (hf : ∀ t, (f t).id = t.id) (hg : ∀ t, (g t).id = t.id) (items : List TranscriptItem) :
    mapTools callId f (mapTools callId' g items) =
      mapTools callId' g (mapTools callId f items) := by
  unfold mapTools
  rw [List.map_map, List.map_map]
  refine List.map_congr_left fun i _ => ?_
  cases i with
  | tool t =>
    simp only [Function.comp_apply]
    by_cases h1 : t.id = callId
    · have h2 : t.id ≠ callId' := fun h' => h (h1.symm.trans h')
      simp [h1, h, hf]
    · by_cases h2 : t.id = callId' <;> simp [h1, h2, hg, h.symm]
  | user | assistant | notice | inject => rfl

end Commutes

section Commutes

variable (base base' : SessionEventBase) (callId : String) (success success' : Bool)
  (output output' : Option Json) (images images' : Option (List ImageContent))
  (interrupted interrupted' : Option Bool)

theorem commutes_toolFinished_assistantDelta (text : String) (ch : Option AssistantDeltaChannel)
    (e : Option String) :
    Commutes foldEvent (.toolFinished base callId success output images interrupted)
      (.assistantDelta base' text ch e) := by
  intro s
  simp only [foldEvent]
  rw [mapTools_foldDelta]

theorem commutes_toolFinished_toolStarted {callId' : String} (h : callId ≠ callId')
    (name : String) (input : Option Json) (label description : Option String) :
    Commutes foldEvent (.toolFinished base callId success output images interrupted)
      (.toolStarted base' name callId' input label description) := by
  intro s
  simp only [foldEvent]
  rw [mapTools_pushItem]
  rintro t ⟨⟩
  exact h.symm

theorem commutes_toolFinished_toolFinished {callId' : String} (h : callId ≠ callId') :
    Commutes foldEvent (.toolFinished base callId success output images interrupted)
      (.toolFinished base' callId' success' output' images' interrupted') := by
  intro s
  simp only [foldEvent]
  rw [mapTools_mapTools callId (finishTool success output images interrupted base.timestamp) h
    (finishTool success' output' images' interrupted' base'.timestamp)
    (fun _ => rfl) (fun _ => rfl)]

end Commutes

/-! ### Tools and their results -/

section Pending

variable {started finished : List String} {items : List TranscriptItem}

theorem pending_foldDelta (h : ∀ i ∈ items, i.Pending started finished) (ts text : String)
    (ch : Option AssistantDeltaChannel) (e : Option String) :
    ∀ i ∈ foldDelta items ts text ch e, i.Pending started finished := by
  refine List.forall_mapLast (fun i hi => ?_) ?_
  · cases i with
    | tool t => exact hi
    | assistant | user | notice | inject => trivial
  · intro i hi
    split at hi
    · exact h i hi
    · rcases List.mem_append.mp hi with hi | hi
      · exact h i hi
      · rw [List.mem_singleton.mp hi]
        trivial

/-- A tool that starts has no result yet. -/
theorem pending_pushItem (h : ∀ i ∈ items, i.Pending started finished) {t : ToolItem}
    (hid : t.id ∉ finished) (hs : t.status = .running) (ho : t.output = none) :
    ∀ i ∈ pushItem items (.tool t), i.Pending (started ++ [t.id]) finished := by
  intro i hi
  rcases List.mem_append.mp hi with hi | hi
  · have hclose : ∀ j ∈ closeOpenAssistant items none, j.Pending started finished := by
      refine List.forall_mapLast (fun j hj => ?_) h
      cases j with
      | tool t => exact hj
      | assistant a => simp only [closeItem]; split <;> trivial
      | user | notice | inject => trivial
    cases i with
    | tool u =>
      obtain ⟨hu, hrest⟩ := hclose _ hi
      exact ⟨List.mem_append_left _ hu, hrest⟩
    | assistant | user | notice | inject => trivial
  · rw [List.mem_singleton.mp hi]
    exact ⟨by simp, by simp [hs, hid], fun _ => ho⟩

/-- A tool with a result has settled. -/
theorem pending_finishTool (h : ∀ i ∈ items, i.Pending started finished) (callId : String)
    (success : Bool) (output : Option Json) (images : Option (List ImageContent)) (ts : String) :
    ∀ i ∈ mapTools callId (finishTool success output images none ts) items,
      i.Pending started (finished ++ [callId]) := by
  intro i hi
  obtain ⟨j, hj, rfl⟩ := List.mem_map.mp hi
  have hpend := h j hj
  cases j with
  | tool t =>
    obtain ⟨hs, hrun, hout⟩ := hpend
    by_cases hid : t.id = callId
    · have hne : finishedStatus success none ≠ .running := by cases success <;> decide
      simp only [hid, if_true]
      exact ⟨by simpa [finishTool, hid] using hs, by simp [finishTool, hid, hne],
        fun hnot => by simp [finishTool, hid] at hnot⟩
    · simp only [hid, if_false]
      exact ⟨hs, by simp [hrun, hid], fun hnot => hout fun hm => hnot (by simp [hm])⟩
  | assistant | user | notice | inject => trivial

end Pending

/-! ### The end of a run -/

theorem shown_stampItem (kind : EntryIdKind) (e : String) (i j : TranscriptItem)
    (h : stampItem kind e i = some j) : j.shown = i.shown := by
  cases i with
  | user u | assistant u =>
    simp only [stampItem, Option.ite_none_right_eq_some, Option.some.injEq] at h
    rw [← h.2]
    rfl
  | tool | notice | inject => cases h

theorem shown_stampEntryId (items : List TranscriptItem) (kind : EntryIdKind)
    (e : Option String) :
    (stampEntryId items kind e).map TranscriptItem.shown = items.map TranscriptItem.shown := by
  cases e with
  | none => rfl
  | some e => exact List.map_modifyLastWhere (shown_stampItem kind e) items

theorem shown_interruptItem (ts : String) (i : TranscriptItem) :
    (interruptItem ts i).shown = i.untimed.settled := by
  cases i with
  | tool t =>
    by_cases h : t.status = .running <;>
      simp [interruptItem, TranscriptItem.shown, TranscriptItem.untimed, TranscriptItem.settled,
        ToolItem.untimed, h]
  | assistant | user | notice | inject => rfl

theorem settled_untimed_closeItem (c : Option String) (i : TranscriptItem) :
    (closeItem c i).untimed.settled = i.untimed.settled := by
  rw [← shown_interruptItem "", ← shown_interruptItem ""]
  cases i with
  | assistant a => by_cases h : a.streaming = true <;>
      simp [closeItem, interruptItem, TranscriptItem.shown, TranscriptItem.untimed, h]
  | user | tool | notice | inject => rfl

/-- **A completed run shows every bubble closed and every running tool interrupted.** -/
theorem shownItems_runCompleted (s : SessionState) (base : SessionEventBase)
    {snapshot : SessionSnapshot} (hidle : snapshot.status ≠ .running) (u a : Option String) :
    (foldEvent s (.runCompleted base snapshot u a)).shownItems =
      s.untimedItems.map TranscriptItem.settled := by
  have hclose : (foldSnapshot s snapshot base.timestamp).items =
      closeOpenAssistant s.items (some base.timestamp) := by
    simp [foldSnapshot, hidle, applySnapshot]
  show (stampEntryId (stampEntryId _ _ a) _ u).map TranscriptItem.shown = _
  rw [shown_stampEntryId, shown_stampEntryId, hclose]
  unfold interruptRunningTools SessionState.untimedItems
  rw [List.map_map, List.map_map]
  calc (closeOpenAssistant s.items (some base.timestamp)).map
        (TranscriptItem.shown ∘ interruptItem base.timestamp)
      = (closeOpenAssistant s.items (some base.timestamp)).map
          (TranscriptItem.settled ∘ TranscriptItem.untimed) :=
        List.map_congr_left fun i _ => shown_interruptItem base.timestamp i
    _ = s.items.map (TranscriptItem.settled ∘ TranscriptItem.untimed) :=
        List.map_mapLast (fun i => settled_untimed_closeItem _ i) s.items

/-- What interrupting some tools one by one does to an item. -/
def interruptedItem (ts : String) (ids : List String) : TranscriptItem → TranscriptItem
  | .tool t => if t.id ∈ ids then .tool (finishTool false none none (some true) ts t) else .tool t
  | i => i

theorem items_interrupted (base : SessionEventBase) (ids : List String) (s : SessionState) :
    (foldAllFrom s (ids.map (.toolFinished base · false none none (some true)))).items =
      s.items.map (interruptedItem base.timestamp ids) := by
  induction ids generalizing s with
  | nil =>
    refine (List.map_id'' (fun i => ?_) s.items).symm
    cases i with
    | tool t => simp [interruptedItem]
    | assistant | user | notice | inject => rfl
  | cons id ids ih =>
    rw [List.map_cons, foldAllFrom_cons, ih]
    simp only [foldEvent, mapTools, List.map_map]
    refine List.map_congr_left fun i _ => ?_
    cases i with
    | tool t =>
      by_cases hid : t.id = id
      · -- a repeated id is interrupted again, to no effect
        by_cases hmem : id ∈ ids <;> simp [interruptedItem, finishTool, hid, hmem]
      · by_cases hmem : t.id ∈ ids <;> simp [interruptedItem, hid, hmem]
    | assistant | user | notice | inject => rfl

/-- **Interrupting the tools without a result ends a run the same way.** -/
theorem shownItems_interrupted {s : SessionState} {started finished : List String}
    (h : ∀ i ∈ s.items, i.Pending started finished) (base : SessionEventBase) :
    (foldAllFrom s ((started.filter (· ∉ finished)).map
        (.toolFinished base · false none none (some true)))).shownItems =
      s.untimedItems.map TranscriptItem.settled := by
  unfold SessionState.shownItems SessionState.untimedItems
  rw [items_interrupted, List.map_map, List.map_map]
  refine List.map_congr_left fun i hi => ?_
  cases i with
  | tool t =>
    obtain ⟨hs, hrun, hout⟩ := h _ hi
    by_cases hfin : t.id ∈ finished
    · have hne : t.status ≠ .running := fun h => hrun.mp h hfin
      simp [interruptedItem, hfin, TranscriptItem.shown, TranscriptItem.untimed,
        TranscriptItem.settled, ToolItem.untimed, hne]
    · have hst : t.status = .running := hrun.mpr hfin
      simp [interruptedItem, hs, hfin, TranscriptItem.shown, TranscriptItem.untimed,
        TranscriptItem.settled, ToolItem.untimed, finishTool, finishedStatus, hst, hout hfin]
  | assistant | user | notice | inject => rfl

end Pantoken
