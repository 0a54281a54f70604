import Pantoken.Lib.OpenClose
import Pantoken.Polytoken.HistorySeed
import Pantoken.Polytoken.LiveEvents
import Pantoken.Protocol.OpenBubble

/-!
# The end of a replay

A seed replays the history of a session and ends with a snapshot.  A call of the history
opens a tool item, a result closes the items of its id that are there by then, and a call
whose id has no result at all is interrupted at the end.

## Main definitions

* `historyMarks` — the calls and the results of a history, in order.
* `ownResults` — the results that belong to a call.
* `buildBranchSeed` — the seed of a session that is opened.
* `Settles` — nothing runs or streams, and a call with a result of its own shows it.
* `Answered` — a call whose id has a result has one after it, and the last of them is its own.

## Main results

* `settles_iff` — **an idle seed settles everything exactly when its calls are answered.**
* `reused_id_runs` — a call that reuses an id runs for ever.
-/

namespace Pantoken

open OpenClose

/-! ### The history -/

/-- The call of a block. -/
def blockCall (b : Json) : Option String :=
  match (b.get "type").bind Json.asStr with
  | some "tool_use" => some (((b.get "id").bind Json.asStr).getD "")
  | _ => none

/-- What an item says of the calls. -/
def itemMarks (item : Json) : List (OpenClose.Mark String ToolStatus) :=
  match (item.get "type").bind Json.asStr with
  | some "assistant" =>
    match (item.get "blocks").bind Json.asArray with
    | some blocks => (blocks.filterMap blockCall).map .opens
    | none => []
  | some "tool_result" =>
    [.closes (((item.get "call_id").bind Json.asStr).getD "")
      (if ((item.get "is_error").bind Json.asBool).getD false then .error else .ok)]
  | _ => []

def historyMarks (items : List Json) : List (OpenClose.Mark String ToolStatus) :=
  items.flatMap itemMarks

/-- The mark calls the id. -/
def isCallOf (k : String) : OpenClose.Mark String ToolStatus → Bool
  | .opens k' => decide (k' = k)
  | .closes _ _ => false

/-- The results of the call between two parts of a history: those before the next call of its
id and, of the first call of its id, those that came before it. -/
def ownResults (k : String) (pre post : List (OpenClose.Mark String ToolStatus)) :
    List ToolStatus :=
  (if k ∈ opened pre then [] else closings k pre) ++
    closings k (post.takeWhile fun m => !isCallOf k m)

/-- Every call whose id has a result has one after it; if one of them is its own, the last
after it ends as one of its own does. -/
def Answered (items : List Json) : Prop :=
  ∀ pre k post, historyMarks items = pre ++ .opens k :: post →
    (closings k (historyMarks items) ≠ [] → closings k post ≠ []) ∧
      (ownResults k pre post ≠ [] →
        ∀ last, (closings k post).getLast? = some last → last ∈ ownResults k pre post)

/-! ### The transcript -/

/-- The tools of a transcript. -/
def toolEntry : TranscriptItem → Option (String × ToolStatus)
  | .tool t => some (t.id, t.status)
  | _ => none

def toolEntries (items : List TranscriptItem) : List (String × ToolStatus) :=
  items.filterMap toolEntry

/-- Nothing runs or streams, and the tool of a call that has results of its own shows one. -/
structure Settles (items : List Json) (state : SessionState) : Prop where
  tools : state.items.any (·.isRunningTool) = false
  bubbles : state.items.any (·.isStreaming) = false
  own : ∀ pre k post, historyMarks items = pre ++ .opens k :: post →
    ownResults k pre post ≠ [] →
      ∃ status ∈ ownResults k pre post,
        (toolEntries state.items)[(opened pre).length]? = some (k, status)

/-- `build_branch_seed` -/
def buildBranchSeed (base base' : SessionEventBase) (snapshot : SessionSnapshot)
    (history : List SessionDriverEvent) : List SessionDriverEvent :=
  .sessionOpened base snapshot :: history ++
    if history.isEmpty then [] else [.sessionUpdated base' snapshot]

/-! ### An event of a replay -/

/-- The events a replay is made of. -/
def SessionDriverEvent.isReplay : SessionDriverEvent → Bool
  | .sessionOpened .. | .sessionUpdated .. | .userMessage .. | .customMessage ..
  | .assistantDelta .. | .toolStarted .. | .toolFinished .. => true
  | _ => false

/-- What an event says of the calls. -/
def SessionDriverEvent.toolMark : SessionDriverEvent → Option (OpenClose.Mark String ToolStatus)
  | .toolStarted _ _ callId _ _ _ => some (.opens callId)
  | .toolFinished _ callId success _ _ interrupted =>
    some (.closes callId (finishedStatus success interrupted))
  | _ => none

section Events

variable {items : List TranscriptItem}

theorem toolEntries_congr {xs ys : List TranscriptItem} (h : xs.map toolEntry = ys.map toolEntry) :
    toolEntries xs = toolEntries ys := by
  have hid : ∀ zs : List TranscriptItem, toolEntries zs = (zs.map toolEntry).filterMap id := by
    intro zs
    rw [List.filterMap_map]
    rfl
  rw [hid, hid, h]

theorem toolEntry_closeItem (c : Option String) (i : TranscriptItem) :
    toolEntry (closeItem c i) = toolEntry i := by
  cases i with
  | assistant a =>
    simp only [closeItem]
    split_ifs <;> rfl
  | user u | tool t | notice n | inject n => rfl

theorem toolEntries_closeOpenAssistant (c : Option String) :
    toolEntries (closeOpenAssistant items c) = toolEntries items :=
  toolEntries_congr (List.map_mapLast (toolEntry_closeItem c) items)

theorem toolEntries_pushItem (i : TranscriptItem) :
    toolEntries (pushItem items i) = toolEntries items ++ toolEntries [i] := by
  rw [pushItem, toolEntries, List.filterMap_append, ← toolEntries,
    toolEntries_closeOpenAssistant]
  rfl

theorem toolEntries_foldDelta (ts text : String) (ch : Option AssistantDeltaChannel)
    (e : Option String) : toolEntries (foldDelta items ts text ch e) = toolEntries items := by
  have happend : ∀ xs : List TranscriptItem,
      toolEntries (xs.mapLast (appendDelta ch text)) = toolEntries xs := by
    intro xs
    apply toolEntries_congr
    apply List.map_mapLast
    intro i
    cases i <;> rfl
  rw [foldDelta, happend]
  split_ifs
  · rfl
  · rw [toolEntries, List.filterMap_append, ← toolEntries]
    exact List.append_nil _

theorem toolEntries_mapTools (callId : String) (success : Bool) (output : Option Json)
    (images : Option (List ImageContent)) (interrupted : Option Bool) (ts : String) :
    toolEntries (mapTools callId (finishTool success output images interrupted ts) items) =
      step .running (toolEntries items) (.closes callId (finishedStatus success interrupted)) := by
  rw [toolEntries, mapTools, List.filterMap_map, step, toolEntries, List.map_filterMap]
  apply List.filterMap_congr
  intro i _
  cases i with
  | tool t =>
    by_cases hid : t.id = callId
    · simp [toolEntry, finishTool, hid]
    · simp [toolEntry, hid]
  | user u | assistant a | notice n | inject n => rfl

/-- An event of a replay does to the tools what it says of the calls. -/
theorem toolEntries_foldEvent (s : SessionState) {ev : SessionDriverEvent}
    (h : ev.isReplay = true) :
    toolEntries (foldEvent s ev).items =
      ev.toolMark.toList.foldl (step .running) (toolEntries s.items) := by
  have hsnapshot : ∀ snapshot ts,
      toolEntries (foldSnapshot s snapshot ts).items = toolEntries s.items := by
    intro snapshot ts
    unfold foldSnapshot
    dsimp only
    split
    · exact toolEntries_closeOpenAssistant _
    · rfl
  cases ev with
  | sessionOpened base snapshot => exact hsnapshot snapshot base.timestamp
  | sessionUpdated base snapshot => exact hsnapshot snapshot base.timestamp
  | userMessage => exact (toolEntries_pushItem _).trans (List.append_nil _)
  | customMessage => exact (toolEntries_pushItem _).trans (List.append_nil _)
  | assistantDelta => exact toolEntries_foldDelta ..
  | toolStarted => exact toolEntries_pushItem _
  | toolFinished => exact toolEntries_mapTools ..
  | _ => cases h

theorem toolEntries_foldAllFrom {evs : List SessionDriverEvent} :
    ∀ s : SessionState, (∀ ev ∈ evs, ev.isReplay = true) →
      toolEntries (foldAllFrom s evs).items =
        (evs.filterMap (·.toolMark)).foldl (step .running) (toolEntries s.items) := by
  induction evs with
  | nil => exact fun _ _ => rfl
  | cons ev evs ih =>
    intro s h
    rw [foldAllFrom_cons, ih _ fun e he => h e (List.mem_cons_of_mem _ he),
      toolEntries_foldEvent s (h ev List.mem_cons_self), List.filterMap_cons]
    cases ev.toolMark <;> rfl

end Events

/-! ### The walk -/

/-- The walk has emitted what the history says of the calls. -/
structure SeedFold.Tracks (st : SeedFold) (marks : List (OpenClose.Mark String ToolStatus)) :
    Prop where
  replays : ∀ ev ∈ st.out, ev.isReplay = true
  said : st.out.filterMap (·.toolMark) = marks
  started : st.startedCallIds = opened marks
  finished : ∀ k, k ∈ st.finishedCallIds ↔ closings k marks ≠ []

section Walk

variable {st : SeedFold} {marks : List (OpenClose.Mark String ToolStatus)}

theorem SeedFold.Tracks.append_nil (h : st.Tracks marks)
    {ms : List (OpenClose.Mark String ToolStatus)} (hms : ms = []) : st.Tracks (marks ++ ms) := by
  rw [hms, List.append_nil]
  exact h

/-- An event beside the calls. -/
theorem SeedFold.Tracks.push (h : st.Tracks marks) {ev : SessionDriverEvent}
    (hev : ev.isReplay = true) (hmark : ev.toolMark = none) : (st.push ev).Tracks marks where
  replays := by
    intro e he
    rcases List.mem_append.mp he with he | he
    · exact h.replays e he
    · exact List.mem_singleton.mp he ▸ hev
  said := by
    rw [SeedFold.push, List.filterMap_append, h.said, List.filterMap_cons_none hmark]
    exact List.append_nil _
  started := h.started
  finished := h.finished

theorem SeedFold.Tracks.seq (h : st.Tracks marks) (n : Nat) :
    ({ st with seq := n } : SeedFold).Tracks marks := ⟨h.replays, h.said, h.started, h.finished⟩

theorem SeedFold.Tracks.call (h : st.Tracks marks) (base : SessionEventBase) (name k : String)
    (input : Option Json) :
    ({ st.push (.toolStarted base name k input none none) with
      startedCallIds := st.startedCallIds ++ [k] } : SeedFold).Tracks (marks ++ [.opens k]) where
  replays := by
    intro e he
    rcases List.mem_append.mp he with he | he
    · exact h.replays e he
    · rw [List.mem_singleton.mp he]
      rfl
  said := by
    rw [SeedFold.push, List.filterMap_append, h.said]
    rfl
  started := by
    rw [opened_append, h.started]
    rfl
  finished := by
    intro k'
    rw [closings_append, closings_opens, closings_nil, List.append_nil]
    exact h.finished k'

theorem SeedFold.Tracks.result (h : st.Tracks marks) (base : SessionEventBase) (k : String)
    (success : Bool) (output : Option Json) (images : Option (List ImageContent)) :
    ({ st.push (.toolFinished base k success output images none) with
      finishedCallIds := st.finishedCallIds ++ [k] } : SeedFold).Tracks
        (marks ++ [.closes k (finishedStatus success none)]) where
  replays := by
    intro e he
    rcases List.mem_append.mp he with he | he
    · exact h.replays e he
    · rw [List.mem_singleton.mp he]
      rfl
  said := by
    rw [SeedFold.push, List.filterMap_append, h.said]
    rfl
  started := by
    rw [opened_append]
    exact h.started.trans (List.append_nil _).symm
  finished := by
    intro k'
    change k' ∈ st.finishedCallIds ++ [k] ↔ _
    rw [closings_append, closings_closes, closings_nil, List.mem_append, h.finished k',
      List.mem_singleton]
    by_cases hk : k = k'
    · simp [hk]
    · have hne : ¬ k' = k := fun heq => hk heq.symm
      simp [hk, hne]

theorem seedBlock_tracks (h : st.Tracks marks) (base : SessionEventBase)
    (promptId : Option String) (b : Json) :
    (seedBlock base promptId st b).Tracks (marks ++ (blockCall b).toList.map .opens) := by
  unfold seedBlock blockCall
  dsimp only
  split
  · next hb =>
    rw [hb]
    exact (h.push rfl rfl).append_nil rfl
  · next hb =>
    rw [hb]
    exact (h.push rfl rfl).append_nil rfl
  · next hb =>
    rw [hb]
    exact h.call ..
  · next hb =>
    split
    · next hb' => exact absurd hb' hb
    · exact h.append_nil rfl

theorem seedBlocks_tracks (base : SessionEventBase) (promptId : Option String)
    (blocks : List Json) : ∀ {st marks}, SeedFold.Tracks st marks →
      (blocks.foldl (seedBlock base promptId) st).Tracks
        (marks ++ (blocks.filterMap blockCall).map .opens) := by
  induction blocks with
  | nil => exact fun h => (List.append_nil _).symm ▸ h
  | cons b blocks ih =>
    intro st marks h
    have hrest := ih (seedBlock_tracks h base promptId b)
    rw [List.append_assoc] at hrest
    cases hb : blockCall b <;> simpa [hb] using hrest

theorem seedItem_tracks (ctx : HistoryMapCtx) (h : st.Tracks marks) (item : Json) (i : Nat) :
    (seedItem ctx st (item, i)).Tracks (marks ++ itemMarks item) := by
  unfold seedItem itemMarks
  dsimp only
  split
  · next ht =>
    -- a message
    rw [ht]
    split
    · exact (h.push rfl rfl).append_nil rfl
    · exact ((h.push rfl rfl).seq _).append_nil rfl
  · next ht =>
    rw [ht]
    cases (item.get "blocks").bind Json.asArray with
    | some blocks => exact seedBlocks_tracks _ _ blocks h
    | none => exact h.append_nil rfl
  · next ht =>
    rw [ht]
    have hstatus : finishedStatus (liftToolResult (item.get "content")
        ((item.get "is_error").bind Json.asBool)).success none =
          if ((item.get "is_error").bind Json.asBool).getD false then .error else .ok := by
      rw [liftToolResult_eq]
      cases ((item.get "is_error").bind Json.asBool).getD false <;> rfl
    change SeedFold.Tracks _ (marks ++ [.closes _ (if _ then .error else .ok)])
    rw [← hstatus]
    exact h.result ..
  · next ht =>
    rw [ht]
    exact (h.push rfl rfl).append_nil rfl
  · next ht =>
    rw [ht]
    split
    · exact (h.push rfl rfl).append_nil rfl
    · exact h.append_nil rfl
  · next ht =>
    rw [ht]
    split
    · exact (h.push rfl rfl).append_nil rfl
    · exact h.append_nil rfl
  · next ht =>
    rw [ht]
    split
    · exact (h.push rfl rfl).append_nil rfl
    · exact ((h.push rfl rfl).seq _).append_nil rfl
  · next ht =>
    rw [ht]
    exact (h.push rfl rfl).append_nil rfl
  · next ht =>
    rw [ht]
    exact (h.push rfl rfl).append_nil rfl
  · next hassistant hresult _ _ _ _ _ _ =>
    split
    · next ht => exact absurd ht hassistant
    · next ht => exact absurd ht hresult
    · exact h.append_nil rfl

theorem seedItems_tracks (ctx : HistoryMapCtx) (items : List Json) : ∀ (n : Nat) {st marks},
    SeedFold.Tracks st marks →
      ((items.zipIdx n).foldl (seedItem ctx) st).Tracks (marks ++ historyMarks items) := by
  induction items with
  | nil => exact fun _ _ _ h => h.append_nil rfl
  | cons item items ih =>
    intro n st marks h
    have hrest := ih (n + 1) (seedItem_tracks ctx h item n)
    rw [List.append_assoc] at hrest
    rw [List.zipIdx_cons, List.foldl_cons, historyMarks, List.flatMap_cons]
    exact hrest

end Walk

/-! ### The whole seed -/

section Seed

variable (ctx : HistoryMapCtx) (items : List Json)

/-- The calls whose id has no result. -/
def unanswered : List String :=
  (opened (historyMarks items)).filter fun k => (closings k (historyMarks items)).isEmpty

/-- What the seed says of the calls: what the history says, and the ends of the unanswered. -/
def seedMarks : List (OpenClose.Mark String ToolStatus) :=
  historyMarks items ++ (unanswered items).map (.closes · .interrupted)

theorem historyToSeedEvents_marks :
    (∀ ev ∈ historyToSeedEvents items ctx, ev.isReplay = true) ∧
      (historyToSeedEvents items ctx).filterMap (·.toolMark) = seedMarks items := by
  rcases List.eq_nil_or_concat' items with rfl | ⟨init, last, hitems⟩
  · exact ⟨fun _ h => absurd h List.not_mem_nil, rfl⟩
  · have hstart : SeedFold.Tracks ⟨[], 0, [], []⟩ [] :=
      ⟨fun _ h => absurd h List.not_mem_nil, rfl, rfl, fun _ => by simp⟩
    have htracks := seedItems_tracks ctx items 0 hstart
    rw [List.nil_append] at htracks
    have hlast : items.getLast? = some last := by rw [hitems, List.getLast?_concat]
    unfold historyToSeedEvents
    rw [hlast]
    dsimp only
    set st := items.zipIdx.foldl (seedItem ctx) ⟨[], 0, [], []⟩
    have horphans : st.startedCallIds.filter (· ∉ st.finishedCallIds) = unanswered items := by
      rw [htracks.started, unanswered]
      apply List.filter_congr
      intro k _
      rw [Bool.eq_iff_iff, decide_eq_true_eq, List.isEmpty_iff, htracks.finished k, not_not]
    rw [horphans]
    constructor
    · intro ev hev
      rcases List.mem_append.mp hev with hev | hev
      · exact htracks.replays ev hev
      · obtain ⟨k, _, rfl⟩ := List.mem_map.mp hev
        rfl
    · rw [List.filterMap_append, htracks.said, seedMarks, List.filterMap_map,
        ← List.filterMap_eq_map]
      rfl

/-- The ends of the unanswered close their ids and no others. -/
theorem closings_interrupted (k : String) (ks : List String) :
    (closings k (ks.map fun k' => OpenClose.Mark.closes k' ToolStatus.interrupted)).getLast? =
      if k ∈ ks then some .interrupted else none := by
  induction ks using List.reverseRecOn with
  | nil => rfl
  | append_singleton ks k' ih =>
    rw [List.map_append, closings_append, List.getLast?_append, ih, List.map_singleton,
      closings_closes, closings_nil]
    by_cases hk : k' = k
    · simp [hk]
    · have hne : ¬ k = k' := fun h => hk h.symm
      simp [hk, hne]

variable {items}

/-- **How a call ends**: interrupted when its id has no result, and else as the last result
after it says, if there is one. -/
theorem seedMarks_status {pre post : List (OpenClose.Mark String ToolStatus)} {k : String}
    (h : historyMarks items = pre ++ .opens k :: post) :
    (entries .running (seedMarks items))[(opened pre).length]? =
      some (k, if closings k (historyMarks items) = [] then .interrupted
        else (closings k post).getLast?.getD .running) := by
  have hget := getElem?_entries ToolStatus.running k pre
    (post ++ (unanswered items).map (.closes · .interrupted))
  rw [← List.cons_append, ← List.append_assoc, ← h, ← seedMarks, closings_append,
    List.getLast?_append, closings_interrupted] at hget
  rw [hget]
  have hopened : k ∈ opened (historyMarks items) := mem_opened_iff.mpr ⟨pre, post, h⟩
  split_ifs with hmem hnil hnil
  · rfl
  · exact absurd (List.isEmpty_iff.mp (List.mem_filter.mp hmem).2) hnil
  · exact absurd (List.mem_filter.mpr ⟨hopened, List.isEmpty_iff.mpr hnil⟩) hmem
  · rfl

/-- No result leaves a tool running. -/
theorem ne_running_of_mem_closings {k : String} {status : ToolStatus}
    (h : status ∈ closings k (historyMarks items)) : status ≠ .running := by
  obtain ⟨m, hm, hclosing⟩ := List.mem_filterMap.mp h
  obtain ⟨item, _, hitem⟩ := List.mem_flatMap.mp hm
  unfold itemMarks at hitem
  split at hitem
  · split at hitem
    · obtain ⟨_, _, rfl⟩ := List.mem_map.mp hitem
      cases hclosing
    · cases hitem
  · rw [List.mem_singleton.mp hitem, closing] at hclosing
    split_ifs at hclosing <;> cases hclosing <;> decide
  · cases hitem

theorem any_isRunningTool_iff {transcript : List TranscriptItem} :
    transcript.any (·.isRunningTool) = false ↔ ∀ e ∈ toolEntries transcript, e.2 ≠ .running := by
  rw [List.any_eq_false]
  constructor
  · rintro h e he hrun
    obtain ⟨i, hi, hentry⟩ := List.mem_filterMap.mp he
    cases i with
    | tool t =>
      cases hentry
      exact h _ hi (decide_eq_true hrun)
    | user | assistant | notice | inject => cases hentry
  · intro h i hi hrun
    cases i with
    | tool t => exact h _ (List.mem_filterMap.mpr ⟨_, hi, rfl⟩) (of_decide_eq_true hrun)
    | user | assistant | notice | inject => cases hrun

theorem exists_cut_of_mem_entries {e : String × ToolStatus}
    (he : e ∈ entries .running (seedMarks items)) :
    ∃ pre post, historyMarks items = pre ++ .opens e.1 :: post ∧
      e.2 = if closings e.1 (historyMarks items) = [] then .interrupted
        else (closings e.1 post).getLast?.getD .running := by
  obtain ⟨pre, post', hseed, hstatus⟩ := (mem_entries_iff _).mp he
  have hends : opened ((unanswered items).map fun k =>
      (OpenClose.Mark.closes k .interrupted : OpenClose.Mark String ToolStatus)) = [] := by
    rw [opened, List.filterMap_map]
    exact List.filterMap_eq_nil_iff.mpr fun _ _ => rfl
  obtain ⟨post, hmarks, -⟩ := cut_of_append hends hseed
  refine ⟨pre, post, hmarks, ?_⟩
  have hget := getElem?_entries ToolStatus.running e.1 pre post'
  rw [← hseed, seedMarks_status hmarks, ← hstatus] at hget
  exact (congrArg Prod.snd (Option.some.inj hget)).symm

theorem mem_closings_of_mem_ownResults {k : String}
    {pre post : List (OpenClose.Mark String ToolStatus)}
    (h : historyMarks items = pre ++ .opens k :: post) {status : ToolStatus}
    (hs : status ∈ ownResults k pre post) : status ∈ closings k (historyMarks items) := by
  rw [h, closings_append, closings_opens]
  rcases List.mem_append.mp hs with hs | hs
  · split_ifs at hs
    · cases hs
    · exact List.mem_append_left _ hs
  · apply List.mem_append_right
    rw [← List.takeWhile_append_dropWhile (p := fun m => !isCallOf k m) (l := post),
      closings_append]
    exact List.mem_append_left _ hs

/-- The result an answered call ends with. -/
theorem Answered.exists_last (h : Answered items) {k : String}
    {pre post : List (OpenClose.Mark String ToolStatus)}
    (hmarks : historyMarks items = pre ++ .opens k :: post)
    (hresults : closings k (historyMarks items) ≠ []) :
    ∃ last, (closings k post).getLast? = some last ∧ last ≠ .running := by
  obtain ⟨last, hlast⟩ := Option.isSome_iff_exists.mp
    (List.getLast?_isSome.mpr ((h pre k post hmarks).1 hresults))
  have hmem : last ∈ closings k (historyMarks items) := by
    rw [hmarks, closings_append, closings_opens]
    exact List.mem_append_right _ (List.mem_of_getLast? hlast)
  exact ⟨last, hlast, ne_running_of_mem_closings hmem⟩

/-- A transcript with the tools of the seed is settled exactly when the calls are answered. -/
theorem settles_iff_answered {state : SessionState}
    (htools : toolEntries state.items = entries .running (seedMarks items))
    (hbubbles : state.items.any (·.isStreaming) = false) :
    Settles items state ↔ Answered items := by
  constructor
  · intro h pre k post hmarks
    have hstatus := seedMarks_status hmarks
    rw [← htools] at hstatus
    refine ⟨?_, ?_⟩
    · intro hresults hpost
      rw [if_neg hresults, hpost] at hstatus
      exact any_isRunningTool_iff.mp h.tools _ (List.mem_of_getElem? hstatus) rfl
    · intro hown last hlast
      obtain ⟨status, hmem, hget⟩ := h.own pre k post hmarks hown
      have hresults : closings k (historyMarks items) ≠ [] := by
        intro hnil
        rw [hmarks, closings_append, closings_opens, List.append_eq_nil_iff] at hnil
        rw [hnil.2] at hlast
        cases hlast
      rw [if_neg hresults, hlast, hget] at hstatus
      cases hstatus
      exact hmem
  · intro h
    refine ⟨any_isRunningTool_iff.mpr ?_, hbubbles, ?_⟩
    · rintro ⟨k, status⟩ he hrun
      rw [htools] at he
      obtain ⟨pre, post, hmarks, hstatus⟩ := exists_cut_of_mem_entries he
      rw [hrun] at hstatus
      split_ifs at hstatus with hresults
      obtain ⟨last, hlast, hne⟩ := h.exists_last hmarks hresults
      rw [hlast] at hstatus
      exact hne hstatus.symm
    · intro pre k post hmarks hown
      have hresults : closings k (historyMarks items) ≠ [] := by
        obtain ⟨status, hstatus⟩ := List.exists_mem_of_ne_nil _ hown
        exact List.ne_nil_of_mem (mem_closings_of_mem_ownResults hmarks hstatus)
      obtain ⟨last, hlast, -⟩ := h.exists_last hmarks hresults
      refine ⟨last, (h pre k post hmarks).2 hown last hlast, ?_⟩
      rw [htools, seedMarks_status hmarks, if_neg hresults, hlast]
      rfl

/-- **An idle seed settles everything exactly when its calls are answered**: that of a session
that is opened, and that of a reload in any state. -/
theorem settles_iff (base base' : SessionEventBase) (snapshot : SessionSnapshot)
    (prior : SessionState) (items : List Json) :
    (Settles items (foldAll (buildBranchSeed base base' { snapshot with status := .idle }
        (historyToSeedEvents items ctx))) ↔ Answered items) ∧
      (Settles items (foldAllFrom prior (LiveSession.buildReseedEvents base
        { snapshot with status := .idle } (historyToSeedEvents items ctx))) ↔
        Answered items) := by
  obtain ⟨hreplays, hmarks⟩ := historyToSeedEvents_marks ctx items
  -- a transcript that is empty, replayed into and closed
  have hclosed : ∀ state : SessionState, state.items = [] → ∀ ts,
      Settles items (foldSnapshot (foldAllFrom state (historyToSeedEvents items ctx))
        { snapshot with status := .idle } ts) ↔ Answered items := by
    intro state hempty ts
    have hlast : LastStreams (foldAllFrom state (historyToSeedEvents items ctx)).items := by
      refine LastStreams.foldAllFrom _ ?_
      rw [hempty]
      exact fun _ hb => absurd hb List.not_mem_nil
    apply settles_iff_answered
    · have htools := toolEntries_foldAllFrom state hreplays
      rw [hempty, hmarks] at htools
      exact (toolEntries_closeOpenAssistant _).trans htools
    · rw [List.any_eq_false]
      intro i hi
      rw [hlast.closed (some ts) i hi]
      exact Bool.false_ne_true
  constructor
  · cases hhistory : historyToSeedEvents items ctx with
    | nil =>
      have hopened := hclosed initialSessionState rfl base.timestamp
      rw [hhistory] at hopened
      exact hopened
    | cons ev evs =>
      have hopened := hclosed (foldSnapshot initialSessionState { snapshot with status := .idle }
        base.timestamp) rfl base'.timestamp
      rw [hhistory] at hopened
      rw [buildBranchSeed, List.isEmpty_cons, if_neg Bool.false_ne_true, foldAll_concat]
      exact hopened
  · rw [LiveSession.buildReseedEvents, foldAllFrom_append]
    exact hclosed { prior with items := [] } rfl base.timestamp

end Seed

/-- A history that calls an id, answers it and calls it again. -/
def reusedId : List Json :=
  let call : Json := .object [("type", .str "assistant"),
    ("blocks", .array [.object [("type", .str "tool_use"), ("id", .str "c1")]])]
  [call, .object [("type", .str "tool_result"), ("call_id", .str "c1")], call]

/-- **A call that reuses an id runs for ever.** -/
theorem reused_id_runs : ¬ ∀ (ctx : HistoryMapCtx) (base base' : SessionEventBase)
    (snapshot : SessionSnapshot) (prior : SessionState) (items : List Json),
    Settles items (foldAll (buildBranchSeed base base' { snapshot with status := .idle }
        (historyToSeedEvents items ctx))) ∧
      Settles items (foldAllFrom prior (LiveSession.buildReseedEvents base
        { snapshot with status := .idle } (historyToSeedEvents items ctx))) := by
  intro h
  have htools := (h ⟨⟨"w", "s"⟩⟩ ⟨⟨"w", "s"⟩, "t1", none⟩ ⟨⟨"w", "s"⟩, "t2", none⟩
    ((⟨⟨"w", "s"⟩⟩ : HistoryMapCtx).switchSnapshot "t1" none none) initialSessionState
    reusedId).1.tools
  revert htools
  decide

end Pantoken
