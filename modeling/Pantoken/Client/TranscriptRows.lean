import Pantoken.Client.Outbox
import Pantoken.Client.OutboxSync
import Pantoken.Client.TranscriptView
import Pantoken.Client.WsClient
import Pantoken.Polytoken.RowKeys

/-!
# The keys of the transcript

The rows on the page are those of the focused session, the prompts of the outbox that the session
does not show yet, and the first prompt of a session that is being created.  The page keys its lists
by ids: the rows by their own, the turns by that of the first row, and the lanes of a turn by the
row they pin, or by the turn and a number.

## Main definitions

* `transcriptItems` — the rows on the page.
* `OutboxApart` — the outbox shows no id twice.
* `LanesApart` — no row of a turn has an id that a run of work of the turn could have.
* `UniqueKeys` — the ids of the rows are distinct, and those of the turns and of their lanes.

## Main results

* `nodup_transcriptItems_iff` — when the ids of the rows on the page are distinct.
* `uniqueKeys_groupTurns` — distinct rows are grouped under distinct keys.
* `rows_unique` — **the keys are distinct in every state of a run whose steps add no clashing key.**
-/

namespace Pantoken

open TranscriptView

/-! ### The rows on the page -/

/-- `deliveryState` -/
def deliveryState (promptState : PendingState) (connection : ConnectionState) : String :=
  if promptState = .rejected then "rejected"
  else
    match connection with
    | .connected => "sending"
    | .disconnected => "offline"
    | .connecting | .reconnecting => "connecting"

/-- `creatingSession`: the first prompt of a session that is being created. -/
structure CreatingSession where
  promptId : String
  text : String
  images : Option (List ImageContent)
  createdAt : String

/-- The prompts of the outbox that the focused session does not show yet. -/
def optimistic (session : SessionState) (pendingPrompts : List PendingPrompt) :
    List PendingPrompt :=
  pendingPrompts.filter fun prompt =>
    prompt.kind = .prompt ∧ prompt.sessionId = session.sessionRef.map (·.sessionId) ∧
      prompt.midTurn ≠ some true ∧ prompt.promptId ∉ session.items.map itemId

/-- The row of a prompt of the outbox. -/
def PendingPrompt.row (connection : ConnectionState) (prompt : PendingPrompt) : TranscriptItem :=
  .user
    { id := prompt.promptId
      text := prompt.text
      images := prompt.images
      references := none
      ts := some prompt.createdAt
      entryId := none
      delivery := some (deliveryState prompt.state connection)
      deliveryError := prompt.error }

/-- The row of the first prompt of a new session. -/
def CreatingSession.row (connection : ConnectionState) (pendingPrompts : List PendingPrompt)
    (creating : CreatingSession) : TranscriptItem :=
  .user
    { id := creating.promptId
      text := creating.text
      images := creating.images
      references := none
      ts := some creating.createdAt
      entryId := none
      delivery := (pendingPrompts.find? (·.promptId = creating.promptId)).map fun pending =>
        deliveryState pending.state connection
      deliveryError := none }

/-- The first prompt of a new session, until the session shows it. -/
def awaited (session : SessionState) (creatingSession : Option CreatingSession) :
    Option CreatingSession :=
  creatingSession.filter fun creating => creating.promptId ∉ session.items.map itemId

/-- `transcriptItems` -/
def transcriptItems (session : SessionState) (connection : ConnectionState)
    (pendingPrompts : List PendingPrompt) (creatingSession : Option CreatingSession) :
    List TranscriptItem :=
  session.items ++ (optimistic session pendingPrompts).map (PendingPrompt.row connection) ++
    ((awaited session creatingSession).map (·.row connection pendingPrompts)).toList

/-- The outbox shows no id twice: neither do two of its prompts share one, nor is one of them the
prompt that a session is created for. -/
structure OutboxApart (session : SessionState) (pendingPrompts : List PendingPrompt)
    (creatingSession : Option CreatingSession) : Prop where
  prompts : (promptIds (optimistic session pendingPrompts)).Nodup
  creating : ∀ creating ∈ creatingSession,
    creating.promptId ∉ promptIds (optimistic session pendingPrompts)

section Rows

variable {session : SessionState} {connection : ConnectionState}
  {pendingPrompts : List PendingPrompt} {creatingSession : Option CreatingSession}

theorem notMem_of_mem_optimistic {id : String}
    (h : id ∈ promptIds (optimistic session pendingPrompts)) : id ∉ session.items.map itemId := by
  obtain ⟨prompt, hprompt, rfl⟩ := List.mem_map.mp h
  have hshown := (List.mem_filter.mp hprompt).2
  simp only [decide_eq_true_eq] at hshown
  exact hshown.2.2.2

theorem ids_transcriptItems :
    (transcriptItems session connection pendingPrompts creatingSession).map itemId =
      session.items.map itemId ++ promptIds (optimistic session pendingPrompts) ++
        ((awaited session creatingSession).map (·.promptId)).toList := by
  have hprompts : (optimistic session pendingPrompts).map (itemId ∘ PendingPrompt.row connection) =
      promptIds (optimistic session pendingPrompts) := rfl
  rw [transcriptItems, List.map_append, List.map_append, List.map_map, hprompts]
  cases awaited session creatingSession <;> rfl

/-- **The ids of the rows on the page are distinct exactly when those of the session are, and the
outbox shows none twice.** -/
theorem nodup_transcriptItems_iff :
    ((transcriptItems session connection pendingPrompts creatingSession).map itemId).Nodup ↔
      (session.items.map itemId).Nodup ∧ OutboxApart session pendingPrompts creatingSession := by
  have hdisj : List.Disjoint (session.items.map itemId)
      (promptIds (optimistic session pendingPrompts)) :=
    fun id hid hshown => notMem_of_mem_optimistic hshown hid
  have hcreating : List.Disjoint
      (session.items.map itemId ++ promptIds (optimistic session pendingPrompts))
      ((awaited session creatingSession).map (·.promptId)).toList ↔
        ∀ creating ∈ creatingSession,
          creating.promptId ∉ promptIds (optimistic session pendingPrompts) := by
    cases creatingSession with
    | none => simp [awaited]
    | some creating =>
      by_cases hin : creating.promptId ∈ session.items.map itemId
      · have hnone : awaited session (some creating) = none := by
          rw [awaited, Option.filter_some,
            if_neg (by simpa only [decide_eq_true_eq, not_not] using hin)]
        have hout : creating.promptId ∉ promptIds (optimistic session pendingPrompts) :=
          fun hshown => notMem_of_mem_optimistic hshown hin
        simpa [hnone] using hout
      · have hsome : awaited session (some creating) = some creating := by
          rw [awaited, Option.filter_some, if_pos (decide_eq_true hin)]
        rw [hsome, Option.map_some, Option.toList_some, List.disjoint_singleton, List.mem_append,
          or_iff_right hin]
        simp
  have htail : ((awaited session creatingSession).map (·.promptId)).toList.Nodup := by
    cases (awaited session creatingSession).map (·.promptId) <;> simp
  rw [ids_transcriptItems, List.nodup_append', List.nodup_append', hcreating]
  constructor
  · rintro ⟨⟨hrows, hshown, -⟩, -, hout⟩
    exact ⟨hrows, hshown, hout⟩
  · rintro ⟨hrows, hshown, hout⟩
    exact ⟨⟨hrows, hshown, hdisj⟩, htail, hout⟩

end Rows

/-! ### The keys of the turns -/

namespace TranscriptView

def TurnLane.id : TurnLane → String
  | .work id _ _ _ _ => id
  | .pinned id _ => id

/-- The id of a run of work. -/
def runId (turnId : String) (runIndex : ℕ) : String := s!"{turnId}:w{runIndex}"

/-- The keys of the lists on the page. -/
structure UniqueKeys (items : List TranscriptItem) (lastTurnActive : Bool) : Prop where
  rows : (items.map itemId).Nodup
  turns : ((groupTurns items lastTurnActive).map TurnGroup.id).Nodup
  lanes : ∀ turn ∈ groupTurns items lastTurnActive, (turn.lanes.map TurnLane.id).Nodup

/-- No row of a turn has an id that a run of work of the turn could have. -/
def LanesApart (items : List TranscriptItem) : Prop :=
  ∀ input ∈ collectTurnInputs items, ∀ first ∈ input.items.head?, ∀ row ∈ input.items,
    ∀ n, itemId row ≠ runId (itemId first) n

/-- The id of a run is longer than that of its turn. -/
theorem ne_runId {id turnId : String} (h : id.length < turnId.length + 3) (n : ℕ) :
    id ≠ runId turnId n := by
  rintro rfl
  have hturn : toString turnId = turnId := rfl
  have hmark : (toString ":w").toList.length = 2 := rfl
  have hlen : (runId turnId n).length = turnId.length + (2 + (Nat.toDigits 10 n).length) := by
    simp [runId, hturn, hmark, ← String.length_toList, Nat.toList_repr]
  have hpos : 0 < (Nat.toDigits 10 n).length := Nat.length_toDigits_pos
  omega

theorem runId_injective (turnId : String) : Function.Injective (runId turnId) := by
  intro m n h
  have hlists := congrArg String.toList h
  have hturn : toString turnId = turnId := rfl
  simp only [runId, String.toList_append, hturn, Nat.toString_eq_repr, Nat.toList_repr] at hlists
  exact RowKey.toDigits_injective (List.append_cancel_left hlists)

/-- The lanes are labelled: the runs by their numbers, and a pinned row by its id. -/
structure LaneLoop.Labelled (turnId : String) (s : LaneLoop) : Prop where
  work : (s.lanes.filter TurnLane.isWork).map TurnLane.id =
    (List.range s.runIndex).map (runId turnId)
  pinned : (s.lanes.filter fun lane => !lane.isWork).map TurnLane.id =
    (laneItems (s.lanes.filter fun lane => !lane.isWork)).map itemId

namespace LaneLoop

variable {turnId : String} (r : Bool) {s : LaneLoop}

theorem labelled_init : (⟨[], [], 0⟩ : LaneLoop).Labelled turnId := ⟨rfl, rfl⟩

theorem Labelled.flushRun (h : s.Labelled turnId) : (s.flushRun turnId r).Labelled turnId := by
  unfold LaneLoop.flushRun
  split
  · exact h
  · constructor
    · rw [List.filter_append, List.map_append, h.work, List.range_succ, List.map_append]
      rfl
    · have hsame : ∀ id items collapsible startTs endTs,
          (s.lanes ++ [TurnLane.work id items collapsible startTs endTs]).filter
            (fun lane => !lane.isWork) = s.lanes.filter fun lane => !lane.isWork := by
        intro id items collapsible startTs endTs
        rw [List.filter_append]
        exact List.append_nil _
      rw [hsame]
      exact h.pinned

theorem Labelled.pin (h : s.Labelled turnId) (items : List TranscriptItem) :
    (s.pin items).Labelled turnId := by
  have hwork : (items.map fun it => TurnLane.pinned (itemId it) it).filter TurnLane.isWork =
      [] := by
    simp [List.filter_map, TurnLane.isWork]
  have hpinned : (items.map fun it => TurnLane.pinned (itemId it) it).filter
      (fun lane => !lane.isWork) = items.map fun it => TurnLane.pinned (itemId it) it := by
    simp [TurnLane.isWork]
  constructor
  · rw [LaneLoop.pin, List.filter_append, hwork, List.append_nil]
    exact h.work
  · rw [LaneLoop.pin, List.filter_append, hpinned, List.map_append, h.pinned, laneItems, laneItems,
      List.flatMap_append, List.map_append]
    simp [List.flatMap_map, TurnLane.items, TurnLane.id]

theorem Labelled.step (h : s.Labelled turnId) (it : TranscriptItem) :
    (s.step turnId r it).Labelled turnId := by
  unfold LaneLoop.step
  split
  · exact (h.flushRun r).pin [it]
  · split
    · split
      · have hwork : ({ s with run := (splitLeadUp s.run).1 } : LaneLoop).Labelled turnId :=
          ⟨h.work, h.pinned⟩
        exact ((hwork.flushRun r).pin _).pin [it]
      · exact (h.flushRun r).pin [it]
    · exact ⟨h.work, h.pinned⟩

theorem Labelled.loop {workItems : List TranscriptItem} {preserved : List (ℕ × ℕ)} :
    ∀ (rest : List TranscriptItem) (idx next : ℕ) {s : LaneLoop}, s.Labelled turnId →
      (s.loop turnId r workItems preserved rest idx next).Labelled turnId := by
  intro rest
  induction rest with
  | nil => exact fun _ _ _ h => h
  | cons it rest ih =>
    intro idx next s h
    unfold LaneLoop.loop
    split
    · exact ih _ _ h
    · split
      · exact ih _ _ ((h.flushRun r).pin _)
      · exact ih _ _ (h.step r it)

end LaneLoop

/-- The lanes of a turn with distinct rows have distinct ids, if no row has the id of a run. -/
theorem nodup_ids_buildLanes (turnId : String) (r : Bool) {workItems : List TranscriptItem}
    (hnodup : (workItems.map itemId).Nodup)
    (hapart : ∀ row ∈ workItems, ∀ n, itemId row ≠ runId turnId n) :
    ((buildLanes turnId r workItems).map TurnLane.id).Nodup := by
  obtain ⟨n, hwork, hpinned⟩ : ∃ n,
      ((buildLanes turnId r workItems).filter TurnLane.isWork).map TurnLane.id =
        (List.range n).map (runId turnId) ∧
      ((buildLanes turnId r workItems).filter fun lane => !lane.isWork).map TurnLane.id =
        (laneItems ((buildLanes turnId r workItems).filter fun lane => !lane.isWork)).map itemId :=
    ⟨_, ((LaneLoop.labelled_init.loop r workItems 0 0).flushRun r).work,
      ((LaneLoop.labelled_init.loop r workItems 0 0).flushRun r).pinned⟩
  -- the pinned rows are some of the rows
  have hsub : (laneItems ((buildLanes turnId r workItems).filter fun lane => !lane.isWork)).Sublist
      workItems := by
    have hall := laneItems_buildLanes turnId r workItems
    conv_rhs => rw [← hall]
    exact List.filter_sublist.flatMap _
  have hperm := (List.filter_append_perm TurnLane.isWork (buildLanes turnId r workItems)).map
    TurnLane.id
  rw [← hperm.nodup_iff, List.map_append, hwork, hpinned]
  refine List.nodup_append'.mpr ⟨?_, hnodup.sublist (hsub.map itemId), ?_⟩
  · exact List.nodup_range.map (runId_injective turnId)
  · intro id hrun hrow
    obtain ⟨m, -, rfl⟩ := List.mem_map.mp hrun
    obtain ⟨row, hmem, hid⟩ := List.mem_map.mp hrow
    exact hapart row (hsub.subset hmem) m hid

theorem ids_anchorLanes (startTs endTs : Option String) (lanes : List TurnLane) :
    (anchorLanes startTs endTs lanes).map TurnLane.id = lanes.map TurnLane.id :=
  map_anchorLanes (fun _ _ _ _ _ _ _ => rfl) startTs endTs lanes

/-- The id of a turn is that of its first row. -/
theorem turnId_eq_first {input : TurnInput TranscriptItem} {first : TranscriptItem}
    (h : input.items.head? = some first) (index : ℕ) :
    turnId input.user input.body index = itemId first := by
  unfold turnId
  cases hinput : input.user with
  | some user =>
    rw [TurnInput.items, hinput] at h
    cases h
    rfl
  | none =>
    rw [TurnInput.items, hinput] at h
    change input.body.head? = some first at h
    rw [h]
    rfl

theorem ids_inactiveLastTurn (turn : TurnGroup) :
    (inactiveLastTurn turn).lanes.map TurnLane.id = turn.lanes.map TurnLane.id := by
  change (turn.lanes.map TurnLane.inactive).map TurnLane.id = _
  rw [List.map_map]
  exact List.map_congr_left fun lane _ => by cases lane <;> rfl

section Turns

variable {items : List TranscriptItem}

/-- A turn has a first row. -/
theorem exists_head {input : TurnInput TranscriptItem} (h : input ∈ collectTurnInputs items) :
    ∃ first, input.items.head? = some first :=
  Option.isSome_iff_exists.mp (List.isSome_head?.mpr (items_ne_nil_of_mem h))

/-- The turns share no rows, and show none twice. -/
theorem pairwise_collectTurnInputs (hnodup : (items.map itemId).Nodup) :
    (∀ input ∈ collectTurnInputs items, (input.items.map itemId).Nodup) ∧
      (collectTurnInputs items).Pairwise fun input input' =>
        List.Disjoint (input.items.map itemId) (input'.items.map itemId) := by
  have hall := flatMap_collectTurnInputsBy startsTurn items
  rw [← hall, List.map_flatMap] at hnodup
  exact List.nodup_flatMap.mp hnodup

theorem nodup_ids_groupTurns (hnodup : (items.map itemId).Nodup) (lastTurnActive : Bool) :
    ((groupTurns items lastTurnActive).map TurnGroup.id).Nodup := by
  have hids : (groupTurns items lastTurnActive).map TurnGroup.id =
      (collectTurnInputs items).map fun input => (input.items.head?.map itemId).getD "" := by
    have hactive : ∀ turns : List TurnGroup,
        (applyLastTurnActive turns lastTurnActive).map TurnGroup.id = turns.map TurnGroup.id := by
      intro turns
      unfold applyLastTurnActive
      split
      · rfl
      · exact List.map_mapLast (f := inactiveLastTurn) (fun _ => rfl) turns
    rw [groupTurns, hactive]
    refine List.ext_getElem (by simp) fun i hi hi' => ?_
    rw [List.length_map] at hi'
    obtain ⟨first, hfirst⟩ := exists_head (List.getElem_mem hi')
    rw [List.getElem_map, List.getElem_map, List.getElem_mapIdx, hfirst]
    exact turnId_eq_first hfirst i
  rw [hids, List.Nodup, List.pairwise_map]
  refine (pairwise_collectTurnInputs hnodup).2.imp_of_mem fun hinput hinput' hdisj heq => ?_
  obtain ⟨first, hfirst⟩ := exists_head hinput
  obtain ⟨first', hfirst'⟩ := exists_head hinput'
  rw [hfirst, hfirst'] at heq
  refine hdisj (List.mem_map_of_mem (List.mem_of_head? hfirst)) ?_
  rw [show itemId first = itemId first' from heq]
  exact List.mem_map_of_mem (List.mem_of_head? hfirst')

/-- **Distinct rows are grouped under distinct keys**, if no row has the id of a run of its
turn. -/
theorem uniqueKeys_groupTurns (hnodup : (items.map itemId).Nodup) (hapart : LanesApart items)
    (lastTurnActive : Bool) : UniqueKeys items lastTurnActive where
  rows := hnodup
  turns := nodup_ids_groupTurns hnodup lastTurnActive
  lanes := by
    have hturns : ∀ turn ∈ (collectTurnInputs items).mapIdx fun index input =>
        buildTurn input.user input.body index, (turn.lanes.map TurnLane.id).Nodup := by
      intro turn hturn
      obtain ⟨index, hindex, rfl⟩ := List.mem_mapIdx.mp hturn
      have hmem : (collectTurnInputs items)[index] ∈ collectTurnInputs items :=
        List.getElem_mem hindex
      obtain ⟨first, hfirst⟩ := exists_head hmem
      have hwork : (splitBody (collectTurnInputs items)[index].body).1.Sublist
          (collectTurnInputs items)[index].items := by
        refine List.Sublist.trans ?_ (List.sublist_append_right _ _)
        conv_rhs => rw [← splitBody_append (collectTurnInputs items)[index].body]
        rw [List.append_assoc]
        exact List.sublist_append_left _ _
      unfold buildTurn
      dsimp only
      rw [ids_anchorLanes, turnId_eq_first hfirst]
      refine nodup_ids_buildLanes _ _ ?_ fun row hrow n => ?_
      · exact ((pairwise_collectTurnInputs hnodup).1 _ hmem).sublist (hwork.map itemId)
      · exact hapart _ hmem first hfirst row (hwork.subset hrow) n
    unfold groupTurns applyLastTurnActive
    split
    · exact hturns
    · refine List.forall_mapLast (fun turn hturn => ?_) hturns
      rw [ids_inactiveLastTurn]
      exact hturn

end Turns

end TranscriptView

/-! ### Runs -/

/-- The id of a row that was supplied. -/
def RowKey.supplied? : RowKey → Option String
  | supplied id => some id
  | _ => none

section Runs

variable (percent : Nat → Nat → F64) (fromStr : String → Option Json) (preview : Json → String)

/-- **The keys of the transcript are distinct in every state of a run whose steps add no key that
clashes**, whatever is in the outbox, if it shows no id twice and no row has the id of a run of its
turn; and the ids of the rows are distinct in no other run. -/
theorem rows_unique (live : LiveSession) (acts : List RowAct) :
    (Along (KeyedSession.step percent fromStr preview) (KeyedSession.Apart percent fromStr preview)
        (.start live) acts ↔
      ∀ pre, pre <+: acts → ∀ connection,
        ((transcriptItems (pre.foldl (KeyedSession.step percent fromStr preview)
          (.start live)).session.transcript connection [] none).map itemId).Nodup) ∧
    (Along (KeyedSession.step percent fromStr preview) (KeyedSession.Apart percent fromStr preview)
        (.start live) acts →
      ∀ pre, pre <+: acts → ∀ connection pendingPrompts creatingSession lastTurnActive,
        let session := (pre.foldl (KeyedSession.step percent fromStr preview)
          (.start live)).session.transcript
        OutboxApart session pendingPrompts creatingSession →
        LanesApart (transcriptItems session connection pendingPrompts creatingSession) →
        UniqueKeys (transcriptItems session connection pendingPrompts creatingSession)
          lastTurnActive) := by
  have hids : TranscriptItem.id = itemId := by
    funext i
    cases i <;> rfl
  have hrows : ∀ s : KeyedSession, s.rowIds = s.session.transcript.items.map itemId :=
    fun s => congrArg (s.session.transcript.items.map ·) hids
  have hempty : ∀ session, OutboxApart session [] none :=
    fun session => ⟨List.nodup_nil, fun _ h => by cases h⟩
  constructor
  · rw [KeyedSession.along_apart_iff]
    refine forall₂_congr fun pre hpre => ?_
    rw [hrows]
    constructor
    · exact fun h connection => nodup_transcriptItems_iff.mpr ⟨h, hempty _⟩
    · exact fun h => (nodup_transcriptItems_iff.mp (h .connected)).1
  · intro halong pre hpre connection pendingPrompts creatingSession lastTurnActive session
      houtbox hlanes
    have hnodup := (KeyedSession.along_apart_iff live acts).mp halong pre hpre
    rw [hrows] at hnodup
    exact uniqueKeys_groupTurns (nodup_transcriptItems_iff.mpr ⟨hnodup, houtbox⟩) hlanes
      lastTurnActive

end Runs

/-- Two servers that connect in two milliseconds and the tool of a turn, with a prompt of the outbox
and one of a new session. -/
theorem rows_unique_outbox :
    let early : ClockStamp := ⟨"2026-01-01T00:00:00.000Z", by decide, by decide⟩
    let late : ClockStamp := ⟨"2026-01-01T00:00:00.001Z", by decide, by decide⟩
    let acts : List RowAct :=
      [.deliver (.turn (.messageStart "p" none)) early {},
        .deliver (.ambient (.mcpServerConnected "files") none) early {},
        .deliver (.ambient (.mcpServerConnected "search") none) late {},
        .deliver (.turn (.toolCall "c" none "bash" "p" none)) late {}]
    let s := acts.foldl (KeyedSession.step (fun _ _ => ⟨0⟩) (fun _ => none) (fun _ => ""))
      (.start { ref := ⟨"w", "s"⟩, workspace := ⟨"w", "/w", none⟩ })
    let items := transcriptItems s.session.transcript .connected
      [⟨"q", "local", .prompt, "hi", none, none, none, some "s", none, "t", .queued, none⟩]
      (some ⟨"r", "new", none, "t"⟩)
    UniqueKeys items true ∧ items.length = 5 := by
  intro early late acts s items
  have halong : Along (KeyedSession.step (fun _ _ => ⟨0⟩) (fun _ => none) fun _ => "")
      (KeyedSession.Apart (fun _ _ => ⟨0⟩) (fun _ => none) fun _ => "")
      (.start { ref := ⟨"w", "s"⟩, workspace := ⟨"w", "/w", none⟩ }) acts := by
    decide +kernel
  refine ⟨(rows_unique _ _ _ _ _).2 halong acts List.prefix_rfl _ _ _ _ ⟨?_, ?_⟩ ?_, ?_⟩
  · decide +kernel
  · decide +kernel
  · have hlengths : ∀ input ∈ collectTurnInputs items, ∀ first ∈ input.items.head?,
        ∀ row ∈ input.items, (itemId row).length < (itemId first).length + 3 := by
      decide +kernel
    exact fun input hinput first hfirst row hrow n =>
      ne_runId (hlengths input hinput first hfirst row hrow) n
  · decide +kernel

/-- Two servers that connect in one millisecond: no id is supplied, and the two notices share
theirs. -/
theorem not_rows_unique :
    let now : ClockStamp := ⟨"2026-01-01T00:00:00.000Z", by decide, by decide⟩
    let connected (name : String) : RowAct :=
      .deliver (.ambient (.mcpServerConnected name) none) now {}
    let s := [connected "files", connected "search"].foldl
      (KeyedSession.step (fun _ _ => ⟨0⟩) (fun _ => none) (fun _ => ""))
      (.start { ref := ⟨"w", "s"⟩, workspace := ⟨"w", "/w", none⟩ })
    (s.keys.filterMap RowKey.supplied?).Nodup ∧
      ¬ UniqueKeys (transcriptItems s.session.transcript .connected [] none) false := by
  refine ⟨by decide +kernel, fun h => ?_⟩
  have hrows := h.rows
  revert hrows
  decide +kernel

end Pantoken
