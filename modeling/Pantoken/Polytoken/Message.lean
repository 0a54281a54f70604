import Pantoken.Polytoken.HistorySeed
import Pantoken.Protocol.Shown

/-!
# A message in the history

An assistant message and the results of its tools are items of the history.  Here is what
their replay tells and what its transcript shows.

## Main definitions

* `ContentBlock`, `ResultItem`, `AssistantMessage` — a message, and its history in JSON.
* `AssistantMessage.revealed`, `AssistantMessage.hidden` — a message with its redacted and
  opaque blocks as thinking, and without them.
* `AssistantMessage.told` — the events of a message, up to what does not show.

## Main results

* `historyToSeedEvents_history` — the events of a message's history.
* `historyToSeedEvents_hidden` — redacted and opaque blocks are not told.
* `shownItems_history` — what the history shows.
-/

namespace Pantoken

/-! ### Messages -/

structure ToolUse where
  id : String
  name : String
  input : Json

inductive ContentBlock where
  | text (text : String)
  | toolUse (tool : ToolUse) (providerMetadata : Option Json)
  | thinking (signature text : String)
  | redactedThinking (data : String)
  | openAiReasoningOpaque (data id : String) (summary : Option String)

/-- A member that is left out when there is none. -/
def optMember (key : String) (v : Option Json) : List (String × Json) :=
  v.toList.map fun v => (key, v)

@[simp] theorem lookup_optMember (k key : String) (v : Option Json) :
    (optMember key v).lookup k = if k = key then v else none := by
  cases v with
  | none => simp [optMember]
  | some v =>
    by_cases h : k = key
    · simp [optMember, h]
    · have hb : (k == key) = false := beq_false_of_ne h
      simp [optMember, List.lookup_cons, hb, h]

/-- A block in JSON. -/
def ContentBlock.toJson : ContentBlock → Json
  | .text content => .object [("type", .str "text"), ("text", .str content)]
  | .toolUse tool md =>
    .object ([("type", .str "tool_use"), ("id", .str tool.id), ("input", tool.input),
      ("name", .str tool.name)] ++ optMember "provider_metadata" md)
  | .thinking signature content =>
    .object [("type", .str "thinking"), ("signature", .str signature), ("text", .str content)]
  | .redactedThinking data =>
    .object [("type", .str "redacted_thinking"), ("data", .str data)]
  | .openAiReasoningOpaque data id summary =>
    .object ([("type", .str "open_ai_reasoning_opaque"), ("data", .str data), ("id", .str id)] ++
      optMember "summary" (summary.map .str))

/-- The result of a tool, as the history keeps it. -/
structure ResultItem where
  callId : String
  content : Option Json
  isError : Option Bool
  emittedAt : Option String

structure AssistantMessage where
  promptId : PromptId
  emittedAt : Option String
  blocks : List ContentBlock
  results : List ResultItem

/-- A result in the history. -/
def ResultItem.toJson (promptId : PromptId) (r : ResultItem) : Json :=
  .object ([("type", .str "tool_result"), ("call_id", .str r.callId),
    ("prompt_id", .str promptId)] ++ optMember "content" r.content ++
    optMember "is_error" (r.isError.map .bool) ++ optMember "emitted_at" (r.emittedAt.map .str))

/-- A message in the history, without its results. -/
def AssistantMessage.toJson (msg : AssistantMessage) : Json :=
  .object ([("type", .str "assistant"), ("prompt_id", .str msg.promptId),
    ("blocks", .array (msg.blocks.map ContentBlock.toJson))] ++
    optMember "emitted_at" (msg.emittedAt.map .str))

/-- A message in the history, and the results after it. -/
def AssistantMessage.history (msg : AssistantMessage) : List Json :=
  msg.toJson :: msg.results.map (ResultItem.toJson msg.promptId)

/-- The call id of a tool-use block. -/
def ContentBlock.callId : ContentBlock → Option String
  | .toolUse tool _ => some tool.id
  | _ => none

/-- A block, with redacted or opaque thinking as thinking. -/
def ContentBlock.revealed : ContentBlock → ContentBlock
  | .redactedThinking data => .thinking "" data
  | .openAiReasoningOpaque data _ _ => .thinking "" data
  | b => b

/-- A block whose content the history tells. -/
def ContentBlock.isOpen : ContentBlock → Bool
  | .redactedThinking _ | .openAiReasoningOpaque .. => false
  | _ => true

/-- The message with its redacted and opaque blocks as thinking. -/
def AssistantMessage.revealed (msg : AssistantMessage) : AssistantMessage :=
  { msg with blocks := msg.blocks.map ContentBlock.revealed }

/-- The message without its redacted and opaque blocks. -/
def AssistantMessage.hidden (msg : AssistantMessage) : AssistantMessage :=
  { msg with blocks := msg.blocks.filter ContentBlock.isOpen }

/-! ### The history of a message -/

section Events

variable (base : SessionEventBase)

/-- The start of a tool. -/
def ToolUse.event (tool : ToolUse) : SessionDriverEvent :=
  .toolStarted base tool.name tool.id (some tool.input) none none

/-- The end of a tool with a result. -/
def ResultItem.event (r : ResultItem) : SessionDriverEvent :=
  .toolFinished base r.callId (!r.isError.getD false) (liftExtract r.content).output
    (liftExtract r.content).images none

/-- What the history tells of a block. -/
def ContentBlock.events (entryId : Option String) : ContentBlock → List SessionDriverEvent
  | .text content => [.assistantDelta base content (some .text) entryId]
  | .thinking _ content => [.assistantDelta base content (some .thinking) entryId]
  | .toolUse tool _ => [tool.event base]
  | .redactedThinking _ | .openAiReasoningOpaque .. => []

theorem seedBlock_toJson (promptId : Option String) (st : SeedFold) (b : ContentBlock) :
    seedBlock base promptId st b.toJson =
      { st with
        out := st.out ++ b.events base promptId
        startedCallIds := st.startedCallIds ++ b.callId.toList } := by
  cases b with
  | toolUse tool md =>
    simp [seedBlock, ContentBlock.toJson, ContentBlock.events, ContentBlock.callId, SeedFold.push,
      ToolUse.event, List.lookup_cons]
  | text | thinking | redactedThinking =>
    simp [seedBlock, ContentBlock.toJson, ContentBlock.events, ContentBlock.callId, SeedFold.push,
      List.lookup_cons]
  | openAiReasoningOpaque data id summary =>
    simp [seedBlock, ContentBlock.toJson, ContentBlock.events, ContentBlock.callId]

theorem seedBlock_blocks (promptId : Option String) (blocks : List ContentBlock) (st : SeedFold) :
    (blocks.map ContentBlock.toJson).foldl (seedBlock base promptId) st =
      { st with
        out := st.out ++ blocks.flatMap (ContentBlock.events base promptId)
        startedCallIds := st.startedCallIds ++ blocks.filterMap ContentBlock.callId } := by
  induction blocks generalizing st with
  | nil => simp
  | cons b blocks ih =>
    rw [List.map_cons, List.foldl_cons, seedBlock_toJson, ih]
    cases h : b.callId <;> simp [h]

end Events

theorem itemStamp_message (msg : AssistantMessage) (i : Nat) :
    itemStamp msg.toJson i =
      msg.emittedAt.getD (formatSyntheticIso (saturatingMul i 1000)) := by
  cases h : msg.emittedAt <;>
    simp [itemStamp, AssistantMessage.toJson, optMember, List.lookup_cons, h]

theorem seedItem_message (ctx : HistoryMapCtx) (st : SeedFold) (msg : AssistantMessage) (i : Nat) :
    seedItem ctx st (msg.toJson, i) =
      { st with
        out := st.out ++ msg.blocks.flatMap
          (ContentBlock.events (ctx.eventBase (itemStamp msg.toJson i)) (some msg.promptId))
        startedCallIds := st.startedCallIds ++ msg.blocks.filterMap ContentBlock.callId } := by
  rw [← seedBlock_blocks]
  simp [seedItem, AssistantMessage.toJson, List.lookup_cons]

theorem seedItem_result (ctx : HistoryMapCtx) (st : SeedFold) (promptId : PromptId)
    (r : ResultItem) (i : Nat) :
    seedItem ctx st (r.toJson promptId, i) =
      { st with
        out := st.out ++ [r.event (ctx.eventBase (itemStamp (r.toJson promptId) i))]
        finishedCallIds := st.finishedCallIds ++ [r.callId] } := by
  have hcontent : (r.toJson promptId).get "content" = r.content := by
    simp [ResultItem.toJson, List.lookup_append, List.lookup_cons]
  have herror : ((r.toJson promptId).get "is_error").bind Json.asBool = r.isError := by
    cases h : r.isError <;> simp [ResultItem.toJson, List.lookup_append, List.lookup_cons, h]
  have htype : (r.toJson promptId).get "type" = some (.str "tool_result") := by
    simp [ResultItem.toJson]
  have hid : (r.toJson promptId).get "call_id" = some (.str r.callId) := by
    simp [ResultItem.toJson, List.lookup_cons]
  simp [seedItem, htype, hid, hcontent, herror, liftToolResult_eq, ResultItem.event,
    SeedFold.push]

theorem seedItem_results (ctx : HistoryMapCtx) (promptId : PromptId) (results : List ResultItem)
    (i : Nat) (st : SeedFold) :
    ((results.map (ResultItem.toJson promptId)).zipIdx i).foldl (seedItem ctx) st =
      { st with
        out := st.out ++ (results.zipIdx i).map fun p =>
          p.1.event (ctx.eventBase (itemStamp (p.1.toJson promptId) p.2))
        finishedCallIds := st.finishedCallIds ++ results.map (·.callId) } := by
  induction results generalizing i st with
  | nil => simp
  | cons r results ih =>
    rw [List.map_cons, List.zipIdx_cons, List.foldl_cons, seedItem_result, ih]
    simp

/-- The stamp of the tools a message leaves without a result. -/
def AssistantMessage.lastStamp (msg : AssistantMessage) : String :=
  itemStamp ((msg.results.map (ResultItem.toJson msg.promptId)).getLast?.getD msg.toJson)
    (msg.results.length + 1)

/-- **What the history tells of a message**: its blocks, its results, and the tools without a
result interrupted. -/
theorem historyToSeedEvents_history (msg : AssistantMessage) (ctx : HistoryMapCtx) :
    historyToSeedEvents msg.history ctx =
      msg.blocks.flatMap
          (ContentBlock.events (ctx.eventBase (itemStamp msg.toJson 0)) (some msg.promptId)) ++
        (msg.results.zipIdx 1).map (fun p =>
          p.1.event (ctx.eventBase (itemStamp (p.1.toJson msg.promptId) p.2))) ++
        ((msg.blocks.filterMap ContentBlock.callId).filter
          (· ∉ msg.results.map (·.callId))).map
          (.toolFinished (ctx.eventBase msg.lastStamp) · false none none (some true)) := by
  unfold historyToSeedEvents AssistantMessage.history
  rw [List.getLast?_cons]
  dsimp only
  rw [List.zipIdx_cons, List.foldl_cons, seedItem_message, seedItem_results]
  simp only [List.nil_append, List.length_cons, List.length_map]
  rfl

/-- The history does not tell of redacted and opaque blocks. -/
theorem historyToSeedEvents_hidden (msg : AssistantMessage) (ctx : HistoryMapCtx) :
    historyToSeedEvents msg.hidden.history ctx = historyToSeedEvents msg.history ctx := by
  have hblocks (base : SessionEventBase) (e : Option String) :
      msg.hidden.blocks.flatMap (ContentBlock.events base e) =
        msg.blocks.flatMap (ContentBlock.events base e) := by
    unfold AssistantMessage.hidden
    induction msg.blocks with
    | nil => rfl
    | cons b blocks ih =>
      cases b <;> simp [List.filter_cons, ContentBlock.isOpen, ContentBlock.events, ih]
  have hcalls : msg.hidden.blocks.filterMap ContentBlock.callId =
      msg.blocks.filterMap ContentBlock.callId := by
    unfold AssistantMessage.hidden
    induction msg.blocks with
    | nil => rfl
    | cons b blocks ih => cases b <;>
        simp [List.filter_cons, List.filterMap_cons, ContentBlock.isOpen, ContentBlock.callId, ih]
  have hstamp (i : Nat) : itemStamp msg.hidden.toJson i = itemStamp msg.toJson i := by
    rw [itemStamp_message, itemStamp_message]
    rfl
  have hlast : msg.hidden.lastStamp = msg.lastStamp := by
    unfold AssistantMessage.lastStamp
    show itemStamp ((msg.results.map (ResultItem.toJson msg.promptId)).getLast?.getD
      msg.hidden.toJson) (msg.results.length + 1) = _
    cases (msg.results.map (ResultItem.toJson msg.promptId)).getLast? with
    | none => exact hstamp _
    | some item => rfl
  rw [historyToSeedEvents_history, historyToSeedEvents_history, hblocks, hcalls, hstamp, hlast]
  rfl

/-! ### The transcript of a history -/

/-- The tools of a message, once its blocks are folded. -/
theorem pending_blocks (base : SessionEventBase) (e : Option String) (blocks : List ContentBlock)
    {started : List String} {s : SessionState}
    (h : ∀ i ∈ s.items, i.Pending started []) :
    ∀ i ∈ (foldAllFrom s (blocks.flatMap (ContentBlock.events base e))).items,
      i.Pending (started ++ blocks.filterMap ContentBlock.callId) [] := by
  induction blocks generalizing s started with
  | nil => simpa using h
  | cons b blocks ih =>
    rw [List.flatMap_cons, foldAllFrom_append]
    cases b with
    | text content | thinking _ content => exact ih (pending_foldDelta h _ content _ e)
    | redactedThinking | openAiReasoningOpaque => exact ih h
    | toolUse tool md =>
      have hpush := pending_pushItem h
        (t := ⟨tool.id, tool.name, none, none, some tool.input, none, none, none, none, .running,
          some base.timestamp, none⟩) List.not_mem_nil rfl rfl
      have hrest := ih (s := foldEvent s (tool.event base)) hpush
      rw [List.append_assoc] at hrest
      exact hrest

/-- The tools of a message, once its results are folded too. -/
theorem pending_results (ctx : HistoryMapCtx) (stamp : ResultItem × Nat → String)
    (results : List (ResultItem × Nat)) {started finished : List String} {s : SessionState}
    (h : ∀ i ∈ s.items, i.Pending started finished) :
    ∀ i ∈ (foldAllFrom s (results.map fun p => p.1.event (ctx.eventBase (stamp p)))).items,
      i.Pending started (finished ++ results.map (·.1.callId)) := by
  induction results generalizing s finished with
  | nil => simpa using h
  | cons r results ih =>
    rw [List.map_cons, foldAllFrom_cons]
    have hfinish := pending_finishTool h r.1.callId (!r.1.isError.getD false)
      (liftExtract r.1.content).output (liftExtract r.1.content).images (stamp r)
    simpa [List.append_assoc] using
      ih (s := foldEvent s (r.1.event (ctx.eventBase (stamp r)))) hfinish

/-- What a message leaves behind, without its end: its blocks, then its results. -/
def AssistantMessage.told (msg : AssistantMessage) (base : SessionEventBase) :
    List SessionDriverEvent :=
  msg.blocks.flatMap (ContentBlock.events base none) ++ msg.results.map (ResultItem.event base)

theorem same_events (base base' : SessionEventBase) (e e' : Option String) (b : ContentBlock) :
    Same foldEvent SessionState.untimedItems (b.events base e) (b.events base' e') := by
  cases b with
  | text content => exact same_assistantDelta base base' content _ e e'
  | thinking _ content => exact same_assistantDelta base base' content _ e e'
  | toolUse tool md => exact same_toolStarted base base' _ _ _ _ _
  | redactedThinking | openAiReasoningOpaque => exact Same.nil

/-- **What the history shows of a message**: what it tells, and its end. -/
theorem shownItems_history (msg : AssistantMessage) (ctx : HistoryMapCtx)
    (base : SessionEventBase) :
    (foldAll (historyToSeedEvents msg.history ctx)).shownItems =
      (foldAll (msg.told base)).untimedItems.map TranscriptItem.settled := by
  have hblocks := pending_blocks (ctx.eventBase (itemStamp msg.toJson 0)) (some msg.promptId)
    msg.blocks (show ∀ i ∈ initialSessionState.items, i.Pending [] [] by simp [initialSessionState])
  have hpend := pending_results ctx (fun p => itemStamp (p.1.toJson msg.promptId) p.2)
    (msg.results.zipIdx 1) hblocks
  have hids : (msg.results.zipIdx 1).map (·.1.callId) = msg.results.map (·.callId) := by
    rw [← List.zipIdx_map_fst 1 msg.results, List.map_map]
    simp
  rw [hids, List.nil_append, List.nil_append, ← foldAllFrom_append] at hpend
  rw [historyToSeedEvents_history, foldAll_append]
  refine (shownItems_interrupted hpend _).trans (congrArg (List.map _) ?_)
  have hsame : Same foldEvent SessionState.untimedItems
      (msg.blocks.flatMap
          (ContentBlock.events (ctx.eventBase (itemStamp msg.toJson 0)) (some msg.promptId)) ++
        (msg.results.zipIdx 1).map (fun p =>
          p.1.event (ctx.eventBase (itemStamp (p.1.toJson msg.promptId) p.2))))
      (msg.told base) := by
    refine Same.append (Same.flatMap fun b _ => same_events _ _ _ _ b) ?_
    have hmap : msg.results.map (ResultItem.event base) =
        (msg.results.zipIdx 1).map (fun p => p.1.event base) := by
      conv_lhs => rw [← List.zipIdx_map_fst 1 msg.results, List.map_map]
      rfl
    rw [hmap]
    exact Same.map fun p _ => same_toolFinished _ _ _ _ _ _ _
  exact hsame _ _ rfl

end Pantoken
