import Pantoken.Polytoken.Message

/-!
# The live stream and the history of a message

An assistant message reaches the transcript on two ways: streamed part by part while its
turn runs, and read back from the history later.  Here is what the daemon streams of a
message, and that both ways show the same transcript.

## Main definitions

* `ContentBlockKind.chunks`, `Spells` — the text of a block, out of its deltas.
* `LivePart`, `Streams`, `AssistantMessage.Live` — the streams of a message, with its blocks in
  the order they show: a tool-use block shows where its call comes.

## Main results

* `Streams.perm` — what shows are the blocks of the message.
* `exists_same_streams` — what a stream tells, up to what does not show.
* `shownItems_live_eq_history` — **both ways show the same**: the stream shows the history of the
  message with its tools in the order of their calls.
-/

namespace Pantoken

/-! ### Blocks and their deltas -/

/-- What a delta adds to a block of a kind. -/
def ContentBlockKind.chunk : ContentBlockKind → BlockDeltaPayload → Option String
  | .text, .text t => some t
  | .thinking, .thinking t => some t
  | .redactedThinking, .redactedThinking data => some data
  | .openAiReasoningOpaque, .openAiReasoningOpaque data _ => some data
  | .toolUse .., .toolUseInput partialJson => some partialJson
  | _, _ => none

def ContentBlockKind.chunks (kind : ContentBlockKind) (deltas : List BlockDeltaPayload) :
    List String := deltas.filterMap kind.chunk

/-- The channel a block of a kind speaks on. -/
def ContentBlockKind.channel : ContentBlockKind → Option AssistantDeltaChannel
  | .text => some .text
  | .thinking | .redactedThinking | .openAiReasoningOpaque => some .thinking
  | .toolUse .. => none

/-- The blocks a kind and a text may belong to. -/
inductive Spells : ContentBlockKind → String → ContentBlock → Prop where
  | text (t : String) : Spells .text t (.text t)
  | thinking (signature t : String) : Spells .thinking t (.thinking signature t)
  | redactedThinking (data : String) : Spells .redactedThinking data (.redactedThinking data)
  | openAiReasoningOpaque (data id : String) (summary : Option String) :
      Spells .openAiReasoningOpaque data (.openAiReasoningOpaque data id summary)

/-- A block that speaks has one text, on its channel. -/
theorem Spells.events_revealed {kind : ContentBlockKind} {t : String} {b : ContentBlock}
    (h : Spells kind t b) : b.callId = none ∧ ∃ ch, kind.channel = some ch ∧
      ∀ base e, b.revealed.events base e = [.assistantDelta base t (some ch) e] := by
  cases h with
  | text => exact ⟨rfl, _, rfl, fun _ _ => rfl⟩
  | thinking => exact ⟨rfl, _, rfl, fun _ _ => rfl⟩
  | redactedThinking => exact ⟨rfl, _, rfl, fun _ _ => rfl⟩
  | openAiReasoningOpaque => exact ⟨rfl, _, rfl, fun _ _ => rfl⟩

/-! ### The stream of a message -/

/-- What the daemon streams of a message: a block with its deltas, the call of a tool, and the
result of a tool with its short and its full form. -/
inductive LivePart where
  | block (index : Int) (kind : ContentBlockKind) (deltas : List BlockDeltaPayload)
  | call (callId : String) (input : Option Json) (name : String)
  | result (r : ResultItem) (short : Option String) (full : Option Json)

/-- The events of a part. -/
def LivePart.events (promptId : PromptId) : LivePart → List DaemonEvent
  | .block index kind deltas =>
    .contentBlockStart index kind promptId none ::
      (deltas.map (.contentBlockDelta index · promptId none) ++
        [.contentBlockStop index promptId none])
  | .call callId input name => [.toolCall callId input name promptId none]
  | .result r short full => [.toolResult r.callId short full r.isError promptId none]

/-- The results a stream delivers. -/
def liveResults (parts : List LivePart) : List ResultItem :=
  parts.filterMap fun
    | .result r _ _ => some r
    | _ => none

@[simp] theorem liveResults_block (index : Int) (kind : ContentBlockKind)
    (deltas : List BlockDeltaPayload) (parts : List LivePart) :
    liveResults (.block index kind deltas :: parts) = liveResults parts := rfl

/-- What an empty field of a call leaves to the block before it. -/
def orBlock (given : String) (block : Option String) : Option String :=
  if given ≠ "" then some given else block

/-- A call is of a tool: it names the tool and carries its input, or leaves them to the block
before it, when `last` is that tool-use block with its partial input. -/
structure Calls (fromStr : String → Option Json) (last : Option (ToolUseBlockMeta × String))
    (callId : String) (input : Option Json) (name : String) (tool : ToolUse) : Prop where
  id : orBlock callId (last.map (·.1.id)) = some tool.id
  name : orBlock name (last.map (·.1.name)) = some tool.name
  input : input.or (last.bind fun m => parseToolInput fromStr m.2) = some tool.input

/-- A result's forms deliver its content: in full, or in a short form that says it all. -/
def Delivers (short : Option String) (full content : Option Json) : Prop :=
  full = content ∧ AgreesInFull short content ∨ full = none ∧ AgreesInShort short content

theorem Delivers.extract_eq {short : Option String} {full content : Option Json}
    (h : Delivers short full content) : extractToolResult short full = liftExtract content := by
  rcases h with ⟨rfl, h⟩ | ⟨rfl, h⟩
  · exact (extractToolResult_eq_lift_iff short _).mpr h
  · exact (extractToolResult_none_eq_lift_iff short content).mpr h

/-- `Streams fromStr pending last parts blocks shown`: the parts stream the blocks, which show in
the order `shown`.  A block that speaks arrives in at least one delta and shows there; a tool-use
block shows where its tool is called, anywhere behind the block; a result comes after the calls of
its tool.  `pending` are the tool-use blocks still to be called, `last` is the block streamed last
and its partial input, if it is a tool-use block. -/
inductive Streams (fromStr : String → Option Json) :
    List ContentBlock → Option (ToolUseBlockMeta × String) → List LivePart → List ContentBlock →
    List ContentBlock → Prop where
  | nil {last} : Streams fromStr [] last [] [] []
  | speech {pending last index kind deltas b parts blocks shown}
      (hchunks : kind.chunks deltas ≠ [])
      (hspells : Spells kind (String.join (kind.chunks deltas)) b)
      (hrest : Streams fromStr pending none parts blocks shown) :
      Streams fromStr pending last (.block index kind deltas :: parts) (b :: blocks) (b :: shown)
  | toolUse {pending last index deltas parts blocks shown} (tool : ToolUse) (md : Option Json)
      (hrest : Streams fromStr (pending ++ [.toolUse tool md])
        (some (⟨tool.id, tool.name⟩,
          String.join (ContentBlockKind.chunks (.toolUse tool.id tool.name md) deltas)))
        parts blocks shown) :
      Streams fromStr pending last
        (.block index (.toolUse tool.id tool.name md) deltas :: parts)
        (.toolUse tool md :: blocks) shown
  | call (before : List ContentBlock) {after last tool md callId input name parts blocks shown}
      (hcall : Calls fromStr last callId input name tool)
      (hrest : Streams fromStr (before ++ after) last parts blocks shown) :
      Streams fromStr (before ++ .toolUse tool md :: after) last
        (.call callId input name :: parts) blocks (.toolUse tool md :: shown)
  | result {pending last r short full parts blocks shown}
      (hdelivers : Delivers short full r.content)
      (hafter : r.callId ∉ (pending ++ blocks).filterMap ContentBlock.callId)
      (hrest : Streams fromStr pending last parts blocks shown) :
      Streams fromStr pending last (.result r short full :: parts) blocks shown

/-- What shows are the blocks still to be called and those still to come. -/
theorem Streams.perm {fromStr : String → Option Json} {pending blocks shown : List ContentBlock}
    {last : Option (ToolUseBlockMeta × String)} {parts : List LivePart}
    (h : Streams fromStr pending last parts blocks shown) : shown.Perm (pending ++ blocks) := by
  induction h with
  | nil => exact .refl _
  | speech _ _ _ ih => exact (ih.cons _).trans List.perm_middle.symm
  | toolUse tool md _ ih => rwa [List.append_assoc, List.singleton_append] at ih
  | call before _ _ ih =>
    rw [List.append_assoc] at ih ⊢
    exact (ih.cons _).trans List.perm_middle.symm
  | result _ _ _ ih => exact ih

/-- The parts stream a message: its blocks, which show in some order, and each tool's results in
their order. -/
structure AssistantMessage.Live (fromStr : String → Option Json) (msg : AssistantMessage)
    (parts : List LivePart) (shown : List ContentBlock) : Prop where
  blocks : Streams fromStr [] none parts msg.blocks shown
  results : ∀ id, (liveResults parts).filter (·.callId = id) = msg.results.filter (·.callId = id)

/-- The message with its blocks in another order. -/
def AssistantMessage.arranged (msg : AssistantMessage) (shown : List ContentBlock) :
    AssistantMessage := { msg with blocks := shown }

/-- The events of a message's turn. -/
def AssistantMessage.liveEvents (msg : AssistantMessage) (parts : List LivePart) :
    List DaemonEvent :=
  .messageStart msg.promptId none ::
    (parts.flatMap (LivePart.events msg.promptId) ++ [.messageComplete msg.promptId none])

/-- The events of a stream that are not of a nested turn. -/
def topLevel (stream : List (DaemonEvent × MapCtx)) : List (DaemonEvent × MapCtx) :=
  stream.filter fun p => p.1.subagentHandle.isNone

/-- The mapper remembers the block streamed last, when it is a tool-use block. -/
def FoldAccumulator.Holds (acc : FoldAccumulator) : Option (ToolUseBlockMeta × String) → Prop
  | none => True
  | some (m, partials) => acc.toolUseBlock = some m ∧ acc.toolInputBuffer = partials

/-! ### What the mapper emits -/

section Mapper

variable {fromStr : String → Option Json}

theorem mapDaemonEvents_cons (acc : FoldAccumulator) (ev : DaemonEvent) (ctx : MapCtx)
    (stream : List (DaemonEvent × MapCtx)) :
    mapDaemonEvents fromStr acc ((ev, ctx) :: stream) =
      (mapDaemonEvent fromStr ev acc ctx).1.events ++
        (mapDaemonEvent fromStr ev acc ctx).1.effects.map (runEffect ctx) ++
        mapDaemonEvents fromStr (mapDaemonEvent fromStr ev acc ctx).2 stream := rfl

/-- The events of nested turns emit nothing. -/
theorem mapDaemonEvents_topLevel (acc : FoldAccumulator) (stream : List (DaemonEvent × MapCtx)) :
    mapDaemonEvents fromStr acc (topLevel stream) = mapDaemonEvents fromStr acc stream := by
  induction stream generalizing acc with
  | nil => rfl
  | cons p stream ih =>
    obtain ⟨ev, ctx⟩ := p
    unfold topLevel at ih ⊢
    cases h : ev.subagentHandle with
    | none =>
      rw [List.filter_cons_of_pos (by simp [h]), mapDaemonEvents_cons, mapDaemonEvents_cons, ih]
    | some handle =>
      have hskip : mapDaemonEvent fromStr ev acc ctx = (.default, acc) := by
        simp [mapDaemonEvent, h]
      rw [List.filter_cons_of_neg (by simp [h]), mapDaemonEvents_cons, ih, hskip]
      rfl

/-- A delta of a block that speaks. -/
theorem mapBlockDelta_of_channel {kind : ContentBlockKind} {ch : AssistantDeltaChannel}
    (hch : kind.channel = some ch) {acc : FoldAccumulator}
    (hkind : acc.blockKind = some (blockKindFromContent kind)) (base : SessionEventBase)
    (delta : BlockDeltaPayload) :
    mapBlockDelta base delta acc =
      (⟨(kind.chunk delta).toList.map (.assistantDelta base · (some ch) none), []⟩, acc) := by
  cases kind with
  | toolUse => cases hch
  | text | thinking | redactedThinking | openAiReasoningOpaque =>
    cases hch
    cases delta <;>
      simp [mapBlockDelta, ContentBlockKind.chunk, hkind, blockKindFromContent, FoldResult.default]

/-- A delta of a tool-use block. -/
theorem mapBlockDelta_toolUse {acc : FoldAccumulator} (hkind : acc.blockKind = some .toolUse)
    (id name : String) (md : Option Json) (base : SessionEventBase) (delta : BlockDeltaPayload) :
    mapBlockDelta base delta acc =
      (.default,
        { acc with
          toolInputBuffer := acc.toolInputBuffer ++
            (ContentBlockKind.chunk (.toolUse id name md) delta).getD "" }) := by
  obtain ⟨kind, buffer, block, error⟩ := acc
  obtain rfl : kind = _ := hkind
  cases delta <;> simp [mapBlockDelta, ContentBlockKind.chunk]

/-- Deltas of one channel that spell some texts. -/
def Pieces (ch : AssistantDeltaChannel) : List String → List SessionDriverEvent → Prop :=
  List.Forall₂ fun t ev => ∃ base, ev = .assistantDelta base t (some ch) none

/-- The pieces of a text show as the text. -/
theorem Pieces.same {ch : AssistantDeltaChannel} {texts : List String}
    {es : List SessionDriverEvent} (h : Pieces ch texts es) (hne : texts ≠ [])
    (base : SessionEventBase) (e : Option String) :
    Same foldEvent SessionState.untimedItems es
      [.assistantDelta base (String.join texts) (some ch) e] := by
  induction h with
  | nil => exact absurd rfl hne
  | @cons t ev texts es hev hes ih =>
    obtain ⟨base', rfl⟩ := hev
    rw [String.join_cons]
    cases hes with
    | nil => simpa [String.join] using same_assistantDelta base' base t (some ch) none e
    | cons hev' hes' =>
      -- the later pieces are one text, and it joins the first
      have hhead := same_assistantDelta base' base t (some ch) none e
      have hrest := ih (List.cons_ne_nil _ _)
      exact (hhead.cons hrest).trans (same_assistantDelta_append base base t _ ch e e)

theorem exists_pieces {kind : ContentBlockKind} {ch : AssistantDeltaChannel}
    (hch : kind.channel = some ch) {acc : FoldAccumulator}
    (hkind : acc.blockKind = some (blockKindFromContent kind)) (index : Int) (promptId : PromptId)
    (deltas : List BlockDeltaPayload) {stream : List (DaemonEvent × MapCtx)}
    (hstream : stream.map Prod.fst = deltas.map (.contentBlockDelta index · promptId none))
    (rest : List (DaemonEvent × MapCtx)) :
    ∃ es, mapDaemonEvents fromStr acc (stream ++ rest) = es ++ mapDaemonEvents fromStr acc rest ∧
      Pieces ch (kind.chunks deltas) es := by
  induction deltas generalizing stream with
  | nil =>
    rw [List.map_nil, List.map_eq_nil_iff] at hstream
    subst hstream
    exact ⟨[], rfl, .nil⟩
  | cons delta deltas ih =>
    obtain ⟨⟨ev, ctx⟩, stream, rfl, hev, htail⟩ := List.map_eq_cons_iff.mp hstream
    obtain rfl : ev = _ := hev
    obtain ⟨es, hes, hpieces⟩ := ih htail
    have hmap : mapDaemonEvent fromStr (.contentBlockDelta index delta promptId none) acc ctx =
        mapBlockDelta ctx.eventBase delta acc := rfl
    rw [List.cons_append, mapDaemonEvents_cons, hmap, mapBlockDelta_of_channel hch hkind]
    refine ⟨(kind.chunk delta).toList.map (.assistantDelta ctx.eventBase · (some ch) none) ++ es,
      by simp [hes], ?_⟩
    unfold ContentBlockKind.chunks
    cases h : kind.chunk delta with
    | none =>
      rw [List.filterMap_cons_none h]
      exact hpieces
    | some t =>
      rw [List.filterMap_cons_some h]
      exact .cons ⟨_, rfl⟩ hpieces

theorem map_toolUseDeltas {acc : FoldAccumulator} (hkind : acc.blockKind = some .toolUse)
    (id name : String) (md : Option Json) (index : Int) (promptId : PromptId)
    (deltas : List BlockDeltaPayload) {stream : List (DaemonEvent × MapCtx)}
    (hstream : stream.map Prod.fst = deltas.map (.contentBlockDelta index · promptId none))
    (rest : List (DaemonEvent × MapCtx)) :
    mapDaemonEvents fromStr acc (stream ++ rest) =
      mapDaemonEvents fromStr
        { acc with
          toolInputBuffer := acc.toolInputBuffer ++
            String.join (ContentBlockKind.chunks (.toolUse id name md) deltas) } rest := by
  induction deltas generalizing acc stream with
  | nil =>
    rw [List.map_nil, List.map_eq_nil_iff] at hstream
    subst hstream
    simp [ContentBlockKind.chunks, String.join]
  | cons delta deltas ih =>
    obtain ⟨⟨ev, ctx⟩, stream, rfl, hev, htail⟩ := List.map_eq_cons_iff.mp hstream
    obtain rfl : ev = _ := hev
    have hmap : mapDaemonEvent fromStr (.contentBlockDelta index delta promptId none) acc ctx =
        mapBlockDelta ctx.eventBase delta acc := rfl
    rw [List.cons_append, mapDaemonEvents_cons, hmap, mapBlockDelta_toolUse hkind id name md]
    refine (ih ?_ htail).trans ?_
    · exact hkind
    unfold ContentBlockKind.chunks
    cases h : ContentBlockKind.chunk (.toolUse id name md) delta with
    | none => simp [h]
    | some t => simp [h, String.join_cons, String.append_assoc]

/-- A block that speaks. -/
theorem exists_pieces_block {kind : ContentBlockKind} {ch : AssistantDeltaChannel}
    (hch : kind.channel = some ch) (acc : FoldAccumulator) {index : Int} {promptId : PromptId}
    {deltas : List BlockDeltaPayload} {stream : List (DaemonEvent × MapCtx)}
    (hstream : stream.map Prod.fst = (LivePart.block index kind deltas).events promptId)
    (rest : List (DaemonEvent × MapCtx)) :
    ∃ es acc', mapDaemonEvents fromStr acc (stream ++ rest) =
        es ++ mapDaemonEvents fromStr acc' rest ∧
      acc'.turnError = acc.turnError ∧ Pieces ch (kind.chunks deltas) es := by
  obtain ⟨⟨ev, ctx⟩, stream, rfl, hev, htail⟩ := List.map_eq_cons_iff.mp hstream
  obtain rfl : ev = _ := hev
  obtain ⟨deltaStream, stopStream, rfl, hdeltas, hstop⟩ := List.map_eq_append_iff.mp htail
  obtain ⟨⟨stop, stopCtx⟩, rfl, hev⟩ := List.map_eq_singleton_iff.mp hstop
  obtain rfl : stop = _ := hev
  let acc₁ := (mapDaemonEvent fromStr (.contentBlockStart index kind promptId none) acc ctx).2
  have hkind : acc₁.blockKind = some (blockKindFromContent kind) := rfl
  obtain ⟨es, hes, hpieces⟩ :=
    exists_pieces hch hkind index promptId deltas hdeltas
      ((.contentBlockStop index promptId none, stopCtx) :: rest)
  refine ⟨es, { acc₁ with blockKind := none }, ?_, rfl, hpieces⟩
  rw [List.cons_append, List.append_assoc]
  exact hes

/-- A tool-use block emits nothing and is remembered. -/
theorem exists_map_toolUse (acc : FoldAccumulator) {index : Int} {promptId : PromptId}
    {tool : ToolUse} {md : Option Json} {deltas : List BlockDeltaPayload}
    {stream : List (DaemonEvent × MapCtx)}
    (hstream : stream.map Prod.fst =
      (LivePart.block index (.toolUse tool.id tool.name md) deltas).events promptId)
    (rest : List (DaemonEvent × MapCtx)) :
    ∃ acc', mapDaemonEvents fromStr acc (stream ++ rest) = mapDaemonEvents fromStr acc' rest ∧
      acc'.turnError = acc.turnError ∧
      acc'.Holds (some (⟨tool.id, tool.name⟩,
        String.join (ContentBlockKind.chunks (.toolUse tool.id tool.name md) deltas))) := by
  obtain ⟨⟨ev, ctx⟩, stream, rfl, hev, htail⟩ := List.map_eq_cons_iff.mp hstream
  obtain rfl : ev = _ := hev
  obtain ⟨deltaStream, stopStream, rfl, hdeltas, hstop⟩ := List.map_eq_append_iff.mp htail
  obtain ⟨⟨stop, stopCtx⟩, rfl, hev⟩ := List.map_eq_singleton_iff.mp hstop
  obtain rfl : stop = _ := hev
  let acc₁ := (mapDaemonEvent fromStr
    (.contentBlockStart index (.toolUse tool.id tool.name md) promptId none) acc ctx).2
  have hkind : acc₁.blockKind = some .toolUse := rfl
  have hmap := @map_toolUseDeltas fromStr acc₁ hkind tool.id tool.name md index promptId deltas
    deltaStream hdeltas ((.contentBlockStop index promptId none, stopCtx) :: rest)
  let partials := String.join (ContentBlockKind.chunks (.toolUse tool.id tool.name md) deltas)
  refine ⟨⟨none, "" ++ partials, some ⟨tool.id, tool.name⟩, acc.turnError⟩, ?_, rfl, rfl,
    String.empty_append⟩
  rw [List.cons_append, List.append_assoc]
  exact hmap

/-- A result moves behind the blocks that are not of its tool. -/
theorem commutes_result {r : ResultItem} {blocks : List ContentBlock}
    (hafter : r.callId ∉ blocks.filterMap ContentBlock.callId) (base : SessionEventBase) :
    ∀ ev ∈ blocks.flatMap (fun b => b.revealed.events base none),
      Commutes foldEvent (r.event base) ev := by
  intro ev hev
  obtain ⟨b, hb, hev⟩ := List.mem_flatMap.mp hev
  cases b with
  | toolUse tool md =>
    have hne : r.callId ≠ tool.id := fun h =>
      hafter (List.mem_filterMap.mpr ⟨_, hb, congrArg some h.symm⟩)
    obtain rfl := List.mem_singleton.mp hev
    exact commutes_toolFinished_toolStarted _ _ _ _ _ _ _ hne _ _ _ _
  | text | thinking | redactedThinking | openAiReasoningOpaque =>
    obtain rfl := List.mem_singleton.mp hev
    exact commutes_toolFinished_assistantDelta _ _ _ _ _ _ _ _ _ _

/-- A call of a tool starts the tool. -/
theorem mapDaemonEvent_call {acc : FoldAccumulator} {last : Option (ToolUseBlockMeta × String)}
    (hlast : acc.Holds last) {callId name : String} {input : Option Json} {tool : ToolUse}
    (hcall : Calls fromStr last callId input name tool) (promptId : PromptId) (ctx : MapCtx) :
    mapDaemonEvent fromStr (.toolCall callId input name promptId none) acc ctx =
      (⟨[tool.event ctx.eventBase], []⟩, acc) := by
  have hid := hcall.id
  have hname := hcall.name
  have hinput := hcall.input
  cases last with
  | none =>
    -- no block to leave anything to, so the call tells all of it
    have hgiven {given tells : String} (h : orBlock given none = some tells) :
        given ≠ "" ∧ given = tells := by
      unfold orBlock at h
      split at h
      · next hne => exact ⟨hne, Option.some.inj h⟩
      · cases h
    obtain ⟨hid, rfl⟩ := hgiven hid
    obtain ⟨hname, rfl⟩ := hgiven hname
    rw [Option.bind_none, Option.or_none] at hinput
    subst hinput
    simp [mapDaemonEvent, DaemonEvent.subagentHandle, hid, hname, ToolUse.event]
  | some m =>
    obtain ⟨hblock, hbuffer⟩ := hlast
    have hleft {given block tells : String} (h : orBlock given (some block) = some tells) :
        (if given ≠ "" then given else block) = tells := by
      unfold orBlock at h
      split at h
      · next hne => exact (if_pos hne).trans (Option.some.inj h)
      · next hne => exact (if_neg hne).trans (Option.some.inj h)
    have hid := hleft hid
    have hname := hleft hname
    rw [Option.bind_some, ← hbuffer] at hinput
    unfold ToolUse.event
    rw [← hid, ← hname, ← hinput]
    simp [mapDaemonEvent, DaemonEvent.subagentHandle, hblock]

/-- **What a stream tells**: its blocks in the order they show, then the results. -/
theorem exists_same_streams {pending : List ContentBlock}
    {last : Option (ToolUseBlockMeta × String)} {parts : List LivePart}
    {blocks shown : List ContentBlock} (h : Streams fromStr pending last parts blocks shown)
    (promptId : PromptId) (base : SessionEventBase) {acc : FoldAccumulator}
    (herr : acc.turnError = none) (hlast : acc.Holds last) {stream : List (DaemonEvent × MapCtx)}
    (hstream : stream.map Prod.fst =
      parts.flatMap (LivePart.events promptId) ++ [.messageComplete promptId none]) :
    ∃ es ctx, mapDaemonEvents fromStr acc stream =
        es ++ [buildPostFetchEvent .runCompleted ctx (some promptId)] ∧
      Same foldEvent SessionState.untimedItems es
        (shown.flatMap (fun b => b.revealed.events base none) ++
          (liveResults parts).map (ResultItem.event base)) := by
  -- along the stream, with what the mapper remembers
  induction h generalizing acc stream with
  | nil =>
    obtain ⟨⟨ev, ctx⟩, rfl, hev⟩ := List.map_eq_singleton_iff.mp hstream
    obtain rfl : ev = _ := hev
    refine ⟨[], ctx, ?_, Same.nil⟩
    simp [mapDaemonEvents, mapDaemonEvent, DaemonEvent.subagentHandle, herr, runEffect]
  | @speech pending last index kind deltas b parts blocks shown hchunks hspells hrest ih =>
    rw [List.flatMap_cons, List.append_assoc] at hstream
    obtain ⟨blockStream, rest, rfl, hblock, hparts⟩ := List.map_eq_append_iff.mp hstream
    obtain ⟨-, ch, hch, hevents⟩ := hspells.events_revealed
    obtain ⟨es₁, acc', hmap, herr', hpieces⟩ := exists_pieces_block hch acc hblock rest
    obtain ⟨es₂, ctx, hmap₂, hsame⟩ := ih (herr'.trans herr) trivial hparts
    refine ⟨es₁ ++ es₂, ctx, by rw [hmap, hmap₂, List.append_assoc], ?_⟩
    have hhead := hpieces.same hchunks base none
    rw [← hevents base none] at hhead
    simpa [List.append_assoc] using hhead.append hsame
  | @toolUse pending last index deltas parts blocks shown tool md hrest ih =>
    rw [List.flatMap_cons, List.append_assoc] at hstream
    obtain ⟨blockStream, rest, rfl, hblock, hparts⟩ := List.map_eq_append_iff.mp hstream
    obtain ⟨acc', hmap, herr', hlast'⟩ := exists_map_toolUse acc hblock rest
    obtain ⟨es, ctx, hmap₂, hsame⟩ := ih (herr'.trans herr) hlast' hparts
    exact ⟨es, ctx, hmap.trans hmap₂, hsame⟩
  | @call before after last tool md callId input name parts blocks shown hcall hrest ih =>
    obtain ⟨⟨ev, ctx⟩, rest, rfl, hev, hparts⟩ := List.map_eq_cons_iff.mp hstream
    obtain rfl : ev = _ := hev
    obtain ⟨es, ctx', hmap, hsame⟩ := ih herr hlast hparts
    refine ⟨tool.event ctx.eventBase :: es, ctx', ?_, ?_⟩
    · rw [mapDaemonEvents_cons, mapDaemonEvent_call hlast hcall, hmap]
      rfl
    · exact (same_toolStarted ctx.eventBase base _ _ _ _ _).cons hsame
  | @result pending last r short full parts blocks shown hdelivers hafter hrest ih =>
    obtain ⟨⟨ev, ctx⟩, rest, rfl, hev, hparts⟩ := List.map_eq_cons_iff.mp hstream
    obtain rfl : ev = _ := hev
    obtain ⟨es, ctx', hmap, hsame⟩ := ih herr hlast hparts
    have hresult : mapDaemonEvent fromStr (.toolResult r.callId short full r.isError promptId none)
        acc ctx = (⟨[r.event ctx.eventBase], []⟩, acc) := by
      simp [mapDaemonEvent, DaemonEvent.subagentHandle, hdelivers.extract_eq, ResultItem.event]
    have hshown : r.callId ∉ shown.filterMap ContentBlock.callId := fun hmem =>
      hafter ((hrest.perm.filterMap _).mem_iff.mp hmem)
    refine ⟨r.event ctx.eventBase :: es, ctx', ?_, ?_⟩
    · rw [mapDaemonEvents_cons, hresult, hmap]
      rfl
    · have hhead := (same_toolFinished ctx.eventBase base r.callId (!r.isError.getD false)
        (liftExtract r.content).output (liftExtract r.content).images none).cons hsame
      exact hhead.of_eq fun s => foldl_cons_append (commutes_result hshown base) _ s

end Mapper

/-! ### Both ways -/

/-- Only the order of each tool's results matters. -/
theorem foldAllFrom_results (base : SessionEventBase) {results results' : List ResultItem}
    (h : ∀ id, results.filter (·.callId = id) = results'.filter (·.callId = id))
    (s : SessionState) :
    foldAllFrom s (results.map (ResultItem.event base)) =
      foldAllFrom s (results'.map (ResultItem.event base)) := by
  unfold foldAllFrom
  rw [List.foldl_map, List.foldl_map]
  refine foldl_eq_of_filter_key (fun r r' hne => ?_) h s
  exact commutes_toolFinished_toolFinished base base _ _ _ _ _ _ _ _ _ hne

/-- What a turn tells before its end shows as its message with the blocks in the order they show,
redacted and opaque blocks as thinking. -/
theorem exists_same_told {fromStr : String → Option Json} {msg : AssistantMessage}
    {parts : List LivePart} {shown : List ContentBlock} (hlive : msg.Live fromStr parts shown)
    (base : SessionEventBase) {acc : FoldAccumulator} (herr : acc.turnError = none)
    {stream : List (DaemonEvent × MapCtx)}
    (hstream : stream.map Prod.fst =
      parts.flatMap (LivePart.events msg.promptId) ++ [.messageComplete msg.promptId none]) :
    ∃ es ctx, mapDaemonEvents fromStr acc stream =
        es ++ [buildPostFetchEvent .runCompleted ctx (some msg.promptId)] ∧
      Same foldEvent SessionState.untimedItems es ((msg.arranged shown).revealed.told base) := by
  obtain ⟨es, ctx, hmap, hsame⟩ :=
    exists_same_streams hlive.blocks msg.promptId base herr trivial hstream
  refine ⟨es, ctx, hmap, hsame.of_eq fun s => ?_⟩
  have htold : (msg.arranged shown).revealed.told base =
      shown.flatMap (fun b => b.revealed.events base none) ++
        msg.results.map (ResultItem.event base) := by
    unfold AssistantMessage.told AssistantMessage.revealed AssistantMessage.arranged
    rw [List.flatMap_map]
  rw [htold, List.foldl_append, List.foldl_append]
  exact foldAllFrom_results base hlive.results _

/-- The live stream of a message shows the history of the message with its blocks in the order
they show, redacted and opaque blocks as thinking. -/
theorem shownItems_live {fromStr : String → Option Json} (acc : FoldAccumulator)
    {msg : AssistantMessage} {parts : List LivePart} {shown : List ContentBlock}
    (hlive : msg.Live fromStr parts shown) {stream : List (DaemonEvent × MapCtx)}
    (hstream : (topLevel stream).map Prod.fst = msg.liveEvents parts) (ctx : HistoryMapCtx) :
    (foldAll (mapDaemonEvents fromStr acc stream)).shownItems =
      (foldAll (historyToSeedEvents (msg.arranged shown).revealed.history ctx)).shownItems := by
  rw [← mapDaemonEvents_topLevel]
  obtain ⟨⟨ev, startCtx⟩, rest, htop, hev, hrest⟩ := List.map_eq_cons_iff.mp hstream
  obtain rfl : ev = _ := hev
  -- the start of the turn clears an error and leaves the items
  let base := ctx.eventBase ""
  have herr : ({ acc with turnError := none } : FoldAccumulator).turnError = none := rfl
  obtain ⟨es, endCtx, hmap, hsame⟩ := exists_same_told hlive base herr hrest
  let start : SessionDriverEvent := .sessionUpdated startCtx.eventBase (startCtx.snapshot .running)
  have hemit : mapDaemonEvents fromStr acc (topLevel stream) =
      start :: (es ++ [buildPostFetchEvent .runCompleted endCtx (some msg.promptId)]) := by
    rw [htop, mapDaemonEvents_cons, ← hmap]
    rfl
  have hstart : (foldEvent initialSessionState start).untimedItems = [] := by
    have hrun : (startCtx.snapshot .running).status = .running := startCtx.snapshot_status _
    simp [start, foldEvent, foldSnapshot, hrun, applySnapshot, SessionState.untimedItems,
      initialSessionState]
  have hidle : (endCtx.snapshot .idle).status ≠ .running := by
    rw [endCtx.snapshot_status]
    decide
  calc (foldAll (mapDaemonEvents fromStr acc (topLevel stream))).shownItems
      = (foldEvent (foldAllFrom (foldEvent initialSessionState start) es)
          (buildPostFetchEvent .runCompleted endCtx (some msg.promptId))).shownItems := by
        rw [hemit]
        unfold foldAll
        rw [foldAllFrom_cons, foldAllFrom_append]
        rfl
    _ = (foldAllFrom (foldEvent initialSessionState start) es).untimedItems.map
          TranscriptItem.settled := shownItems_runCompleted _ _ hidle _ _
    _ = (foldAll ((msg.arranged shown).revealed.told base)).untimedItems.map
          TranscriptItem.settled := congrArg (List.map _) (hsame _ initialSessionState hstart)
    _ = (foldAll (historyToSeedEvents (msg.arranged shown).revealed.history ctx)).shownItems :=
        (shownItems_history (msg.arranged shown).revealed ctx base).symm

/-- **The live stream and the history of a message show the same**, where the calls of its tools
come in the order of its blocks and before later texts; in any other order, the stream shows the
history of the message with its tool-use blocks where their calls come.  A message is streamed with
any deltas, any calls and results between its blocks, and any events of nested turns, to a mapper
in any state.  Its redacted and opaque blocks show as thinking live, and are not told by the
history. -/
theorem shownItems_live_eq_history (fromStr : String → Option Json) (acc : FoldAccumulator)
    (msg : AssistantMessage) (parts : List LivePart) (shown : List ContentBlock)
    (hlive : msg.Live fromStr parts shown) (stream : List (DaemonEvent × MapCtx))
    (hstream : (topLevel stream).map Prod.fst = msg.liveEvents parts) (ctx : HistoryMapCtx) :
    (shown = msg.blocks → (foldAll (mapDaemonEvents fromStr acc stream)).shownItems =
        (foldAll (historyToSeedEvents msg.revealed.history ctx)).shownItems) ∧
      (foldAll (mapDaemonEvents fromStr acc stream)).shownItems =
        (foldAll (historyToSeedEvents (msg.arranged shown).revealed.history ctx)).shownItems ∧
      shown.Perm msg.blocks ∧
      historyToSeedEvents msg.history ctx = historyToSeedEvents msg.hidden.history ctx := by
  have hitems := shownItems_live acc hlive hstream ctx
  refine ⟨?_, hitems, hlive.blocks.perm, (historyToSeedEvents_hidden msg ctx).symm⟩
  rintro rfl
  exact hitems

/-! ### Two messages, and where the ways part -/

namespace Replay

def ref : SessionRef := ⟨"ws", "s1"⟩

/-- A context that knows the session's reference and its status only. -/
def mapCtx : MapCtx where
  ref := ref
  now := "now"
  snapshot status :=
    { (⟨ref⟩ : HistoryMapCtx).switchSnapshot "now" none none with status := status }
  snapshot_status _ := rfl
  liveStatus := .running

/-- A parser, on the empty object. -/
def fromStr (s : String) : Option Json := if s = "\x7b\x7d" then some (.object []) else none

/-- A message with some blocks, and some results without a time of their own. -/
def message (blocks : List ContentBlock) (results : List (String × Json)) : AssistantMessage where
  promptId := "p"
  emittedAt := some "now"
  blocks := blocks
  results := results.map fun r => ⟨r.1, some r.2, none, none⟩

/-- The stream of a message's turn. -/
def stream (msg : AssistantMessage) (parts : List LivePart) : List (DaemonEvent × MapCtx) :=
  (msg.liveEvents parts).map (·, mapCtx)

/-- What a stream shows. -/
def live (msg : AssistantMessage) (parts : List LivePart) : List TranscriptItem :=
  (foldAll (mapDaemonEvents fromStr createAccumulator (stream msg parts))).shownItems

/-- What a history shows. -/
def replayed (msg : AssistantMessage) : List TranscriptItem :=
  (foldAll (historyToSeedEvents msg.history ⟨ref⟩)).shownItems

/-- A message that thinks, calls a tool and gets its result. -/
def bash : AssistantMessage :=
  message [.thinking "sig" "hmm", .toolUse ⟨"c", "bash", .object []⟩ none]
    [("c", .object [("text", .str "ok")])]

/-- Its stream: the call leaves its name and input to the block before it. -/
def bashParts : List LivePart :=
  [.block 0 .thinking [.thinking "hm", .thinking "m", .signatureDelta "sig"],
    .block 1 (.toolUse "c" "bash" none) [.toolUseInput "\x7b", .toolUseInput "\x7d"],
    .call "c" none "",
    .result ⟨"c", some (.object [("text", .str "ok")]), none, none⟩ (some "o")
      (some (.object [("text", .str "ok")]))]

/-- A message that calls a tool and gets a result. -/
def tool (input content : Json) : AssistantMessage :=
  message [.toolUse ⟨"c", "bash", input⟩ none] [("c", content)]

/-- Its stream: the result comes in full and in a short form. -/
def toolParts (input : Option Json) (content : Json) : List LivePart :=
  [.block 0 (.toolUse "c" "bash" none) [], .call "c" input "bash",
    .result ⟨"c", some content, none, none⟩ (some "short") (some content)]

/-- A message that calls two tools. -/
def pair : AssistantMessage :=
  message [.toolUse ⟨"a", "read", .object []⟩ none, .toolUse ⟨"b", "bash", .object []⟩ none] []

/-- Its stream: the second tool is called first. -/
def pairParts : List LivePart :=
  [.block 0 (.toolUse "a" "read" none) [], .block 1 (.toolUse "b" "bash" none) [],
    .call "b" (some (.object [])) "", .call "a" (some (.object [])) "read"]

/-- The tools that show. -/
def toolIds (items : List TranscriptItem) : List String :=
  items.filterMap fun
    | .tool t => some t.id
    | _ => none

/-- The text of a tool's output. -/
def outputText : TranscriptItem → Option String
  | .tool t => t.output.bind Json.asStr
  | _ => none

/-- Whether an item is a tool that has an input. -/
def hasInput : TranscriptItem → Bool
  | .tool t => t.input.isSome
  | _ => false

end Replay

open Replay in
theorem shownItems_live_eq_history_bash :
    ((foldAll (mapDaemonEvents fromStr createAccumulator (stream bash bashParts))).shownItems =
        (foldAll (historyToSeedEvents bash.revealed.history ⟨ref⟩)).shownItems ∧
      historyToSeedEvents bash.history ⟨ref⟩ = historyToSeedEvents bash.hidden.history ⟨ref⟩) ∧
    live pair pairParts = replayed (pair.arranged pair.blocks.reverse) := by
  have hblocks : Streams fromStr [] none bashParts bash.blocks bash.blocks := by
    refine .speech (by decide) (.thinking "sig" "hmm") (.toolUse ⟨"c", "bash", .object []⟩ none ?_)
    refine .call [] ⟨rfl, rfl, rfl⟩ (.result (.inl ⟨rfl, ?_⟩) (by decide) .nil)
    exact fun h => absurd h (by decide)
  have hpair : Streams fromStr [] none pairParts pair.blocks pair.blocks.reverse := by
    refine .toolUse ⟨"a", "read", .object []⟩ none (.toolUse ⟨"b", "bash", .object []⟩ none ?_)
    refine .call [.toolUse ⟨"a", "read", .object []⟩ none] ⟨rfl, rfl, rfl⟩ ?_
    exact .call [] ⟨rfl, rfl, rfl⟩ .nil
  obtain ⟨hsame, -, -, hhidden⟩ := shownItems_live_eq_history fromStr createAccumulator bash
    bashParts bash.blocks ⟨hblocks, fun _ => rfl⟩ (stream bash bashParts) rfl ⟨ref⟩
  obtain ⟨-, hitems, -, -⟩ := shownItems_live_eq_history fromStr createAccumulator pair
    pairParts pair.blocks.reverse ⟨hpair, fun _ => rfl⟩ (stream pair pairParts) rfl ⟨ref⟩
  exact ⟨⟨hsame rfl, hhidden⟩, hitems⟩

open Replay in
theorem shownItems_live_ne_history :
    -- a redacted block is thinking live, and not told by the history
    live (Replay.message [.redactedThinking "r"] [])
          [.block 0 .redactedThinking [.redactedThinking "r"]] ≠
        replayed (Replay.message [.redactedThinking "r"] []) ∧
      -- an empty text of no delta opens no bubble live
      live (Replay.message [.text ""] []) [.block 0 .text []] ≠
        replayed (Replay.message [.text ""] []) ∧
      -- a tool is announced live by its call, which may come after a later text
      live (Replay.message [.toolUse ⟨"c", "bash", .object []⟩ none, .text "t"] [])
          [.block 0 (.toolUse "c" "bash" none) [], .block 1 .text [.text "t"],
            .call "c" (some (.object [])) "bash"] ≠
        replayed (Replay.message [.toolUse ⟨"c", "bash", .object []⟩ none, .text "t"] []) ∧
      -- the tools show in the order of their calls
      live pair pairParts ≠ replayed pair ∧
      -- an input `null` is none in a call
      live (tool .null (.object [("text", .str "ok")]))
          (toolParts none (.object [("text", .str "ok")])) ≠
        replayed (tool .null (.object [("text", .str "ok")])) ∧
      -- an empty text gives way to the short form, which the history does not have
      live (tool (.object []) (.object [("text", .str "")]))
          (toolParts (some (.object [])) (.object [("text", .str "")])) ≠
        replayed (tool (.object []) (.object [("text", .str "")])) ∧
      -- the history does not know the preview of a diff
      live (tool (.object []) (.object [("diff_preview", .object [("summary", .str "+1")])]))
          (toolParts (some (.object []))
            (.object [("diff_preview", .object [("summary", .str "+1")])])) ≠
        replayed (tool (.object [])
          (.object [("diff_preview", .object [("summary", .str "+1")])])) ∧
      -- nor a content that is not an object
      live (tool (.object []) (.str "ok")) (toolParts (some (.object [])) (.str "ok")) ≠
        replayed (tool (.object []) (.str "ok")) := by
  refine ⟨fun h => ?_, fun h => ?_, fun h => ?_, fun h => ?_, fun h => ?_, fun h => ?_,
    fun h => ?_, fun h => ?_⟩
  · have hlen := congrArg List.length h
    revert hlen
    decide
  · have hlen := congrArg List.length h
    revert hlen
    decide
  · have hkinds := congrArg (List.map hasInput) h
    revert hkinds
    decide
  · have hids := congrArg toolIds h
    revert hids
    decide
  · have hinput := congrArg (List.map hasInput) h
    revert hinput
    decide
  · have houtput := congrArg (List.map outputText) h
    revert houtput
    decide
  · have houtput := congrArg (List.map outputText) h
    revert houtput
    decide
  · have houtput := congrArg (List.map outputText) h
    revert houtput
    decide

end Pantoken
