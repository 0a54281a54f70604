import Pantoken.Protocol.SessionDriver

/-!
# The live stream

The daemon streams a turn block by block.  The mapper turns each of its events into
driver events and into effects the driver runs afterwards; an accumulator remembers the
block under way, the partial input of a tool call, and an error of the turn.

The daemon events here are those of a turn's boundaries, blocks and tools.

## Main definitions

* `DaemonEvent`, `BlockDeltaPayload`, `ContentBlockKind` — the daemon's events.
* `FoldAccumulator`, `MapCtx`, `FoldResult` — what the mapper works with.
* `parseToolInput`, `extractToolResult` — the readers of tool inputs and results.
* `mapDaemonEvent`, `buildPostFetchEvent` — the mapper and the event after a fetch.
* `mapDaemonEvents` — a stream of daemon events, mapped and with its effects run.
-/

namespace Pantoken

/-! ### The daemon's events -/

abbrev PromptId := String

inductive ProviderError where
  | rateLimited (retryAfterSeconds : Option Int)
  | authFailed
  | loginRequired (profile : String)
  | modelNotFound
  | contextTooLarge
  | transport (message : String) (sourceDetail : Option String)
  | protocolMalformed (detail : String)
  | canceled
  | other (code message : String)

inductive ContentBlockKind where
  | text
  | toolUse (id name : String) (providerMetadata : Option Json)
  | thinking
  | redactedThinking
  | openAiReasoningOpaque

inductive BlockDeltaPayload where
  | text (text : String)
  | toolUseInput (partialJson : String)
  | thinking (text : String)
  | signatureDelta (signature : String)
  | redactedThinking (data : String)
  | openAiReasoningOpaque (data id : String)
  | openAiReasoningSummary (text : String)

/-- The events of a turn's boundaries, blocks and tools.  Each may carry the handle of a
nested turn. -/
inductive DaemonEvent where
  | messageStart (promptId : PromptId) (subagentHandle : Option String)
  | messageComplete (promptId : PromptId) (subagentHandle : Option String)
  | turnCancelled (promptId : PromptId) (subagentHandle : Option String)
  | modelError (error : ProviderError) (promptId : PromptId) (subagentHandle : Option String)
  | contentBlockStart (blockIndex : Int) (blockType : ContentBlockKind) (promptId : PromptId)
      (subagentHandle : Option String)
  | contentBlockDelta (blockIndex : Int) (delta : BlockDeltaPayload) (promptId : PromptId)
      (subagentHandle : Option String)
  | contentBlockStop (blockIndex : Int) (promptId : PromptId) (subagentHandle : Option String)
  | toolCall (callId : String) (input : Option Json) (name : String) (promptId : PromptId)
      (subagentHandle : Option String)
  | toolResult (callId : String) (content : Option String) (contentFull : Option Json)
      (isError : Option Bool) (promptId : PromptId) (subagentHandle : Option String)

/-- `subagent_handle` -/
def DaemonEvent.subagentHandle : DaemonEvent → Option String
  | messageStart _ h | messageComplete _ h | turnCancelled _ h | modelError _ _ h
  | contentBlockStart _ _ _ h | contentBlockDelta _ _ _ h | contentBlockStop _ _ h
  | toolCall _ _ _ _ h | toolResult _ _ _ _ _ h => h

/-! ### Accumulator, context and result -/

inductive BlockKind where
  | text | toolUse | thinking | redactedThinking | openAiReasoningOpaque
  deriving DecidableEq

/-- The id and name of a tool-use block, for a tool call that omits them. -/
structure ToolUseBlockMeta where
  id : String
  name : String

/-- The mapper's memory. -/
structure FoldAccumulator where
  blockKind : Option BlockKind
  toolInputBuffer : String
  toolUseBlock : Option ToolUseBlockMeta
  /-- The message of a model error, until the turn ends or is retried. -/
  turnError : Option String

/-- `create_accumulator` -/
def createAccumulator : FoldAccumulator := ⟨none, "", none, none⟩

/-- What the driver knows when an event comes in. -/
structure MapCtx where
  ref : SessionRef
  now : String
  /-- The snapshot at a status. -/
  snapshot : SessionStatus → SessionSnapshot
  snapshot_status : ∀ st, (snapshot st).status = st
  liveStatus : SessionStatus

/-- `meta` -/
def MapCtx.eventBase (ctx : MapCtx) : SessionEventBase := ⟨ctx.ref, ctx.now, none⟩

inductive FetchEmit where
  | runCompleted | sessionUpdated

/-- `DaemonEffect`, of which the events here ask for a fetch of the state only. -/
inductive DaemonEffect where
  | fetchState (emit : FetchEmit) (promptId : Option String)

structure FoldResult where
  events : List SessionDriverEvent
  effects : List DaemonEffect

/-- `FoldResult::default()` -/
def FoldResult.default : FoldResult := ⟨[], []⟩

/-! ### Readers -/

/-- `provider_error_message` -/
def providerErrorMessage : ProviderError → String
  | .rateLimited (some secs) => s!"Rate limited (retry in {secs}s)"
  | .rateLimited none => "Rate limited"
  | .authFailed => "Authentication failed"
  | .loginRequired profile => s!"Login required ({profile})"
  | .modelNotFound => "Model not found"
  | .contextTooLarge => "Context too large"
  | .transport message _ => s!"Transport error: {message}"
  | .protocolMalformed detail => s!"Protocol error: {detail}"
  | .canceled => "Request canceled"
  | .other code message => s!"{code}: {message}"

/-- `parse_tool_input`, over the JSON parser: text that does not parse stays a string. -/
def parseToolInput (fromStr : String → Option Json) (buffer : String) : Option Json :=
  if buffer = "" then none else some ((fromStr buffer).getD (.str buffer))

/-- The image of a rich result, when it has its data and its type. -/
def richImage (obj : List (String × Json)) : Option (List (String × Json) × ImageContent) :=
  match (Json.getMember obj "image").bind Json.asObject with
  | some img =>
    match (Json.getMember img "data").bind Json.asStr,
      (Json.getMember img "media_type").bind Json.asStr with
    | some data, some mediaType => some (img, ⟨data, mediaType⟩)
    | _, _ => none
  | none => none

/-- The text of a block of a rich result, when it is a text block. -/
def blockText (b : Json) : Option String :=
  if (b.get "type").bind Json.asStr = some "text" then (b.get "text").bind Json.asStr else none

/-- The texts of the blocks of a rich result. -/
def joinBlocks (blocks : List Json) : String := String.join (blocks.filterMap blockText)

structure ToolResultExtract where
  output : Option Json
  images : Option (List ImageContent)

/-- Rich text, or the short form when it is empty. -/
def orShort (content : Option String) (text : String) : Option Json :=
  some (.str (if text = "" then content.getD "" else text))

/-- The variants of a rich result `extract_tool_result` knows. -/
def extractRich (content : Option String) (obj : List (String × Json)) :
    Option ToolResultExtract :=
  match richImage obj with
  | some (img, image) =>
    some ⟨orShort content (((Json.getMember img "text_fallback").bind Json.asStr).getD ""),
      some [image]⟩
  | none =>
    match (Json.getMember obj "text").bind Json.asStr with
    | some text => some ⟨orShort content text, none⟩
    | none =>
      match (Json.getMember obj "blocks").bind Json.asArray with
      | some blocks => some ⟨orShort content (joinBlocks blocks), none⟩
      | none =>
        match (Json.getMember obj "diff_preview").bind Json.asObject with
        | some dp =>
          some ⟨orShort content (((Json.getMember dp "summary").bind Json.asStr).getD ""), none⟩
        | none => none

/-- An empty object. -/
def isEmptyObject (v : Json) : Bool := v.asObject.any List.isEmpty

/-- `extract_tool_result` -/
def extractToolResult (content : Option String) (contentFull : Option Json) : ToolResultExtract :=
  let short : ToolResultExtract := ⟨content.map .str, none⟩
  match contentFull with
  | none => short
  | some cf =>
    match cf.asObject.bind (extractRich content) with
    | some extract => extract
    | none =>
      -- an unknown rich variant is kept as it is
      if cf.isNull = false ∧ isEmptyObject cf = false then ⟨some cf, none⟩ else short

/-! ### The mapper -/

/-- `block_kind_from_content` -/
def blockKindFromContent : ContentBlockKind → BlockKind
  | .text => .text
  | .toolUse .. => .toolUse
  | .thinking => .thinking
  | .redactedThinking => .redactedThinking
  | .openAiReasoningOpaque => .openAiReasoningOpaque

/-- A delta of a block: text of a block of its own kind is emitted on its channel, and the
input of a tool is accumulated. -/
def mapBlockDelta (base : SessionEventBase) (delta : BlockDeltaPayload) (acc : FoldAccumulator) :
    FoldResult × FoldAccumulator :=
  let emit (kind : BlockKind) (text : String) (channel : AssistantDeltaChannel) :
      FoldResult × FoldAccumulator :=
    if acc.blockKind = some kind then (⟨[.assistantDelta base text (some channel) none], []⟩, acc)
    else (.default, acc)
  match delta with
  | .text text => emit .text text .text
  | .thinking text => emit .thinking text .thinking
  | .redactedThinking data => emit .redactedThinking data .thinking
  | .openAiReasoningOpaque data _ => emit .openAiReasoningOpaque data .thinking
  | .toolUseInput partialJson =>
    if acc.blockKind = some .toolUse then
      (.default, { acc with toolInputBuffer := acc.toolInputBuffer ++ partialJson })
    else (.default, acc)
  | .signatureDelta _ | .openAiReasoningSummary _ => (.default, acc)

/-- `map_daemon_event` -/
def mapDaemonEvent (fromStr : String → Option Json) (ev : DaemonEvent) (acc : FoldAccumulator)
    (ctx : MapCtx) : FoldResult × FoldAccumulator :=
  if ev.subagentHandle.isSome then (.default, acc)
  else
    let base := ctx.eventBase
    match ev with
    | .messageStart _ _ =>
      (⟨[.sessionUpdated base (ctx.snapshot .running)], []⟩, { acc with turnError := none })
    | .messageComplete promptId _ =>
      -- a turn that met a model error has failed
      match acc.turnError with
      | some message =>
        (⟨[.runFailed base ⟨message, none, none⟩], []⟩, { acc with turnError := none })
      | none => (⟨[], [.fetchState .runCompleted (some promptId)]⟩, acc)
    | .turnCancelled _ _ => (⟨[], [.fetchState .sessionUpdated none]⟩, acc)
    | .contentBlockStart _ blockType _ _ =>
      (.default,
        { acc with
          blockKind := some (blockKindFromContent blockType)
          toolInputBuffer := ""
          toolUseBlock :=
            match blockType with
            | .toolUse id name _ => some ⟨id, name⟩
            | _ => none })
    | .contentBlockDelta _ delta _ _ => mapBlockDelta base delta acc
    | .contentBlockStop _ _ _ => (.default, { acc with blockKind := none })
    | .toolCall callId input name _ _ =>
      -- what the call leaves out is taken from the block before it
      let resolvedInput := input.or (parseToolInput fromStr acc.toolInputBuffer)
      let resolvedName :=
        if name ≠ "" then name else (acc.toolUseBlock.map (·.name)).getD "unknown"
      let resolvedCallId := if callId ≠ "" then callId else (acc.toolUseBlock.map (·.id)).getD ""
      (⟨[.toolStarted base resolvedName resolvedCallId resolvedInput none none], []⟩, acc)
    | .toolResult callId content contentFull isError _ _ =>
      let extracted := extractToolResult content contentFull
      (⟨[.toolFinished base callId (!isError.getD false) extracted.output extracted.images none],
        []⟩, acc)
    | .modelError error _ _ =>
      let message := providerErrorMessage error
      let requestId := "model-error-" ++ base.timestamp
      (⟨[.hostUiRequest base (.notify requestId message (some .warning))], []⟩,
        { acc with turnError := some message })

/-- `build_post_fetch_event` -/
def buildPostFetchEvent (emit : FetchEmit) (ctx : MapCtx) (promptId : Option String) :
    SessionDriverEvent :=
  match emit with
  | .runCompleted => .runCompleted ctx.eventBase (ctx.snapshot .idle) promptId promptId
  | .sessionUpdated => .sessionUpdated ctx.eventBase (ctx.snapshot ctx.liveStatus)

/-- What the driver emits for an effect, once the state is fetched. -/
def runEffect (ctx : MapCtx) : DaemonEffect → SessionDriverEvent
  | .fetchState emit promptId => buildPostFetchEvent emit ctx promptId

/-- What the driver emits for a stream: the events of each daemon event, then those of its
effects.  The clock goes on and the cached state changes, so each has its own context. -/
def mapDaemonEvents (fromStr : String → Option Json) :
    FoldAccumulator → List (DaemonEvent × MapCtx) → List SessionDriverEvent
  | _, [] => []
  | acc, (ev, ctx) :: evs =>
    let (result, acc) := mapDaemonEvent fromStr ev acc ctx
    result.events ++ result.effects.map (runEffect ctx) ++ mapDaemonEvents fromStr acc evs

end Pantoken
