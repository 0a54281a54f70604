import Pantoken.Polytoken.EventMap

/-!
# The replay of a history

When a session is opened or reseeded, its transcript comes from the daemon's history, a
list of items in JSON.  The items are walked in order; each becomes the driver events the
live stream would have emitted for it.

## Main definitions

* `liftToolResult` — the reader of a tool's result.
* `formatSyntheticIso` — the timestamp of an item that has none.
* `SeedFold`, `seedBlock`, `seedItem` — the walk.
* `historyToSeedEvents` — the events of a history.

## Main results

* `extractToolResult_eq_lift_iff`, `extractToolResult_none_eq_lift_iff` — when the live
  reader and this one agree on a result.
-/

namespace Pantoken

/-! ### Readers -/

/-- `plan_review_label` -/
def planReviewLabel : String → Option String
  | "plan_review_required" => some "Plan review required"
  | "plan_mode_reinforcement" => some "Plan mode reminder"
  | "plan_verification" => some "Plan verification"
  | _ => none

structure LiftedToolResult where
  output : Option Json
  images : Option (List ImageContent)
  success : Bool

/-- The variants of a result `lift_tool_result` knows: its text and its images. -/
def liftRich (obj : List (String × Json)) : Option (String × Option (List ImageContent)) :=
  match richImage obj with
  | some (img, image) =>
    some (((Json.getMember img "text_fallback").bind Json.asStr).getD "", some [image])
  | none =>
    match (Json.getMember obj "text").bind Json.asStr with
    | some text => some (text, none)
    | none =>
      match (Json.getMember obj "blocks").bind Json.asArray with
      | some blocks => some (joinBlocks blocks, none)
      | none => none

/-- `lift_tool_result` -/
def liftToolResult (content : Option Json) (isError : Option Bool) : LiftedToolResult :=
  let success := !isError.getD false
  match content.bind Json.asObject with
  | none => ⟨none, none, success⟩
  | some obj =>
    match liftRich obj with
    | some (text, images) => ⟨some (.str text), images, success⟩
    | none => ⟨if obj.isEmpty then none else content, none, success⟩

/-! ### Timestamps -/

/-- `civil_from_days`, of a count of days that is not negative. -/
def civilFromDays (days : Nat) : Nat × Nat × Nat :=
  let z := days + 719468
  let era := z / 146097
  let doe := z - era * 146097
  let yoe := (doe - doe / 1460 + doe / 36524 - doe / 146096) / 365
  let y := yoe + era * 400
  let doy := doe - (365 * yoe + yoe / 4 - yoe / 100)
  let mp := (5 * doy + 2) / 153
  let d := doy - (153 * mp + 2) / 5 + 1
  let m := if mp < 10 then mp + 3 else mp - 9
  (if m ≤ 2 then y + 1 else y, m, d)

/-- A number in decimal, with zeros in front up to a width. -/
def padZeros (width n : Nat) : String :=
  let digits := toString n
  "".pushn '0' (width - digits.length) ++ digits

/-- `format_synthetic_iso` -/
def formatSyntheticIso (ms : Nat) : String :=
  let totalSecs := ms / 1000
  let millis := ms % 1000
  let days := totalSecs / 86400
  let rem := totalSecs % 86400
  let hour := rem / 3600
  let minute := rem % 3600 / 60
  let second := rem % 60
  let (year, month, day) := civilFromDays days
  padZeros 4 year ++ "-" ++ padZeros 2 month ++ "-" ++ padZeros 2 day ++ "T" ++
    padZeros 2 hour ++ ":" ++ padZeros 2 minute ++ ":" ++ padZeros 2 second ++ "." ++
    padZeros 3 millis ++ "Z"

/-- `u64::MAX` -/
def u64Max : Nat := 18446744073709551615

/-- `saturating_mul` -/
def saturatingMul (a b : Nat) : Nat := if a * b ≤ u64Max then a * b else u64Max

/-- The time an item was emitted, or a synthetic one that keeps the order. -/
def itemStamp (item : Json) (i : Nat) : String :=
  ((item.get "emitted_at").bind Json.asStr).getD (formatSyntheticIso (saturatingMul i 1000))

/-! ### The walk -/

structure HistoryMapCtx where
  ref : SessionRef

/-- The base of a replayed event. -/
def HistoryMapCtx.eventBase (ctx : HistoryMapCtx) (stamp : String) : SessionEventBase :=
  ⟨ctx.ref, stamp, none⟩

/-- The snapshot of a switch of the model or the facet, which knows nothing else. -/
def HistoryMapCtx.switchSnapshot (ctx : HistoryMapCtx) (stamp : String)
    (config : Option SessionConfig) (facet : Option String) : SessionSnapshot where
  ref := ctx.ref
  workspace := ⟨ctx.ref.workspaceId, "", none⟩
  title := ""
  status := .idle
  updatedAt := stamp
  archivedAt := none
  preview := none
  config := config
  usage := none
  runningRunId := none
  queuedMessages := none
  facet := facet
  permissionMonitor := none
  adventurousHandoff := none
  notificationAutodrain := none
  activePlan := none
  goal := none
  flags := none
  todos := none
  mcpServers := none

/-- The state of the walk. -/
structure SeedFold where
  out : List SessionDriverEvent
  seq : Nat
  startedCallIds : List String
  finishedCallIds : List String

/-- Emit an event. -/
def SeedFold.push (st : SeedFold) (ev : SessionDriverEvent) : SeedFold :=
  { st with out := st.out ++ [ev] }

/-- A block of an assistant item. -/
def seedBlock (base : SessionEventBase) (promptId : Option String) (st : SeedFold) (b : Json) :
    SeedFold :=
  let text := ((b.get "text").bind Json.asStr).getD ""
  match (b.get "type").bind Json.asStr with
  | some "text" => st.push (.assistantDelta base text (some .text) promptId)
  | some "thinking" => st.push (.assistantDelta base text (some .thinking) promptId)
  | some "tool_use" =>
    let id := ((b.get "id").bind Json.asStr).getD ""
    let name := ((b.get "name").bind Json.asStr).getD ""
    { st.push (.toolStarted base name id (b.get "input") none none) with
      startedCallIds := st.startedCallIds ++ [id] }
  -- redacted_thinking and open_ai_reasoning_opaque have no transcript text
  | _ => st

/-- An item of the history, at its position. -/
def seedItem (ctx : HistoryMapCtx) (st : SeedFold) (entry : Json × Nat) : SeedFold :=
  let (item, i) := entry
  let stamp := itemStamp item i
  let base := ctx.eventBase stamp
  let str (key : String) : Option String := (item.get key).bind Json.asStr
  match str "type" with
  | some "user" =>
    let text := (str "content").getD ""
    match str "prompt_id" with
    | some pid => st.push (.userMessage base pid text none (some pid) none)
    -- a synthetic id, counted up
    | none =>
      { st.push (.userMessage base s!"u-{st.seq}" text none none none) with seq := st.seq + 1 }
  | some "assistant" =>
    match (item.get "blocks").bind Json.asArray with
    | some blocks => blocks.foldl (seedBlock base (str "prompt_id")) st
    | none => st
  | some "tool_result" =>
    let callId := (str "call_id").getD ""
    let lifted := liftToolResult (item.get "content") ((item.get "is_error").bind Json.asBool)
    { st.push (.toolFinished base callId lifted.success lifted.output lifted.images none) with
      finishedCallIds := st.finishedCallIds ++ [callId] }
  | some "system_reminder" =>
    let reasonType := (((item.get "reason").bind Json.asObject).bind
      (Json.getMember · "type")).bind Json.asStr
    let label := reasonType.bind planReviewLabel
    let slug := (str "slug").getD "reminder"
    st.push (.customMessage base s!"reminder-{slug}-{i}" (label.getD slug)
      ((str "body").getD "") label.isSome (reasonType = some "goal_reminder"))
  | some "model_switch" =>
    match str "to_model" with
    | some toModel =>
      st.push (.sessionUpdated base
        (ctx.switchSnapshot stamp
          (some ⟨some toModel, str "to_reasoning_effort", none⟩) none))
    | none => st
  | some "facet_switch" =>
    match str "to_facet" with
    | some toFacet =>
      st.push (.sessionUpdated base (ctx.switchSnapshot stamp none (some toFacet)))
    | none => st
  | some "compaction_fencepost" =>
    let text := (str "summary").getD "Context compacted"
    match str "compaction_id" with
    | some cid =>
      st.push (.customMessage base s!"compaction-{cid}-{i}" "compaction" text true false)
    | none =>
      { st.push (.customMessage base s!"compaction-{st.seq}-{i}" "compaction" text true false) with
        seq := st.seq + 1 }
  | some "context_cleared" =>
    st.push (.customMessage base s!"context-cleared-{i}" "context-cleared" "Context cleared"
      true false)
  | some "session_lifecycle" =>
    st.push (.customMessage base s!"lifecycle-{i}" "lifecycle" ((str "text").getD "") false false)
  | _ => st

/-- The end of a tool whose result the history lost. -/
def orphanFinished (base : SessionEventBase) (callId : String) : SessionDriverEvent :=
  .toolFinished base callId false none none (some true)

/-- `history_to_seed_events` -/
def historyToSeedEvents (items : List Json) (ctx : HistoryMapCtx) : List SessionDriverEvent :=
  match items.getLast? with
  | none => []
  | some last =>
    let st := items.zipIdx.foldl (seedItem ctx) ⟨[], 0, [], []⟩
    let base := ctx.eventBase (itemStamp last items.length)
    let orphans := st.startedCallIds.filter (· ∉ st.finishedCallIds)
    st.out ++ orphans.map (orphanFinished base)

/-! ### The two readers of a result

The live reader falls back to the short form of a result, which the history does not have,
and it knows the preview of a diff. -/

/-- The text and the images of a result, when both readers know its variant. -/
def knownRich (content : Option Json) : Option (String × Option (List ImageContent)) :=
  (content.bind Json.asObject).bind liftRich

/-- The readers agree on a result that comes live in full: its text is there, or no short
form replaces it; a variant neither knows is an object; and one that says nothing has no
short form. -/
def AgreesInFull (short : Option String) (content : Option Json) : Prop :=
  match knownRich content with
  | some (text, _) => text = "" → short.getD "" = ""
  | none =>
    match content with
    | none | some .null | some (.object []) => short = none
    | some (.object obj) => (Json.getMember obj "diff_preview").bind Json.asObject = none
    | some _ => False

/-- The readers agree on a result that comes live in its short form only: that is its text,
or it has none. -/
def AgreesInShort (short : Option String) (content : Option Json) : Prop :=
  match knownRich content with
  | some (text, images) => short = some text ∧ images = none
  | none =>
    match content with
    | some (.object (_ :: _)) => False
    | _ => short = none

/-- What the history reader takes of a result, in the terms of the live one. -/
def liftExtract (content : Option Json) : ToolResultExtract :=
  let lifted := liftToolResult content none
  ⟨lifted.output, lifted.images⟩

theorem liftToolResult_eq (content : Option Json) (isError : Option Bool) :
    liftToolResult content isError =
      ⟨(liftExtract content).output, (liftExtract content).images, !isError.getD false⟩ := by
  unfold liftExtract liftToolResult
  cases content.bind Json.asObject with
  | none => rfl
  | some obj =>
    dsimp only
    cases liftRich obj <;> rfl

theorem extractRich_of_liftRich {obj : List (String × Json)} {text : String}
    {images : Option (List ImageContent)} (h : liftRich obj = some (text, images))
    (short : Option String) : extractRich short obj = some ⟨orShort short text, images⟩ := by
  unfold liftRich at h
  unfold extractRich
  cases himage : richImage obj with
  | some p =>
    rw [himage] at h
    cases h
    rfl
  | none =>
    rw [himage] at h
    dsimp only at h ⊢
    cases htext : (Json.getMember obj "text").bind Json.asStr with
    | some t =>
      rw [htext] at h
      cases h
      rfl
    | none =>
      rw [htext] at h
      dsimp only at h ⊢
      cases hblocks : (Json.getMember obj "blocks").bind Json.asArray with
      | some blocks =>
        rw [hblocks] at h
        cases h
        rfl
      | none =>
        rw [hblocks] at h
        cases h

/-- Of the variants the history reader does not know, the live one knows the diff. -/
theorem extractRich_of_liftRich_none {obj : List (String × Json)} (h : liftRich obj = none)
    (short : Option String) :
    extractRich short obj =
      ((Json.getMember obj "diff_preview").bind Json.asObject).map fun dp =>
        ⟨orShort short (((Json.getMember dp "summary").bind Json.asStr).getD ""), none⟩ := by
  unfold liftRich at h
  unfold extractRich
  cases himage : richImage obj with
  | some p =>
    rw [himage] at h
    cases h
  | none =>
    rw [himage] at h
    dsimp only at h ⊢
    cases htext : (Json.getMember obj "text").bind Json.asStr with
    | some t =>
      rw [htext] at h
      cases h
    | none =>
      rw [htext] at h
      dsimp only at h ⊢
      cases hblocks : (Json.getMember obj "blocks").bind Json.asArray with
      | some blocks =>
        rw [hblocks] at h
        cases h
      | none => cases (Json.getMember obj "diff_preview").bind Json.asObject <;> rfl

theorem orShort_eq_iff (short : Option String) (text : String) :
    orShort short text = some (.str text) ↔ (text = "" → short.getD "" = "") := by
  unfold orShort
  split
  · next h => simp [h]
  · next h => simp [h]

/-- **When the readers agree on a result that comes live in full.** -/
theorem extractToolResult_eq_lift_iff (short : Option String) (content : Option Json) :
    extractToolResult short content = liftExtract content ↔ AgreesInFull short content := by
  cases content with
  | none => simp [extractToolResult, liftExtract, liftToolResult, AgreesInFull, knownRich]
  | some c =>
    cases c with
    | object obj =>
      cases hlift : liftRich obj with
      | some p =>
        -- a variant both know: the texts decide
        obtain ⟨text, images⟩ := p
        have hknown : knownRich (some (.object obj)) = some (text, images) := hlift
        simp [extractToolResult, liftExtract, liftToolResult, AgreesInFull, hknown, hlift,
          extractRich_of_liftRich hlift, orShort_eq_iff]
      | none =>
        have hknown : knownRich (some (.object obj)) = none := hlift
        cases hdiff : (Json.getMember obj "diff_preview").bind Json.asObject with
        | some dp =>
          -- the preview of a diff: a text here, the object there
          cases obj with
          | nil => cases hdiff
          | cons m obj =>
            simp [extractToolResult, liftExtract, liftToolResult, AgreesInFull, hknown, hlift,
              extractRich_of_liftRich_none hlift, hdiff, orShort]
        | none =>
          cases obj with
          | nil =>
            simp [extractToolResult, liftExtract, liftToolResult, AgreesInFull, hknown, hlift,
              extractRich_of_liftRich_none hlift, hdiff, Json.isNull, isEmptyObject]
          | cons m obj =>
            simp [extractToolResult, liftExtract, liftToolResult, AgreesInFull, hknown, hlift,
              extractRich_of_liftRich_none hlift, hdiff, Json.isNull, isEmptyObject]
    | null =>
      simp [extractToolResult, liftExtract, liftToolResult, AgreesInFull, knownRich,
        Json.asObject, Json.isNull]
    | bool | int | float | str | array =>
      simp [extractToolResult, liftExtract, liftToolResult, AgreesInFull, knownRich,
        Json.asObject, Json.isNull, isEmptyObject]

/-- **When the readers agree on a result that comes live in its short form.** -/
theorem extractToolResult_none_eq_lift_iff (short : Option String) (content : Option Json) :
    extractToolResult short none = liftExtract content ↔ AgreesInShort short content := by
  cases content with
  | none => simp [extractToolResult, liftExtract, liftToolResult, AgreesInShort, knownRich]
  | some c =>
    cases c with
    | object obj =>
      cases hlift : liftRich obj with
      | some p =>
        obtain ⟨text, images⟩ := p
        have hknown : knownRich (some (.object obj)) = some (text, images) := hlift
        simp [extractToolResult, liftExtract, liftToolResult, AgreesInShort, hknown, hlift,
          eq_comm]
      | none =>
        have hknown : knownRich (some (.object obj)) = none := hlift
        cases obj <;>
          simp [extractToolResult, liftExtract, liftToolResult, AgreesInShort, hknown, hlift]
    | null | bool | int | float | str | array =>
      simp [extractToolResult, liftExtract, liftToolResult, AgreesInShort, knownRich,
        Json.asObject]

end Pantoken
