import Pantoken.Polytoken.LiveEvents

/-!
# Prompts and the answers to them

The driver posts a prompt to the daemon and echoes it as a user message once the daemon's
answer is there.  The turn the prompt starts streams meanwhile, and the consumer of the
stream forwards it without waiting for the echo.

Every event the driver emits is marked for the record: the echo of a prompt is its question,
and what the stream emits for the assistant and the tools of a turn is its answer.  The
events of a reseed are replayed from the history and are neither.

## Main definitions

* `SentPrompt`, `SentPrompt.echo` — what `prompt` emits once the daemon has answered.
* `Mark`, `PromptedSession` — a session with its prompts, and the marks of what it emitted.
* `PromptedSession.QuestionsAbove` — every question is emitted, and shown, before its answer.

## Main results

* `keys_foldEvent` — the fold leaves the items where they are and adds one below at most.
* `questions_above_iff` — **every question comes before its answer exactly when nothing of a
  turn's answer is streamed while the echo of its prompt waits**.
* `answer_before_question` — the turn streams before the answer of the post arrives.
-/

namespace Pantoken

/-! ### The rows of the transcript -/

def TranscriptItem.id : TranscriptItem → String
  | .user u => u.id
  | .assistant a => a.id
  | .tool t => t.id
  | .notice n => n.id
  | .inject i => i.id

section Keys

variable {items : List TranscriptItem}

theorem id_closeItem (completedAt : Option String) (i : TranscriptItem) :
    (closeItem completedAt i).id = i.id := by
  cases i with
  | assistant a =>
    simp only [closeItem]
    split <;> rfl
  | _ => rfl

@[simp] theorem ids_closeOpenAssistant (completedAt : Option String) :
    (closeOpenAssistant items completedAt).map TranscriptItem.id = items.map TranscriptItem.id :=
  List.map_mapLast (id_closeItem completedAt) items

@[simp] theorem ids_pushItem (i : TranscriptItem) :
    (pushItem items i).map TranscriptItem.id = items.map TranscriptItem.id ++ [i.id] := by
  simp [pushItem]

@[simp] theorem ids_interruptRunningTools (finishedAt : String) :
    (interruptRunningTools items finishedAt).map TranscriptItem.id =
      items.map TranscriptItem.id := by
  have hid : ∀ i : TranscriptItem, (interruptItem finishedAt i).id = i.id := by
    intro i
    cases i with
    | tool t =>
      simp only [interruptItem]
      split <;> rfl
    | _ => rfl
  unfold interruptRunningTools
  rw [List.map_map]
  exact List.map_congr_left fun i _ => hid i

@[simp] theorem ids_stampEntryId (kind : EntryIdKind) (entryId : Option String) :
    (stampEntryId items kind entryId).map TranscriptItem.id = items.map TranscriptItem.id := by
  cases entryId with
  | none => rfl
  | some entryId =>
    refine List.map_modifyLastWhere (fun i j hij => ?_) items
    cases i with
    | user u =>
      simp only [stampItem, Option.ite_none_right_eq_some] at hij
      rw [← Option.some.inj hij.2]
      rfl
    | assistant a =>
      simp only [stampItem, Option.ite_none_right_eq_some] at hij
      rw [← Option.some.inj hij.2]
      rfl
    | _ => cases hij

@[simp] theorem ids_mapTools (callId : String) {f : ToolItem → ToolItem}
    (hf : ∀ t, (f t).id = t.id) :
    (mapTools callId f items).map TranscriptItem.id = items.map TranscriptItem.id := by
  unfold mapTools
  rw [List.map_map]
  refine List.map_congr_left fun i _ => ?_
  cases i with
  | tool t =>
    dsimp only [Function.comp]
    split
    · exact hf t
    · rfl
  | _ => rfl

/-- A delta adds the bubble it opens. -/
theorem ids_foldDelta (ts text : String) (channel : Option AssistantDeltaChannel)
    (entryId : Option String) : ∃ new : List String, new.length ≤ 1 ∧
      (foldDelta items ts text channel entryId).map TranscriptItem.id =
        items.map TranscriptItem.id ++ new := by
  have hid : ∀ i : TranscriptItem, (appendDelta channel text i).id = i.id := by
    intro i
    cases i with
    | assistant a =>
      change (a.append channel text).id = a.id
      unfold AssistantItem.append
      split <;> rfl
    | _ => rfl
  unfold foldDelta
  dsimp only
  rw [List.map_mapLast hid]
  split
  · exact ⟨[], by simp, by simp⟩
  · exact ⟨[_], by simp, by rw [List.map_append, List.map_singleton]⟩

theorem ids_foldSnapshot (s : SessionState) (snapshot : SessionSnapshot) (ts : String) :
    (foldSnapshot s snapshot ts).items.map TranscriptItem.id = s.items.map TranscriptItem.id := by
  unfold foldSnapshot
  dsimp only
  split
  · exact ids_closeOpenAssistant _
  · rfl

/-- **The fold leaves the items where they are and adds one below at most**, unless the
session is reset. -/
theorem keys_foldEvent (s : SessionState) {e : SessionDriverEvent}
    (hreset : ∀ base, e ≠ .sessionReset base) : ∃ new : List String, new.length ≤ 1 ∧
      (foldEvent s e).items.map TranscriptItem.id = s.items.map TranscriptItem.id ++ new := by
  have hsame : (foldEvent s e).items.map TranscriptItem.id = s.items.map TranscriptItem.id →
      ∃ new : List String, new.length ≤ 1 ∧ (foldEvent s e).items.map TranscriptItem.id =
        s.items.map TranscriptItem.id ++ new := by
    intro h
    exact ⟨[], by simp, by rw [h, List.append_nil]⟩
  cases e with
  | sessionReset base => exact absurd rfl (hreset base)
  | sessionOpened base snapshot => exact hsame (ids_foldSnapshot s snapshot _)
  | sessionUpdated base snapshot => exact hsame (ids_foldSnapshot s snapshot _)
  | runCompleted base snapshot userEntryId assistantEntryId =>
    apply hsame
    simp only [foldEvent, ids_stampEntryId, ids_interruptRunningTools]
    exact ids_foldSnapshot s snapshot _
  | assistantDelta base text channel entryId => exact ids_foldDelta _ _ _ _
  | toolUpdated base callId text progress => exact hsame (ids_mapTools callId fun _ => rfl)
  | toolFinished base callId success output images interrupted =>
    exact hsame (ids_mapTools callId fun _ => rfl)
  | queueUpdated base messages => exact hsame rfl
  | usageUpdated base usage => exact hsame rfl
  | hostUiResolved base requestId => exact hsame rfl
  | sessionClosed base reason =>
    apply hsame
    simp [foldEvent]
  | hostUiRequest base request =>
    simp only [foldEvent]
    unfold foldHostUiRequest
    split
    · split
      · exact ⟨[], by simp, by simp⟩
      · exact ⟨[], by simp, by simp⟩
    · cases request with
      | notify rid message level => exact ⟨[rid], by simp, ids_pushItem _⟩
      | _ => exact ⟨[], by simp, by simp⟩
  | runFailed base error =>
    refine ⟨[s!"err-{base.timestamp}"], by simp, ?_⟩
    simp only [foldEvent, List.map_append, List.map_singleton, ids_interruptRunningTools,
      ids_closeOpenAssistant]
    rfl
  | _ => exact ⟨[_], by simp, ids_pushItem _⟩

end Keys

/-! ### Marks -/

/-- An event of the assistant or of a tool. -/
def SessionDriverEvent.isAnswer : SessionDriverEvent → Bool
  | .assistantDelta .. | .toolStarted .. | .toolUpdated .. | .toolFinished .. => true
  | _ => false

/-- The daemon's name of the prompt an event belongs to. -/
def DaemonEvent.promptId : DaemonEvent → PromptId
  | .messageStart p _ | .messageComplete p _ | .turnCancelled p _ | .modelError _ p _
  | .contentBlockStart _ _ p _ | .contentBlockDelta _ _ p _ | .contentBlockStop _ p _
  | .toolCall _ _ _ p _ | .toolResult _ _ _ _ p _ => p

/-- What an emitted event is: the question of the prompt the daemon named so, part of the
answer to it, or neither. -/
inductive Mark where
  | question (p : PromptId)
  | answer (p : PromptId)
  | other
  deriving DecidableEq

/-- The first answers the prompt that the second asks. -/
def Mark.Answers (a b : Mark) : Prop := ∃ p, a = .answer p ∧ b = .question p

/-- The mark of an event the stream makes the driver emit. -/
def markOf (ev : LiveEvent) (e : SessionDriverEvent) : Mark :=
  match ev with
  | .turn ev => if e.isAnswer then .answer ev.promptId else .other
  | .ambient _ _ => .other

/-! ### Prompts -/

/-- A prompt as `prompt` was called with it. -/
structure SentPrompt where
  text : String
  images : List ImageContent
  promptId : Option String

/-- The warning that images were not sent. -/
def SentPrompt.imageWarning (prompt : SentPrompt) (base : SessionEventBase) (millis : Int) :
    List SessionDriverEvent :=
  match prompt.images with
  | [] => []
  | images =>
    let plural := if images.length = 1 then "1 image was" else s!"{images.length} images were"
    [.hostUiRequest base (.notify s!"img-unsupported-{millis}"
      s!"⚠ {plural} attached but the daemon doesn't support images yet — only the text was sent."
      (some .warning))]

/-- What `prompt` emits for an accepted prompt. -/
def SentPrompt.echo (prompt : SentPrompt) (base : SessionEventBase) (millis : Int)
    (references : Option (List ResolvedRef)) (p : PromptId) : List (Mark × SessionDriverEvent) :=
  (.question p, .userMessage base (prompt.promptId.getD s!"pt-{millis}") prompt.text
    (if prompt.images = [] then none else some prompt.images) none references) ::
  (prompt.imageWarning base millis).map (Prod.mk .other)

/-- What `prompt` emits for a prompt that the daemon queued. -/
def SentPrompt.queuedEcho (prompt : SentPrompt) (base : SessionEventBase) (millis : Int)
    (messages : List SessionQueuedMessage) : List (Mark × SessionDriverEvent) :=
  (.queueUpdated base messages :: prompt.imageWarning base millis).map (Prod.mk .other)

/-! ### A session with its prompts -/

/-- A warm session, the accepted prompts whose echo waits for the answer of the post, the
transcript its events fold to, and the marks of the emitted events and of the rows. -/
structure PromptedSession where
  live : LiveSession
  outstanding : List (PromptId × SentPrompt) := []
  transcript : SessionState := initialSessionState
  marks : List Mark := []
  rows : List Mark := []

namespace PromptedSession

/-- One emitted event is folded.  A reset empties the transcript; any other event leaves the
rows in place, and a row it adds is its own. -/
def emitOne (s : PromptedSession) (e : Mark × SessionDriverEvent) : PromptedSession :=
  let transcript := foldEvent s.transcript e.2
  { s with
    transcript
    marks := s.marks ++ [e.1]
    rows := s.rows.take transcript.items.length ++
      List.replicate (transcript.items.length - s.rows.length) e.1 }

def emit (s : PromptedSession) (evs : List (Mark × SessionDriverEvent)) : PromptedSession :=
  evs.foldl emitOne s

/-- The daemon names every prompt anew. -/
def Fresh (s : PromptedSession) (p : PromptId) : Prop :=
  (∀ q ∈ s.outstanding, q.1 ≠ p) ∧ Mark.question p ∉ s.marks ∧ Mark.answer p ∉ s.marks

instance (s : PromptedSession) (p : PromptId) : Decidable (s.Fresh p) :=
  inferInstanceAs (Decidable (_ ∧ _))

/-- What happens to a session and its prompts. -/
inductive Action where
  /-- The consumer of the stream handles an event. -/
  | deliver (ev : LiveEvent) (now : Timestamp) (fetched : Fetched)
  /-- Another part of the driver caches a state. -/
  | refreshed (state : SessionStateSnapshot)
  /-- The daemon accepts a posted prompt under a name of its own and starts its turn. -/
  | accepted (p : PromptId) (prompt : SentPrompt)
  /-- The answer of the post arrives. -/
  | answered (p : PromptId) (now : Timestamp) (millis : Int)
      (references : Option (List ResolvedRef))
  /-- The answer of the post is lost, and the call fails. -/
  | lost (p : PromptId)
  /-- The answer of the post says that the prompt was queued. -/
  | queued (prompt : SentPrompt) (now : Timestamp) (millis : Int)
      (messages : List SessionQueuedMessage)

section Step

variable (percent : Nat → Nat → F64) (fromStr : String → Option Json) (preview : Json → String)

def step (s : PromptedSession) : Action → PromptedSession
  | .deliver ev now fetched =>
    let live := s.live.deliver percent fromStr preview ev now fetched
    let evs := live.emitted.drop s.live.emitted.length
    { s with live }.emit (evs.map fun e => (markOf ev e, e))
  | .refreshed state =>
    { s with live := { s.live with cache := s.live.cache.refresh (some state) } }
  | .accepted p prompt =>
    if s.Fresh p then { s with outstanding := s.outstanding ++ [(p, prompt)] } else s
  | .answered p now millis references =>
    match s.outstanding.find? (·.1 = p) with
    | some (_, prompt) =>
      { s with outstanding := s.outstanding.filter (·.1 ≠ p) }.emit
        (prompt.echo ⟨s.live.ref, now, none⟩ millis references p)
    | none => s
  | .lost p => { s with outstanding := s.outstanding.filter (·.1 ≠ p) }
  | .queued prompt now millis messages =>
    s.emit (prompt.queuedEcho ⟨s.live.ref, now, none⟩ millis messages)

end Step

/-- Every question is emitted, and shown, before its answer; one whose echo still waits has
no answer yet. -/
structure QuestionsAbove (s : PromptedSession) : Prop where
  emitted : s.marks.Pairwise fun a b => ¬ a.Answers b
  waiting : ∀ q ∈ s.outstanding, Mark.answer q.1 ∉ s.marks
  shown : s.rows.Pairwise fun a b => ¬ a.Answers b

end PromptedSession

/-- The event makes the mapper emit an event of the assistant or of a tool. -/
def DaemonEvent.answers (acc : FoldAccumulator) : DaemonEvent → Bool
  | .contentBlockDelta _ (.text _) _ none => acc.blockKind = some .text
  | .contentBlockDelta _ (.thinking _) _ none => acc.blockKind = some .thinking
  | .contentBlockDelta _ (.redactedThinking _) _ none => acc.blockKind = some .redactedThinking
  | .contentBlockDelta _ (.openAiReasoningOpaque _ _) _ none =>
    acc.blockKind = some .openAiReasoningOpaque
  | .toolCall _ _ _ _ none | .toolResult _ _ _ _ _ none => true
  | _ => false

namespace PromptedSession

/-- Nothing of a turn's answer is streamed while the echo of its prompt waits. -/
def Keeps (s : PromptedSession) : Action → Prop
  | .deliver (.turn ev) _ _ =>
    ev.answers s.live.acc = true → ∀ q ∈ s.outstanding, q.1 ≠ ev.promptId
  | _ => True

end PromptedSession

/-! ### What the stream emits -/

section Deliver

variable (percent : Nat → Nat → F64) (fromStr : String → Option Json) (preview : Json → String)
  (s : LiveSession)

theorem deliver_emitted (ev : LiveEvent) (now : Timestamp) (fetched : Fetched) :
    ∃ mapped outs,
      mapped = mapLiveEvent fromStr preview ev s.acc ((s.patchTitle ev).ctx percent now) ∧
      outs = (LiveSession.runEffects percent { s.patchTitle ev with acc := mapped.2 } now fetched
        mapped.1.effects).2 ∧
      (s.deliver percent fromStr preview ev now fetched).emitted.drop s.emitted.length =
        mapped.1.events ++ outs.flatMap (·.2) := by
  have hacc : (s.patchTitle ev).acc = s.acc := by rw [LiveSession.patchTitle_frame]
  have hemitted : (s.patchTitle ev).emitted = s.emitted := by rw [LiveSession.patchTitle_frame]
  refine ⟨_, _, rfl, rfl, ?_⟩
  dsimp only [LiveSession.deliver]
  rw [LiveSession.runEffects_frame, hacc]
  dsimp only
  rw [hemitted, List.append_assoc, List.drop_left]

/-- A delta answers exactly in a block of its own kind. -/
theorem mapBlockDelta_answers (base : SessionEventBase) (delta : BlockDeltaPayload)
    (acc : FoldAccumulator) (i : Int) (p : PromptId) :
    (∃ e ∈ (mapBlockDelta base delta acc).1.events, e.isAnswer = true) ↔
      (DaemonEvent.contentBlockDelta i delta p none).answers acc = true := by
  have hemit : ∀ (kind : BlockKind) (e : SessionDriverEvent), e.isAnswer = true →
      ((∃ e' ∈ (if acc.blockKind = some kind then ((⟨[e], []⟩ : FoldResult), acc)
        else (FoldResult.default, acc)).1.events, e'.isAnswer = true) ↔
        decide (acc.blockKind = some kind) = true) := by
    intro kind e he
    split
    · rename_i hkind
      simp [he, hkind]
    · rename_i hkind
      simp [FoldResult.default, hkind]
  cases delta with
  | text text => exact hemit .text _ rfl
  | thinking text => exact hemit .thinking _ rfl
  | redactedThinking data => exact hemit .redactedThinking _ rfl
  | openAiReasoningOpaque data id => exact hemit .openAiReasoningOpaque _ rfl
  | toolUseInput partialJson =>
    unfold mapBlockDelta
    dsimp only
    split <;> simp [FoldResult.default, DaemonEvent.answers]
  | signatureDelta signature => simp [mapBlockDelta, FoldResult.default, DaemonEvent.answers]
  | openAiReasoningSummary text => simp [mapBlockDelta, FoldResult.default, DaemonEvent.answers]

/-- A frame of a nested turn does not answer. -/
theorem answers_nested {ev : DaemonEvent} (hsub : ev.subagentHandle.isSome = true)
    (acc : FoldAccumulator) : ev.answers acc = false := by
  obtain ⟨handle, hhandle⟩ := Option.isSome_iff_exists.mp hsub
  cases ev with
  | contentBlockDelta i delta p h =>
    obtain rfl : h = some handle := hhandle
    cases delta <;> rfl
  | toolCall callId input name p h =>
    obtain rfl : h = some handle := hhandle
    rfl
  | toolResult callId content contentFull isError p h =>
    obtain rfl : h = some handle := hhandle
    rfl
  | _ => rfl

/-- The mapper answers exactly for the events that answer. -/
theorem mapDaemonEvent_answers (ev : DaemonEvent) (acc : FoldAccumulator) (ctx : MapCtx) :
    (∃ e ∈ (mapDaemonEvent fromStr ev acc ctx).1.events, e.isAnswer = true) ↔
      ev.answers acc = true := by
  by_cases hsub : ev.subagentHandle.isSome = true
  · simp [mapDaemonEvent, hsub, answers_nested hsub, FoldResult.default]
  · have hnone : ev.subagentHandle = none := by simpa using hsub
    unfold mapDaemonEvent
    rw [if_neg hsub]
    cases ev with
    | contentBlockDelta i delta p handle =>
      obtain rfl : handle = none := hnone
      exact mapBlockDelta_answers _ _ _ _ _
    | toolCall callId input name p handle =>
      obtain rfl : handle = none := hnone
      simp [SessionDriverEvent.isAnswer, DaemonEvent.answers]
    | toolResult callId content contentFull isError p handle =>
      obtain rfl : handle = none := hnone
      simp [SessionDriverEvent.isAnswer, DaemonEvent.answers]
    | messageComplete p handle =>
      dsimp only
      split <;> simp [SessionDriverEvent.isAnswer, DaemonEvent.answers]
    | _ => simp [SessionDriverEvent.isAnswer, DaemonEvent.answers, FoldResult.default]

/-- No effect of a turn's event answers. -/
theorem runEffects_daemon (effects : List DaemonEffect) (now : Timestamp) (fetched : Fetched) :
    ∀ out ∈ (LiveSession.runEffects percent s now fetched (effects.map .daemon)).2,
      ∀ e ∈ out.2, e.isAnswer = false := by
  refine List.foldlRecOn
    (motive := fun r : LiveSession × List (LiveEffect × List SessionDriverEvent) =>
      ∀ out ∈ r.2, ∀ e ∈ out.2, e.isAnswer = false)
    (effects.map LiveEffect.daemon) _ (by simp) fun r hr effect hmem => ?_
  obtain ⟨effect, -, rfl⟩ := List.mem_map.mp hmem
  intro out hout
  rcases List.mem_append.mp hout with hout | hout
  · exact hr out hout
  · obtain rfl := List.mem_singleton.mp hout
    cases effect with
    | fetchState emit promptId =>
      rintro e he
      obtain rfl := List.mem_singleton.mp he
      cases emit with
      | runCompleted => rfl
      | sessionUpdated => rfl

/-- Handling an event of a turn emits part of its answer exactly when the event answers. -/
theorem deliver_answers_iff (ev : DaemonEvent) (now : Timestamp) (fetched : Fetched) :
    (∃ e ∈ (s.deliver percent fromStr preview (.turn ev) now fetched).emitted.drop
      s.emitted.length, e.isAnswer = true) ↔ ev.answers s.acc = true := by
  obtain ⟨mapped, outs, hmapped, houts, hemitted⟩ :=
    deliver_emitted percent fromStr preview s (.turn ev) now fetched
  have hquiet : ∀ e ∈ outs.flatMap (·.2), e.isAnswer = false := by
    intro e he
    obtain ⟨out, hout, he⟩ := List.mem_flatMap.mp he
    rw [houts, hmapped] at hout
    exact runEffects_daemon _ _ _ now fetched out hout e he
  rw [hemitted, hmapped,
    ← mapDaemonEvent_answers fromStr ev s.acc ((s.patchTitle (.turn ev)).ctx percent now)]
  constructor
  · rintro ⟨e, he, hanswer⟩
    rcases List.mem_append.mp he with he | he
    · exact ⟨e, he, hanswer⟩
    · rw [hquiet e he] at hanswer
      cases hanswer
  · rintro ⟨e, he, hanswer⟩
    exact ⟨e, List.mem_append_left _ he, hanswer⟩

end Deliver

section Marks

theorem markOf_ne_question (ev : LiveEvent) (e : SessionDriverEvent) (p : PromptId) :
    markOf ev e ≠ .question p := by
  cases ev with
  | turn ev =>
    simp only [markOf]
    split <;> simp
  | ambient ev handle => simp [markOf]

theorem markOf_eq_answer (ev : LiveEvent) (e : SessionDriverEvent) (p : PromptId) :
    markOf ev e = .answer p ↔
      ∃ dev, ev = .turn dev ∧ dev.promptId = p ∧ e.isAnswer = true := by
  cases ev with
  | turn dev =>
    simp only [markOf]
    split
    · rename_i h
      simp [h]
    · rename_i h
      simp [h]
  | ambient ev handle => simp [markOf]

theorem map_fst_marked (ev : LiveEvent) (evs : List SessionDriverEvent) :
    (evs.map fun e => (markOf ev e, e)).map Prod.fst = evs.map (markOf ev) := by
  rw [List.map_map]
  rfl

/-- What follows the echo in the same call is neither a question nor an answer. -/
theorem marks_imageWarning (prompt : SentPrompt) (base : SessionEventBase) (millis : Int) :
    ∀ m ∈ ((prompt.imageWarning base millis).map (Prod.mk Mark.other)).map Prod.fst,
      m = .other := by
  simp

end Marks

namespace PromptedSession

/-! ### Emitting -/

/-- The rows are those of the transcript, marked in the order of the emitted events, and no
prompt that waits was echoed. -/
structure Tracked (s : PromptedSession) : Prop where
  length : s.rows.length = s.transcript.items.length
  sublist : s.rows.Sublist s.marks
  asked : ∀ q ∈ s.outstanding, Mark.question q.1 ∉ s.marks

section Emit

variable {s : PromptedSession}

@[simp] theorem emit_outstanding (evs : List (Mark × SessionDriverEvent)) :
    (s.emit evs).outstanding = s.outstanding :=
  List.foldlRecOn (motive := fun r : PromptedSession => r.outstanding = s.outstanding)
    evs _ rfl fun _ hr _ _ => hr

theorem emit_marks (evs : List (Mark × SessionDriverEvent)) :
    (s.emit evs).marks = s.marks ++ evs.map Prod.fst := by
  induction evs generalizing s with
  | nil => exact (List.append_nil _).symm
  | cons e evs ih =>
    change ((s.emitOne e).emit evs).marks = _
    rw [ih, List.map_cons]
    exact List.append_assoc _ [e.1] _

/-- The rows after one event. -/
theorem rows_emitOne (h : s.rows.length = s.transcript.items.length)
    (e : Mark × SessionDriverEvent) :
    (s.emitOne e).rows.length = (s.emitOne e).transcript.items.length ∧
      ((s.emitOne e).rows = [] ∨ ∃ n, n ≤ 1 ∧
        (s.emitOne e).rows = s.rows ++ List.replicate n e.1) := by
  have hlen : (s.emitOne e).rows.length = (s.emitOne e).transcript.items.length := by
    simp only [emitOne, List.length_append, List.length_take, List.length_replicate]
    omega
  refine ⟨hlen, ?_⟩
  by_cases hreset : ∃ base, e.2 = .sessionReset base
  · obtain ⟨base, hbase⟩ := hreset
    left
    have hnil : (s.emitOne e).transcript.items = [] := by
      change (foldEvent s.transcript e.2).items = []
      rw [hbase]
      rfl
    rw [hnil] at hlen
    exact List.eq_nil_of_length_eq_zero hlen
  · right
    obtain ⟨new, hnew, hids⟩ := keys_foldEvent s.transcript (e := e.2) fun base hbase =>
      hreset ⟨base, hbase⟩
    have hgrow : (foldEvent s.transcript e.2).items.length = s.rows.length + new.length := by
      have := congrArg List.length hids
      simpa [h] using this
    refine ⟨new.length, hnew, ?_⟩
    simp only [emitOne]
    rw [hgrow, List.take_of_length_le (by omega), Nat.add_sub_cancel_left]

theorem tracked_rows (h : s.rows.length = s.transcript.items.length)
    (hsub : s.rows.Sublist s.marks) (evs : List (Mark × SessionDriverEvent)) :
    (s.emit evs).rows.length = (s.emit evs).transcript.items.length ∧
      (s.emit evs).rows.Sublist (s.emit evs).marks := by
  refine List.foldlRecOn
    (motive := fun r : PromptedSession =>
      r.rows.length = r.transcript.items.length ∧ r.rows.Sublist r.marks)
    evs _ ⟨h, hsub⟩ fun r hr e _ => ?_
  obtain ⟨hlen, hrows⟩ := rows_emitOne hr.1 e
  refine ⟨hlen, ?_⟩
  rcases hrows with hnil | ⟨n, hn, hrows⟩
  · rw [hnil]
    exact List.nil_sublist _
  · rw [hrows]
    refine hr.2.append ?_
    rw [← List.replicate_one]
    exact (List.replicate_sublist_replicate e.1).mpr hn

theorem Tracked.emit (h : s.Tracked) {evs : List (Mark × SessionDriverEvent)}
    (hq : ∀ q ∈ s.outstanding, Mark.question q.1 ∉ evs.map Prod.fst) : (s.emit evs).Tracked := by
  obtain ⟨hlen, hsub⟩ := tracked_rows h.length h.sublist evs
  refine ⟨hlen, hsub, ?_⟩
  intro q hmem
  rw [emit_outstanding] at hmem
  rw [emit_marks, List.mem_append, not_or]
  exact ⟨h.asked q hmem, hq q hmem⟩

/-- Emitting keeps the questions above exactly when no answer to a waiting prompt is emitted. -/
theorem questionsAbove_emit_iff (ht : s.Tracked) (h : s.QuestionsAbove)
    {evs : List (Mark × SessionDriverEvent)}
    (hpair : (evs.map Prod.fst).Pairwise fun a b => ¬ a.Answers b)
    (hq : ∀ p, Mark.question p ∈ evs.map Prod.fst → Mark.answer p ∉ s.marks) :
    (s.emit evs).QuestionsAbove ↔
      ∀ q ∈ s.outstanding, Mark.answer q.1 ∉ evs.map Prod.fst := by
  constructor
  · intro habove q hmem hanswer
    refine habove.waiting q (by rwa [emit_outstanding]) ?_
    rw [emit_marks]
    exact List.mem_append_right _ hanswer
  · intro hwait
    have hemitted : (s.emit evs).marks.Pairwise fun a b => ¬ a.Answers b := by
      rw [emit_marks, List.pairwise_append]
      refine ⟨h.emitted, hpair, ?_⟩
      rintro a ha b hb ⟨p, rfl, rfl⟩
      exact hq p hb ha
    refine ⟨hemitted, ?_, hemitted.sublist (tracked_rows ht.length ht.sublist evs).2⟩
    intro q hmem
    rw [emit_outstanding] at hmem
    rw [emit_marks, List.mem_append, not_or]
    exact ⟨h.waiting q hmem, hwait q hmem⟩

end Emit

/-! ### One step, and every run -/

section Run

variable {percent : Nat → Nat → F64} {fromStr : String → Option Json} {preview : Json → String}
  {s : PromptedSession}

/-- A prompt stops waiting. -/
theorem Tracked.settle (h : s.Tracked) (p : PromptId) :
    ({ s with outstanding := s.outstanding.filter (·.1 ≠ p) } : PromptedSession).Tracked :=
  ⟨h.length, h.sublist, fun q hq => h.asked q (List.mem_of_mem_filter hq)⟩

theorem QuestionsAbove.settle (h : s.QuestionsAbove) (p : PromptId) :
    ({ s with outstanding := s.outstanding.filter (·.1 ≠ p) } : PromptedSession).QuestionsAbove :=
  ⟨h.emitted, fun q hq => h.waiting q (List.mem_of_mem_filter hq), h.shown⟩

theorem tracked_step (h : s.Tracked) (a : Action) :
    (step percent fromStr preview s a).Tracked := by
  cases a with
  | deliver ev now fetched =>
    have hlive : ∀ live, ({ s with live } : PromptedSession).Tracked := fun live =>
      ⟨h.length, h.sublist, h.asked⟩
    refine (hlive _).emit ?_
    intro q _ hq
    rw [map_fst_marked] at hq
    obtain ⟨e, -, he⟩ := List.mem_map.mp hq
    exact markOf_ne_question ev e q.1 he
  | refreshed state => exact ⟨h.length, h.sublist, h.asked⟩
  | accepted p prompt =>
    simp only [step]
    split
    · rename_i hfresh
      refine ⟨h.length, h.sublist, ?_⟩
      intro q hq
      rcases List.mem_append.mp hq with hq | hq
      · exact h.asked q hq
      · obtain rfl := List.mem_singleton.mp hq
        exact hfresh.2.1
    · exact h
  | answered p now millis references =>
    simp only [step]
    split
    · refine (h.settle p).emit ?_
      intro q hq hmem
      rw [SentPrompt.echo, List.map_cons] at hmem
      rcases List.mem_cons.mp hmem with heq | hmem
      · have hne := List.of_mem_filter hq
        cases heq
        simp at hne
      · have := marks_imageWarning _ _ _ _ hmem
        cases this
    · exact h
  | lost p => exact h.settle p
  | queued prompt now millis messages =>
    refine h.emit ?_
    rintro q - hq
    rw [SentPrompt.queuedEcho, List.map_map, List.mem_map] at hq
    obtain ⟨e, -, he⟩ := hq
    cases he

/-- An event of the stream answers no prompt that waits exactly under the condition. -/
theorem keeps_deliver_iff (percent : Nat → Nat → F64) (fromStr : String → Option Json)
    (preview : Json → String) (s : PromptedSession) (ev : LiveEvent) (now : Timestamp)
    (fetched : Fetched) : s.Keeps (.deliver ev now fetched) ↔
      ∀ q ∈ s.outstanding, Mark.answer q.1 ∉
        ((s.live.deliver percent fromStr preview ev now fetched).emitted.drop
          s.live.emitted.length).map (markOf ev) := by
  cases ev with
  | turn ev =>
    have hanswers := deliver_answers_iff percent fromStr preview s.live ev now fetched
    constructor
    · intro hkeeps q hq hmem
      obtain ⟨e, he, hmark⟩ := List.mem_map.mp hmem
      obtain ⟨dev, hdev, hp, hanswer⟩ := (markOf_eq_answer _ e q.1).mp hmark
      cases hdev
      exact hkeeps (hanswers.mp ⟨e, he, hanswer⟩) q hq hp.symm
    · intro hwait hkeeps q hq hp
      obtain ⟨e, he, hanswer⟩ := hanswers.mpr hkeeps
      refine hwait q hq (List.mem_map.mpr ⟨e, he, ?_⟩)
      exact (markOf_eq_answer _ e q.1).mpr ⟨ev, rfl, hp.symm, hanswer⟩
  | ambient ev handle =>
    refine iff_of_true trivial ?_
    intro q _ hmem
    obtain ⟨e, -, hmark⟩ := List.mem_map.mp hmem
    cases hmark

/-- One step keeps the questions above exactly under its condition. -/
theorem questionsAbove_step_iff (ht : s.Tracked) (h : s.QuestionsAbove) (a : Action) :
    s.Keeps a ↔ (step percent fromStr preview s a).QuestionsAbove := by
  cases a with
  | deliver ev now fetched =>
    have htl : ∀ live, ({ s with live } : PromptedSession).Tracked := fun live =>
      ⟨ht.length, ht.sublist, ht.asked⟩
    have hal : ∀ live, ({ s with live } : PromptedSession).QuestionsAbove := fun live =>
      ⟨h.emitted, h.waiting, h.shown⟩
    rw [keeps_deliver_iff percent fromStr preview]
    refine Iff.symm ((questionsAbove_emit_iff (htl _) (hal _) ?_ ?_).trans ?_)
    · rw [map_fst_marked, List.pairwise_map]
      refine List.pairwise_of_forall fun a b => ?_
      rintro ⟨p, -, hb⟩
      exact markOf_ne_question ev b p hb
    · intro p hmem
      rw [map_fst_marked] at hmem
      obtain ⟨e, -, hmark⟩ := List.mem_map.mp hmem
      exact absurd hmark (markOf_ne_question ev e p)
    · rw [map_fst_marked]
  | refreshed state => exact iff_of_true trivial ⟨h.emitted, h.waiting, h.shown⟩
  | accepted p prompt =>
    refine iff_of_true trivial ?_
    simp only [step]
    split
    · rename_i hfresh
      refine ⟨h.emitted, ?_, h.shown⟩
      intro q hq
      rcases List.mem_append.mp hq with hq | hq
      · exact h.waiting q hq
      · obtain rfl := List.mem_singleton.mp hq
        exact hfresh.2.2
    · exact h
  | answered p now millis references =>
    refine iff_of_true trivial ?_
    simp only [step]
    split
    · rename_i q prompt hfind
      have hq : q = p := by simpa using List.find?_some hfind
      have hwait : Mark.answer p ∉ s.marks := by
        rw [← hq]
        exact h.waiting _ (List.mem_of_find?_eq_some hfind)
      have hother : ∀ m ∈ ((prompt.echo ⟨s.live.ref, now, none⟩ millis references p).map
          Prod.fst), m = .question p ∨ m = .other := by
        intro m hm
        rw [SentPrompt.echo, List.map_cons] at hm
        exact (List.mem_cons.mp hm).imp id (marks_imageWarning _ _ _ m)
      refine (questionsAbove_emit_iff (ht.settle p) (h.settle p) ?_ ?_).mpr ?_
      · refine List.pairwise_of_forall_mem_list fun a ha b _ => ?_
        rintro ⟨r, rfl, -⟩
        rcases hother _ ha with heq | heq <;> cases heq
      · intro r hr
        rcases hother _ hr with heq | heq
        · cases heq
          exact hwait
        · cases heq
      · intro r _ hr
        rcases hother _ hr with heq | heq <;> cases heq
    · exact h
  | lost p => exact iff_of_true trivial (h.settle p)
  | queued prompt now millis messages =>
    refine iff_of_true trivial ((questionsAbove_emit_iff ht h ?_ ?_).mpr ?_)
    · rw [SentPrompt.queuedEcho, List.map_map, List.pairwise_map]
      refine List.pairwise_of_forall ?_
      rintro a b ⟨p, ha, -⟩
      cases ha
    · intro p hp
      rw [SentPrompt.queuedEcho, List.map_map, List.mem_map] at hp
      obtain ⟨e, -, he⟩ := hp
      cases he
    · intro q _ hq
      rw [SentPrompt.queuedEcho, List.map_map, List.mem_map] at hq
      obtain ⟨e, -, he⟩ := hq
      cases he

end Run

/-- **Every question is emitted, and shown, before its answer exactly when nothing of a turn's
answer is streamed while the echo of its prompt waits**: in every interleaving of prompts and
the stream, from a warm session without a prompt. -/
theorem questions_above_iff (percent : Nat → Nat → F64) (fromStr : String → Option Json)
    (preview : Json → String) (live : LiveSession) (acts : List Action) :
    Along (step percent fromStr preview) Keeps { live } acts ↔
      ∀ pre, pre <+: acts →
        (pre.foldl (step percent fromStr preview)
          ({ live } : PromptedSession)).QuestionsAbove := by
  have htracked : Tracked { live } := ⟨rfl, List.Sublist.refl _, by simp⟩
  have habove : QuestionsAbove { live } := ⟨List.Pairwise.nil, by simp, List.Pairwise.nil⟩
  have hstep : ∀ s a, s.Tracked ∧ s.QuestionsAbove → (s.Keeps a ↔
      (step percent fromStr preview s a).Tracked ∧
        (step percent fromStr preview s a).QuestionsAbove) := by
    intro s a hs
    rw [questionsAbove_step_iff hs.1 hs.2 a]
    exact (and_iff_right (tracked_step hs.1 a)).symm
  rw [along_iff_forall_part (I := fun s => s.Tracked ∧ s.QuestionsAbove) hstep
    ⟨htracked, habove⟩ acts]
  refine forall₂_congr fun pre _ => and_iff_right ?_
  exact foldl_invariant (I := Tracked) (fun s a hs => tracked_step hs a) htracked pre

/-- The turn streams its first words before the answer of the post arrives. -/
private def streamedBeforeEcho : List Action :=
  [.accepted "p1" ⟨"Why is the sky blue?", [], some "c1"⟩,
    .deliver (.turn (.messageStart "p1" none)) "t1" {},
    .deliver (.turn (.contentBlockStart 0 .text "p1" none)) "t2" {},
    .deliver (.turn (.contentBlockDelta 0 (.text "Because") "p1" none)) "t3" {},
    .answered "p1" "t4" 4 none]

/-- The stream does not wait for the echo, so the answer is emitted and shown above the
question. -/
theorem answer_before_question :
    ¬ (streamedBeforeEcho.foldl (step (fun _ _ => ⟨0⟩) (fun _ => none) fun _ => "")
      { live := { ref := ⟨"w", "s"⟩, workspace := ⟨"w", "/w", none⟩ } }).QuestionsAbove := by
  intro h
  have hrows : [Mark.answer "p1", Mark.question "p1"].Pairwise fun a b => ¬ a.Answers b := h.shown
  rw [List.pairwise_pair] at hrows
  exact hrows ⟨"p1", rfl, rfl⟩

end PromptedSession

end Pantoken
