import Mathlib.Data.List.Perm.Basic
import Pantoken.Lib.Run
import Pantoken.Protocol.State

/-!
# Dialogs and their answers

The daemon pauses a turn with an interrogative.  The mapper shows it as a card and keeps
what the reverse direction needs in the pending table; a response of a client is turned
into the answer the daemon expects and posted to it.

## Main definitions

* `Interrogation`, `Interrogation.card`, `Interrogation.pending` — what the daemon asks, the
  card shown for it and the entry kept.
* `buildInterrogativeResponse` — the answer of a response, when it fits the entry.
* `Dialogs` — the pending table, the events emitted and the answers on their way.
* `Dialogs.step` — the consumer, the hub, a response, or the end of a post.

## Main results

* `accounted_run` — **in every run an entry is answered at most once, with an answer built
  from it, and an answer that fails is followed by an error notice**.
* `resolved_without_answer` — a card is resolved whose answer the daemon never got.
-/

namespace Pantoken

/-! ### The pending entries -/

inductive PersistenceTarget where
  | session | projectLocal | project | userLocal | user
  deriving DecidableEq

/-- The daemon's interrogative types, with the question form. -/
inductive PendingInterrogativeType where
  | permission | confirmation | clarification | capability | planHandoff | goalProposal
  | askUserQuestion | unknown
  deriving DecidableEq

structure PendingQuestion where
  questionId : String
  optionIds : List String
  optionLabels : Option (List String)
  deriving DecidableEq

structure ApprovalChoice where
  granted : Bool
  persistenceTarget : Option PersistenceTarget
  deriving DecidableEq

/-- What the forward mapping captured for the reverse one. -/
structure PendingInterrogative where
  interrogativeId : String
  interrogativeType : PendingInterrogativeType
  clarificationLabels : Option (List String) := none
  clarificationOptionKeys : Option (List String) := none
  planHandoffLabels : Option (List String) := none
  questions : Option (List PendingQuestion) := none
  permissionChoices : Option (List ApprovalChoice) := none
  deriving DecidableEq

/-- `PERMISSION_APPROVAL_CHOICES`: deny, then grants by escalating scope. -/
def permissionApprovalChoices : List ApprovalChoice :=
  [⟨false, none⟩, ⟨true, none⟩, ⟨true, some .session⟩, ⟨true, some .projectLocal⟩,
    ⟨true, some .project⟩, ⟨true, some .userLocal⟩, ⟨true, some .user⟩]

/-- `PERMISSION_APPROVAL_LABELS`, in the same order. -/
def permissionApprovalLabels : List String :=
  ["Deny", "Allow once", "Allow for session", "Allow for project (local)", "Allow for project",
    "Allow for user (local)", "Allow for user"]

/-- `PLAN_HANDOFF_DECISIONS` -/
def planHandoffDecisions : List String :=
  ["implement_new_context", "implement_current_context", "cancel"]

/-- `prune_approval_options`: the choices whose target the daemon keeps. -/
def pruneApprovalOptions : Option (List PersistenceTarget) → List ApprovalChoice
  | none | some [] => permissionApprovalChoices
  | some targets => permissionApprovalChoices.filter fun choice =>
    match choice.persistenceTarget with
    | none => true
    | some pt => pt ∈ targets

/-! ### The forward mapping -/

structure ClarificationOption where
  key : String
  label : String

structure PlanHandoffContext where
  title : String
  planText : String
  displayPath : String
  targetFacet : String
  /-- implement in a new context, in the current one, cancel -/
  actionLabels : String × String × String

structure GoalProposalContext where
  title : String
  proposedSummary : String

structure PermissionToolCallContext where
  toolName : String
  input : Json

structure AskUserQuestionOption where
  id : String
  label : String
  description : String

structure AskUserQuestion where
  id : String
  question : String
  context : Option String
  options : Option (List AskUserQuestionOption)
  multiSelect : Bool

/-- What an interrogative of the daemon asks, with the context of its type. -/
inductive Question where
  | confirmation (question : String)
  | clarification (question : String) (options : Option (List ClarificationOption))
  | capability (question : String)
  | planHandoff (context : Option PlanHandoffContext)
  | permission (question : String) (keepTargets : Option (List PersistenceTarget))
      (toolCall : Option PermissionToolCallContext)
  | goalProposal (context : Option GoalProposalContext)
  | askUserQuestion (questions : List AskUserQuestion)

structure Interrogation where
  interrogativeId : String
  question : Question

/-- The labels of a plan card: those of its context, or the built-in ones. -/
def planLabels (context : Option PlanHandoffContext) : String × String × String :=
  match context with
  | some ph => ph.actionLabels
  | none => ("Implement (new context)", "Implement (current context)", "Cancel")

/-- The label of a choice, by its place among all choices. -/
def choiceLabel (choice : ApprovalChoice) : Option String :=
  permissionApprovalLabels[permissionApprovalChoices.idxOf choice]?

/-- A question of the form, as the card shows it. -/
def AskUserQuestion.toQna (q : AskUserQuestion) : QnaQuestion where
  question := q.question
  context := q.context
  options := q.options.map (·.map fun o =>
    ⟨o.label, if o.description = "" then none else some o.description⟩)
  multiSelect := some q.multiSelect

/-- The card of `build_interrogative_mapping`; `preview` is the pretty-printed and truncated
input of a tool. -/
def Interrogation.card (preview : Json → String) (i : Interrogation) : HostUiRequest :=
  let requestId := i.interrogativeId
  match i.question with
  | .confirmation question => .confirm requestId "Confirm" question none none
  | .clarification question options =>
    .select requestId question ((options.getD []).map (·.label)) none none
  | .capability question => .confirm requestId "Grant capability?" question none none
  | .planHandoff context =>
    .plan requestId ((context.map (·.title)).getD "Plan handoff")
      ((context.map (·.planText)).getD "") (context.map (·.displayPath))
      (context.map (·.targetFacet)) (planLabels context) none
  | .permission question keepTargets toolCall =>
    .permission requestId (if question = "" then "Approve?" else question)
      (toolCall.map (·.toolName)) (toolCall.map fun t => preview t.input)
      ((pruneApprovalOptions keepTargets).filterMap choiceLabel) none
  | .goalProposal context =>
    let title := (context.map (·.title)).getD "Goal proposal"
    let summary := (context.map (·.proposedSummary)).getD ""
    .confirm requestId title (if summary = "" then title else summary) none none
  | .askUserQuestion questions => .qna requestId none (questions.map (·.toQna)) none

/-- The entry `build_interrogative_mapping` keeps. -/
def Interrogation.pending (i : Interrogation) : PendingInterrogative :=
  match i.question with
  | .confirmation _ => { interrogativeId := i.interrogativeId, interrogativeType := .confirmation }
  | .clarification _ options =>
    { interrogativeId := i.interrogativeId
      interrogativeType := .clarification
      clarificationLabels := some ((options.getD []).map (·.label))
      clarificationOptionKeys := some ((options.getD []).map (·.key)) }
  | .capability _ => { interrogativeId := i.interrogativeId, interrogativeType := .capability }
  | .planHandoff context =>
    let (implementNew, implementCurrent, cancel) := planLabels context
    { interrogativeId := i.interrogativeId
      interrogativeType := .planHandoff
      planHandoffLabels := some [implementNew, implementCurrent, cancel] }
  | .permission _ keepTargets _ =>
    { interrogativeId := i.interrogativeId
      interrogativeType := .permission
      permissionChoices := some (pruneApprovalOptions keepTargets) }
  | .goalProposal _ => { interrogativeId := i.interrogativeId, interrogativeType := .goalProposal }
  | .askUserQuestion questions =>
    { interrogativeId := i.interrogativeId
      interrogativeType := .askUserQuestion
      questions := some (questions.map fun q =>
        ⟨q.id, (q.options.getD []).map (·.id), some ((q.options.getD []).map (·.label))⟩) }

/-! ### The reverse mapping -/

structure QnaAnswer where
  selectedOptionIndices : List Int
  customText : String
  deriving DecidableEq

inductive HostUiResponse where
  | value (requestId value : String)
  | confirmed (requestId : String) (confirmed : Bool)
  | answers (requestId : String) (answers : List QnaAnswer)
  | cancelled (requestId : String) (cancelled : Bool)
  deriving DecidableEq

/-- `response_request_id` -/
def HostUiResponse.requestId : HostUiResponse → String
  | .value r _ | .confirmed r _ | .answers r _ | .cancelled r _ => r

structure AskUserQuestionReply where
  questionId : String
  selectedOptionIds : Option (List String)
  freeText : Option String
  deriving DecidableEq

/-- The answers the daemon takes. -/
inductive InterrogativeResponse where
  | cancel
  | permissionAnswer (granted : Bool) (persistenceTarget : Option PersistenceTarget)
  | confirmationAnswer (confirmed : Bool)
  | clarificationChoice (choice : String)
  | clarificationText (text : String)
  | capabilityAnswer (granted : Bool)
  | planHandoffAnswer (decision : String)
  | goalProposalAnswer (accepted : Bool)
  | askUserQuestionAnswers (answers : List AskUserQuestionReply)
  deriving DecidableEq

/-- `labels.iter().position(|l| l == value)`, with what stands at that position. -/
def lookupLabel {α : Type*} (labels : List String) (values : List α) (value : String) :
    Option α := if value ∈ labels then values[labels.idxOf value]? else none

/-- `build_ask_user_question_reply`: an index out of range is skipped. -/
def buildAskUserQuestionReply (questions : List PendingQuestion) (i : Nat) (ans : QnaAnswer) :
    AskUserQuestionReply :=
  let optionIds := (questions[i]?.map (·.optionIds)).getD []
  { questionId := (questions[i]?.map (·.questionId)).getD ""
    selectedOptionIds := some (ans.selectedOptionIndices.filterMap fun idx =>
      if 0 ≤ idx then optionIds[idx.toNat]? else none)
    freeText := if ans.customText = "" then none else some ans.customText }

/-- The choice of an approval label, unless it was pruned from the card. -/
def permissionChoice (choices : Option (List ApprovalChoice)) (value : String) :
    Option ApprovalChoice :=
  (lookupLabel permissionApprovalLabels permissionApprovalChoices value).filter fun choice =>
    match choices with
    | none => true
    | some choices => choice ∈ choices

/-- The answer to a clarification: the key of a label where the card had labels, the text
otherwise. -/
def clarificationAnswer (pending : PendingInterrogative) (value : String) :
    Option InterrogativeResponse :=
  match pending.clarificationLabels, pending.clarificationOptionKeys with
  | some (label :: labels), some keys =>
    (lookupLabel (label :: labels) keys value).map .clarificationChoice
  | _, _ => some (.clarificationText value)

/-- `build_interrogative_response` -/
def buildInterrogativeResponse (pending : PendingInterrogative) (response : HostUiResponse) :
    Option InterrogativeResponse :=
  match response with
  | .cancelled _ _ => some .cancel
  | .confirmed _ confirmed =>
    match pending.interrogativeType with
    | .confirmation => some (.confirmationAnswer confirmed)
    | .capability => some (.capabilityAnswer confirmed)
    | .goalProposal => some (.goalProposalAnswer confirmed)
    | .unknown => some .cancel
    | _ => none
  | .value _ value =>
    match pending.interrogativeType with
    | .clarification => clarificationAnswer pending value
    | .planHandoff =>
      (pending.planHandoffLabels.bind (lookupLabel · planHandoffDecisions value)).map
        .planHandoffAnswer
    | .permission =>
      (permissionChoice pending.permissionChoices value).map fun choice =>
        .permissionAnswer choice.granted choice.persistenceTarget
    | .unknown => some .cancel
    | _ => none
  | .answers _ answers =>
    match pending.interrogativeType with
    | .clarification =>
      some (.clarificationText ((answers.head?.map (·.customText)).getD ""))
    | .askUserQuestion =>
      some (.askUserQuestionAnswers
        (answers.mapIdx (buildAskUserQuestionReply (pending.questions.getD []))))
    | .unknown => some .cancel
    | _ => none

/-! ### The driver and the hub -/

/-- The dialogs of a warm session.  `emitted` are the events sent to the hub, which has
folded the first `seen` of them. -/
structure Dialogs where
  session : SessionRef
  pending : PMap String PendingInterrogative := PMap.empty
  /-- the entry the consumer has still to keep, after it emitted the card -/
  registering : Option PendingInterrogative := none
  emitted : List SessionDriverEvent := []
  seen : Nat := 0
  /-- answers whose post is under way -/
  inFlight : List (String × InterrogativeResponse) := []
  /-- answers the daemon took -/
  delivered : List (String × InterrogativeResponse) := []
  /-- interrogatives whose answer could not be posted -/
  failed : List String := []
  /-- the entries kept so far -/
  registered : List PendingInterrogative := []
  /-- the responses handed to the driver -/
  responses : List HostUiResponse := []

namespace Dialogs

def base (s : Dialogs) (now : Timestamp) : SessionEventBase := ⟨s.session, now, none⟩

def emit (s : Dialogs) (ev : SessionDriverEvent) : Dialogs :=
  { s with emitted := s.emitted ++ [ev] }

/-- The hub's folded state. -/
def folded (s : Dialogs) : SessionState := foldAll (s.emitted.take s.seen)

/-- First responder wins: the hub passes a response on while its dialog is still pending. -/
def shouldRespond (s : Dialogs) (response : HostUiResponse) : Bool :=
  s.folded.pendingApprovals.any (·.requestId = response.requestId)

/-- `respond_ui` -/
def respondUi (s : Dialogs) (response : HostUiResponse) (now : Timestamp) : Dialogs :=
  let requestId := response.requestId
  let s := { s with responses := s.responses ++ [response] }
  -- the card closes at once
  let s := s.emit (.hostUiResolved (s.base now) requestId)
  match s.pending requestId with
  | none => s
  | some pending =>
    -- removed, so that a stale response cannot post again
    let s := { s with pending := s.pending.erase requestId }
    match buildInterrogativeResponse pending response with
    | none => s
    | some answer => { s with inFlight := s.inFlight ++ [(pending.interrogativeId, answer)] }

/-- The notice of an answer that did not reach the daemon. -/
def respondError (s : Dialogs) (interrogativeId error : String) (now : Timestamp) :
    SessionDriverEvent :=
  .hostUiRequest (s.base now) (.notify ("respond-error-" ++ interrogativeId)
    ("Failed to send response to daemon: " ++ error) (some .error))

/-- The post of the n-th answer under way ends. -/
def posted (s : Dialogs) (n : Nat) (error : Option String) (now : Timestamp) : Dialogs :=
  match s.inFlight[n]? with
  | none => s
  | some (interrogativeId, answer) =>
    let s := { s with inFlight := s.inFlight.eraseIdx n }
    match error with
    | none => { s with delivered := s.delivered ++ [(interrogativeId, answer)] }
    | some error =>
      { s.emit (s.respondError interrogativeId error now) with
        failed := s.failed ++ [interrogativeId] }

/-- What happens: an interrogative comes in, its entry is kept, the driver emits something
else, the hub folds an event, a client responds, or a post ends. -/
inductive Action where
  | interrogative (i : Interrogation) (now : Timestamp)
  | register
  | emit (ev : SessionDriverEvent)
  | fold
  | respondUi (response : HostUiResponse) (now : Timestamp)
  | posted (n : Nat) (error : Option String) (now : Timestamp)

/-- The consumer keeps the entry of an interrogative before it takes the next event. -/
def step (preview : Json → String) (s : Dialogs) : Action → Dialogs
  | .interrogative i now =>
    if s.registering.isSome then s
    else
      { s.emit (.hostUiRequest (s.base now) (i.card preview)) with registering := some i.pending }
  | .register =>
    match s.registering with
    | none => s
    | some pending =>
      { s with
        registering := none
        pending := s.pending.insert pending.interrogativeId pending
        registered := s.registered ++ [pending] }
  | .emit ev => s.emit ev
  | .fold => if s.seen < s.emitted.length then { s with seen := s.seen + 1 } else s
  | .respondUi response now => if s.shouldRespond response then s.respondUi response now else s
  | .posted n error now => s.posted n error now

/-! ### Accounts -/

/-- The posts begun for an interrogative. -/
def posts (s : Dialogs) (id : String) : Nat :=
  s.inFlight.countP (·.1 = id) + s.delivered.countP (·.1 = id) + s.failed.countP (· = id)

/-- An answer that was built from a kept entry and a response to it. -/
def Built (s : Dialogs) (answer : String × InterrogativeResponse) : Prop :=
  ∃ pending ∈ s.registered, ∃ response ∈ s.responses,
    pending.interrogativeId = answer.1 ∧ response.requestId = answer.1 ∧
      buildInterrogativeResponse pending response = some answer.2

/-- What holds of the answers: an entry is answered at most once and is gone then, an answer
is one that was built for it, and a post that failed is noticed. -/
structure Accounted (s : Dialogs) : Prop where
  once : ∀ id, s.posts id + (if (s.pending id).isSome then 1 else 0) ≤
    s.registered.countP (·.interrogativeId = id)
  built : ∀ answer ∈ s.inFlight ++ s.delivered, s.Built answer
  noticed : ∀ id ∈ s.failed, ∃ base message,
    .hostUiRequest base (.notify ("respond-error-" ++ id) message (some .error)) ∈ s.emitted

/-- The first response the driver is handed for a kept entry takes the entry out, resolves
the card and, if it can be turned into an answer, begins the one post of it. -/
def AnswersFirst (s : Dialogs) : Prop :=
  ∀ response now, s.shouldRespond response = true →
    (∃ base, .hostUiResolved base response.requestId ∈ (s.respondUi response now).emitted) ∧
    (s.respondUi response now).pending response.requestId = none ∧
    ∀ pending, s.pending response.requestId = some pending →
      (s.respondUi response now).inFlight =
        s.inFlight ++ ((buildInterrogativeResponse pending response).map
          (pending.interrogativeId, ·)).toList

section Step

variable {s : Dialogs}

/-- An entry is kept under its own id, and was registered. -/
def Kept (s : Dialogs) : Prop :=
  ∀ id pending, s.pending id = some pending →
    pending.interrogativeId = id ∧ pending ∈ s.registered

/-- Removing an element that was looked up leaves the count of the others. -/
theorem countP_eraseIdx_add {α : Type*} (q : α → Bool) {l : List α} {n : Nat} {a : α}
    (h : l[n]? = some a) :
    (l.eraseIdx n).countP q + (if q a then 1 else 0) = l.countP q := by
  obtain ⟨hlt, rfl⟩ := List.getElem?_eq_some_iff.mp h
  have hperm := List.getElem_cons_eraseIdx_perm hlt
  rw [← hperm.countP_eq, List.countP_cons]

theorem mem_of_mem_eraseIdx_append {α : Type*} {l l' : List α} {n : Nat} {a b : α}
    (ha : l[n]? = some a) (hb : b ∈ l.eraseIdx n ++ (l' ++ [a])) : b ∈ l ++ l' := by
  rcases List.mem_append.mp hb with hb | hb
  · exact List.mem_append_left _ (List.mem_of_mem_eraseIdx hb)
  · rcases List.mem_append.mp hb with hb | hb
    · exact List.mem_append_right _ hb
    · rw [List.mem_singleton.mp hb]
      exact List.mem_append_left _ (List.mem_of_getElem? ha)

/-- What was built stays built as entries and responses are added. -/
theorem Built.mono {s' : Dialogs} {answer : String × InterrogativeResponse} (h : s.Built answer)
    (hreg : s.registered ⊆ s'.registered) (hresp : s.responses ⊆ s'.responses) :
    s'.Built answer := by
  obtain ⟨pending, hp, response, hr, hrest⟩ := h
  exact ⟨pending, hreg hp, response, hresp hr, hrest⟩

/-- A step that only emits keeps the accounts. -/
theorem Accounted.emit (h : s.Accounted) (ev : SessionDriverEvent) : (s.emit ev).Accounted where
  once := h.once
  built := h.built
  noticed id hid := by
    obtain ⟨base, message, hmem⟩ := h.noticed id hid
    exact ⟨base, message, List.mem_append_left _ hmem⟩

theorem Accounted.register (h : s.Accounted) (pending : PendingInterrogative) :
    Accounted { s with
      registering := none
      pending := s.pending.insert pending.interrogativeId pending
      registered := s.registered ++ [pending] } where
  once id := by
    have honce := h.once id
    have hposts : ∀ reg pend, Dialogs.posts { s with
        registering := none, pending := pend, registered := reg } id = s.posts id :=
      fun _ _ => rfl
    rw [hposts, List.countP_append, List.countP_singleton]
    by_cases hid : id = pending.interrogativeId
    · subst hid
      simp only [PMap.insert_self, Option.isSome_some, if_true, decide_true]
      have : 0 ≤ (if (s.pending pending.interrogativeId).isSome then 1 else 0) := Nat.zero_le _
      omega
    · have hne : pending.interrogativeId ≠ id := fun heq => hid heq.symm
      simp only [PMap.insert_of_ne _ _ hid, hne, decide_false]
      simpa using honce
  built answer ha :=
    (h.built answer ha).mono (List.subset_append_left _ _) (List.Subset.refl _)
  noticed := h.noticed

/-- The response is written down and the card resolved; nothing is answered yet. -/
theorem Accounted.resolve (h : s.Accounted) (response : HostUiResponse) (now : Timestamp) :
    (({ s with responses := s.responses ++ [response] } : Dialogs).emit
      (.hostUiResolved (s.base now) response.requestId)).Accounted := by
  apply Accounted.emit
  refine ⟨h.once, ?_, h.noticed⟩
  intro answer ha
  exact (h.built answer ha).mono (List.Subset.refl _) (List.subset_append_left _ _)

/-- The entry is taken out without an answer. -/
theorem Accounted.erase (h : s.Accounted) (requestId : String) :
    ({ s with pending := s.pending.erase requestId } : Dialogs).Accounted where
  once id := by
    have honce := h.once id
    have hposts : Dialogs.posts { s with pending := s.pending.erase requestId } id = s.posts id :=
      rfl
    rw [hposts]
    by_cases hid : id = requestId
    · subst hid
      simp only [PMap.erase_self, Option.isSome_none]
      simp only [Bool.false_eq_true, if_false]
      omega
    · simp only [PMap.erase_of_ne _ hid]
      exact honce
  built := h.built
  noticed := h.noticed

/-- The entry is taken out, and its one answer is posted. -/
theorem Accounted.answer (h : s.Accounted) {requestId : String} {pending : PendingInterrogative}
    (hp : s.pending requestId = some pending) (hid : pending.interrogativeId = requestId)
    (hreg : pending ∈ s.registered) {response : HostUiResponse} (hresp : response ∈ s.responses)
    (hrid : response.requestId = requestId) {answer : InterrogativeResponse}
    (hbuild : buildInterrogativeResponse pending response = some answer) :
    ({ s with
      pending := s.pending.erase requestId
      inFlight := s.inFlight ++ [(pending.interrogativeId, answer)] } : Dialogs).Accounted where
  once id := by
    have honce := h.once id
    have hposts : Dialogs.posts { s with
        pending := s.pending.erase requestId
        inFlight := s.inFlight ++ [(pending.interrogativeId, answer)] } id =
        s.posts id + (if pending.interrogativeId = id then 1 else 0) := by
      simp only [posts, List.countP_append, List.countP_singleton, decide_eq_true_eq]
      omega
    rw [hposts]
    by_cases heq : id = requestId
    · subst heq
      rw [hp] at honce
      simp only [PMap.erase_self, hid]
      simpa using honce
    · have hne : pending.interrogativeId ≠ id := fun hcon => heq (hcon.symm.trans hid)
      simp only [PMap.erase_of_ne _ heq, if_neg hne]
      exact honce
  built := by
    intro a ha
    rcases List.mem_append.mp ha with ha | ha
    · rcases List.mem_append.mp ha with ha | ha
      · exact (h.built a (List.mem_append_left _ ha)).mono (List.Subset.refl _)
          (List.Subset.refl _)
      · rw [List.mem_singleton.mp ha]
        exact ⟨pending, hreg, response, hresp, rfl, hrid.trans hid.symm, hbuild⟩
    · exact (h.built a (List.mem_append_right _ ha)).mono (List.Subset.refl _)
        (List.Subset.refl _)
  noticed := h.noticed

theorem Accounted.respondUi (h : s.Accounted) (hkept : s.Kept) (response : HostUiResponse)
    (now : Timestamp) : (s.respondUi response now).Accounted := by
  have hres := h.resolve response now
  unfold Dialogs.respondUi
  dsimp only
  split
  · exact hres
  · rename_i pending hp
    obtain ⟨hid, hreg⟩ := hkept _ _ hp
    split
    · exact hres.erase response.requestId
    · rename_i answer hbuild
      refine hres.answer hp hid hreg ?_ rfl hbuild
      exact List.mem_append_right _ List.mem_cons_self

/-- A post that ends is counted where it ended. -/
theorem Accounted.posted (h : s.Accounted) (n : Nat) (error : Option String) (now : Timestamp) :
    (s.posted n error now).Accounted := by
  unfold Dialogs.posted
  split
  · exact h
  · rename_i id answer hget
    have hcount := fun id' => countP_eraseIdx_add
      (fun a : String × InterrogativeResponse => decide (a.1 = id')) hget
    cases error with
    | none =>
      refine ⟨?_, ?_, h.noticed⟩
      · intro id'
        have honce := h.once id'
        have hc := hcount id'
        simp only [posts, List.countP_append, List.countP_singleton] at honce hc ⊢
        omega
      · intro a ha
        exact (h.built a (mem_of_mem_eraseIdx_append hget ha)).mono (List.Subset.refl _)
          (List.Subset.refl _)
    | some error =>
      refine ⟨?_, ?_, ?_⟩
      · intro id'
        have honce := h.once id'
        have hc := hcount id'
        change Dialogs.posts { s with
            inFlight := s.inFlight.eraseIdx n, failed := s.failed ++ [id] } id' +
          (if (s.pending id').isSome then 1 else 0) ≤
            s.registered.countP (·.interrogativeId = id')
        simp only [posts, List.countP_append, List.countP_singleton] at honce hc ⊢
        omega
      · intro a ha
        refine (h.built a ?_).mono (List.Subset.refl _) (List.Subset.refl _)
        rcases List.mem_append.mp ha with ha | ha
        · exact List.mem_append_left _ (List.mem_of_mem_eraseIdx ha)
        · exact List.mem_append_right _ ha
      · intro id' hid'
        rcases List.mem_append.mp hid' with hid' | hid'
        · obtain ⟨base, message, hmem⟩ := h.noticed id' hid'
          exact ⟨base, message, List.mem_append_left _ hmem⟩
        · rw [List.mem_singleton.mp hid']
          exact ⟨_, _, List.mem_append_right _ List.mem_cons_self⟩

/-! ### Steps and runs -/

theorem Kept.respondUi (h : s.Kept) (response : HostUiResponse) (now : Timestamp) :
    (s.respondUi response now).Kept := by
  have herase : ∀ id pending, (s.pending.erase response.requestId) id = some pending →
      pending.interrogativeId = id ∧ pending ∈ s.registered := by
    intro id pending hp
    by_cases hid : id = response.requestId
    · rw [hid, PMap.erase_self] at hp
      cases hp
    · rw [PMap.erase_of_ne _ hid] at hp
      exact h id pending hp
  unfold Dialogs.respondUi
  dsimp only
  split
  · exact h
  · split
    · exact herase
    · exact herase

theorem Kept.posted (h : s.Kept) (n : Nat) (error : Option String) (now : Timestamp) :
    (s.posted n error now).Kept := by
  unfold Dialogs.posted
  split
  · exact h
  · cases error with
    | none => exact h
    | some error => exact h

theorem step_accounted (preview : Json → String) (h : s.Accounted ∧ s.Kept) (a : Action) :
    (s.step preview a).Accounted ∧ (s.step preview a).Kept := by
  obtain ⟨hacc, hkept⟩ := h
  cases a with
  | interrogative i now =>
    dsimp only [step]
    split
    · exact ⟨hacc, hkept⟩
    · have hemit := hacc.emit (.hostUiRequest (s.base now) (i.card preview))
      exact ⟨⟨hemit.once, hemit.built, hemit.noticed⟩, hkept⟩
  | register =>
    dsimp only [step]
    split
    · exact ⟨hacc, hkept⟩
    · rename_i pending _
      refine ⟨hacc.register pending, ?_⟩
      intro id p hp
      dsimp only at hp
      by_cases hid : id = pending.interrogativeId
      · subst hid
        rw [PMap.insert_self] at hp
        cases hp
        exact ⟨rfl, List.mem_append_right _ List.mem_cons_self⟩
      · rw [PMap.insert_of_ne _ _ hid] at hp
        exact ⟨(hkept id p hp).1, List.mem_append_left _ (hkept id p hp).2⟩
  | emit ev => exact ⟨hacc.emit ev, hkept⟩
  | fold =>
    dsimp only [step]
    split
    · exact ⟨⟨hacc.once, hacc.built, hacc.noticed⟩, hkept⟩
    · exact ⟨hacc, hkept⟩
  | respondUi response now =>
    dsimp only [step]
    split
    · exact ⟨hacc.respondUi hkept response now, hkept.respondUi response now⟩
    · exact ⟨hacc, hkept⟩
  | posted n error now => exact ⟨hacc.posted n error now, hkept.posted n error now⟩

theorem answersFirst : s.AnswersFirst := by
  intro response now _
  have hresolved : ∃ base, SessionDriverEvent.hostUiResolved base response.requestId ∈
      (s.respondUi response now).emitted := by
    refine ⟨s.base now, ?_⟩
    unfold respondUi
    dsimp only
    split
    · exact List.mem_append_right _ List.mem_cons_self
    · split
      · exact List.mem_append_right _ List.mem_cons_self
      · exact List.mem_append_right _ List.mem_cons_self
  refine ⟨hresolved, ?_, ?_⟩
  · unfold respondUi
    dsimp only
    split
    · rename_i hnone
      exact hnone
    · split
      · exact PMap.erase_self _ _
      · exact PMap.erase_self _ _
  · intro pending hp
    unfold respondUi
    dsimp only
    split
    · rename_i hnone
      exact absurd (hp.symm.trans hnone) (by simp)
    · rename_i p hsome
      obtain rfl : pending = p := Option.some.inj (hp.symm.trans hsome)
      split
      · rename_i hbuild
        rw [hbuild]
        simp [Dialogs.emit]
      · rename_i answer hbuild
        rw [hbuild]
        simp [Dialogs.emit]

end Step

section Runs

variable (preview : Json → String) (session : SessionRef)

/-- The run of a warm session's dialogs. -/
def run (acts : List Action) : Dialogs := acts.foldl (step preview) { session }

/-- **In every run an entry is answered at most once, with an answer built from it, and an
answer that fails is followed by an error notice**; the first response to an entry takes it,
resolves the card and begins the post. -/
theorem accounted_run (acts : List Action) :
    (run preview session acts).Accounted ∧ (run preview session acts).AnswersFirst := by
  have hnew : ({ session } : Dialogs).Accounted ∧ ({ session } : Dialogs).Kept := by
    refine ⟨⟨?_, ?_, ?_⟩, ?_⟩
    · intro id
      simp [posts]
    · intro answer ha
      simp at ha
    · intro id hid
      simp at hid
    · intro id pending hp
      cases hp
  have hrun := foldl_invariant (I := fun s : Dialogs => s.Accounted ∧ s.Kept)
    (fun _ a h => step_accounted preview h a) hnew acts
  exact ⟨hrun.1, answersFirst⟩

end Runs

/-! ### A resolved card without an answer -/

/-- The claim of one answer for every resolved card: when no post is under way, the daemon
took exactly one answer for it, and a card whose answer failed is still pending. -/
def Atomic (s : Dialogs) : Prop :=
  s.inFlight = [] →
    (∀ base id, .hostUiResolved base id ∈ s.emitted → s.delivered.countP (·.1 = id) = 1) ∧
    ∀ id ∈ s.failed, (s.pending id).isSome = true ∧
      s.folded.pendingApprovals.any (·.requestId = id) = true

/-- A confirmation whose post fails. -/
def failingPost : List Action :=
  [.interrogative ⟨"i1", .confirmation "Proceed?"⟩ "t0", .register, .fold,
    .respondUi (.confirmed "i1" true) "t1", .posted 0 (some "connection refused") "t2", .fold]

/-- **A card is resolved whose answer the daemon never got**, and its entry is gone. -/
theorem resolved_without_answer :
    ¬ (run (fun _ => "") ⟨"w", "s"⟩ failingPost).Atomic := by
  intro hatomic
  obtain ⟨hone, -⟩ := hatomic rfl
  have hmem : SessionDriverEvent.hostUiResolved ⟨⟨"w", "s"⟩, "t1", none⟩ "i1" ∈
      (run (fun _ => "") ⟨"w", "s"⟩ failingPost).emitted :=
    List.mem_cons_of_mem _ List.mem_cons_self
  exact absurd (hone _ _ hmem) (by decide)

end Dialogs

end Pantoken
