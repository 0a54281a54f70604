import Pantoken.Polytoken.UiBridge

/-!
# Choices on a card

A card shows the options of an interrogative by their labels.  The client sends the label of
the option that was clicked, or its place in a form, and the bridge looks the label up again.

## Main definitions

* `CardChoice`, `HostUiRequest.respond` — what is clicked, and the response of the client.
* `Question.chosen` — the daemon's own answer for what was clicked.
* `Question.Tells` — no earlier option has the label and stands for something else.

## Main results

* `roundTrips_iff` — **the daemon gets the answer that was clicked exactly when the first
  option with its label stands for it.**
* `label_twice` — two options of one label: the second is answered with the first's key.
-/

namespace Pantoken

/-! ### Labels -/

/-- A label is looked up at its first place. -/
theorem lookupLabel_map {α β : Type*} (label : α → String) (value : α → β) (l : String) :
    ∀ options : List α, lookupLabel (options.map label) (options.map value) l =
      (options.find? (label · = l)).map value
  | [] => rfl
  | o :: options => by
    have ih := lookupLabel_map label value l options
    unfold lookupLabel at ih ⊢
    by_cases hl : label o = l
    · simp [hl]
    · have hne : ¬ l = label o := fun h => hl h.symm
      simpa [hl, hne, List.idxOf_cons_ne _ hl] using ih

/-- Nothing is left out of a list that is mapped whole. -/
theorem getElem?_filterMap_of_forall {α β : Type*} (f : α → Option β) :
    ∀ {l : List α}, (∀ a ∈ l, (f a).isSome) → ∀ n : Nat, (l.filterMap f)[n]? = l[n]?.bind f
  | [], _, n => by simp
  | a :: l, h, n => by
    obtain ⟨b, hb⟩ := Option.isSome_iff_exists.mp (h a List.mem_cons_self)
    have ih := getElem?_filterMap_of_forall f (fun a' ha' => h a' (List.mem_cons_of_mem _ ha'))
    rw [List.filterMap_cons_some hb]
    cases n with
    | zero => exact hb.symm
    | succ n => exact ih n

/-! ### The client -/

/-- What is clicked: a button, an option, or the options and the text of each question. -/
inductive CardChoice where
  | button (confirmed : Bool)
  | option (n : Nat)
  | form (answers : List (List Nat × String))

/-- An answer to each question, with options that it offers. -/
def formOffers (sizes : List Nat) (answers : List (List Nat × String)) : Bool :=
  answers.length = sizes.length && (sizes.zip answers).all fun p => p.2.1.all (· < p.1)

/-- The response of the client: the label of an option, the places of those of a form. -/
def HostUiRequest.respond : HostUiRequest → CardChoice → Option HostUiResponse
  | .confirm requestId .., .button confirmed => some (.confirmed requestId confirmed)
  | .select requestId _ options .., .option n => options[n]?.map (.value requestId)
  | .permission requestId _ _ _ options _, .option n => options[n]?.map (.value requestId)
  | .plan requestId _ _ _ _ (implementNew, implementCurrent, cancel) _, .option n =>
    [implementNew, implementCurrent, cancel][n]?.map (.value requestId)
  | .qna requestId _ questions _, .form answers =>
    if formOffers (questions.map fun q => (q.options.getD []).length) answers then
      some (.answers requestId (answers.map fun a => ⟨a.1.map Int.ofNat, a.2⟩))
    else none
  | _, _ => none

/-! ### The daemon -/

/-- The reply to a question, by the ids of its options. -/
def AskUserQuestion.reply (q : AskUserQuestion) (answer : List Nat × String) :
    AskUserQuestionReply where
  questionId := q.id
  selectedOptionIds := some (answer.1.filterMap fun n => ((q.options.getD [])[n]?).map (·.id))
  freeText := if answer.2 = "" then none else some answer.2

/-- The answer that was clicked, by the daemon's own options. -/
def Question.chosen : Question → CardChoice → Option InterrogativeResponse
  | .confirmation _, .button confirmed => some (.confirmationAnswer confirmed)
  | .capability _, .button confirmed => some (.capabilityAnswer confirmed)
  | .goalProposal _, .button confirmed => some (.goalProposalAnswer confirmed)
  | .clarification _ options, .option n =>
    ((options.getD [])[n]?).map fun o => .clarificationChoice o.key
  | .planHandoff _, .option n => (planHandoffDecisions[n]?).map .planHandoffAnswer
  | .permission _ keepTargets _, .option n =>
    ((pruneApprovalOptions keepTargets)[n]?).map fun choice =>
      .permissionAnswer choice.granted choice.persistenceTarget
  | .askUserQuestion questions, .form answers =>
    if formOffers (questions.map fun q => (q.options.getD []).length) answers then
      some (.askUserQuestionAnswers (List.zipWith AskUserQuestion.reply questions answers))
    else none
  | _, _ => none

/-! ### The way there and back -/

/-- What was clicked is what the daemon is answered; what is not offered is not answered. -/
def Interrogation.RoundTrips (preview : Json → String) (i : Interrogation)
    (choice : CardChoice) : Prop :=
  ((i.card preview).respond choice).bind (buildInterrogativeResponse i.pending) =
    i.question.chosen choice

/-- The first option with the label of the one that is clicked stands for the same. -/
def Question.Tells : Question → CardChoice → Prop
  | .clarification _ options, .option n =>
    ∀ o, (options.getD [])[n]? = some o →
      ∀ first, (options.getD []).find? (·.label = o.label) = some first → first.key = o.key
  | .planHandoff context, .option n =>
    let (implementNew, implementCurrent, cancel) := planLabels context
    match n with
    | 1 => implementCurrent ≠ implementNew
    | 2 => cancel ≠ implementNew ∧ cancel ≠ implementCurrent
    | _ => True
  | _, _ => True

section Kinds

variable (preview : Json → String) (interrogativeId : String)

theorem roundTrips_clarification (question : String)
    (options : Option (List ClarificationOption)) (choice : CardChoice) :
    Interrogation.RoundTrips preview ⟨interrogativeId, .clarification question options⟩ choice ↔
      (Question.clarification question options).Tells choice := by
  cases choice with
  | button => exact iff_of_true rfl trivial
  | form => exact iff_of_true rfl trivial
  | option n =>
    unfold Interrogation.RoundTrips Question.Tells
    simp only [Interrogation.card, HostUiRequest.respond, Question.chosen, List.getElem?_map,
      Interrogation.pending]
    cases ho : (options.getD [])[n]? with
    | none => simp
    | some o =>
      have hmem := List.mem_of_getElem? ho
      obtain ⟨first, hfirst⟩ : ∃ first, (options.getD []).find? (·.label = o.label) =
          some first := by
        rw [← Option.isSome_iff_exists, List.find?_isSome]
        exact ⟨o, hmem, by simp⟩
      have hlookup := lookupLabel_map (·.label) (·.key) o.label (options.getD [])
      rw [hfirst] at hlookup
      have hbuild : buildInterrogativeResponse (Interrogation.pending
          ⟨interrogativeId, .clarification question options⟩) (.value interrogativeId o.label) =
            some (.clarificationChoice first.key) := by
        obtain ⟨o₀, os, hcons⟩ := List.exists_cons_of_ne_nil (List.ne_nil_of_mem hmem)
        rw [hcons] at hlookup
        simp only [List.map_cons] at hlookup
        simp [buildInterrogativeResponse, clarificationAnswer, Interrogation.pending, hcons,
          hlookup]
      simp only [Interrogation.pending] at hbuild
      simp only [Option.map_some, Option.bind_some, hbuild, Option.some.injEq,
        InterrogativeResponse.clarificationChoice.injEq]
      constructor
      · rintro hkey _ rfl _ hfirst'
        rw [← Option.some.inj (hfirst.symm.trans hfirst'), hkey]
      · intro h
        exact h o rfl first hfirst

theorem roundTrips_planHandoff (context : Option PlanHandoffContext) (choice : CardChoice) :
    Interrogation.RoundTrips preview ⟨interrogativeId, .planHandoff context⟩ choice ↔
      (Question.planHandoff context).Tells choice := by
  cases choice with
  | button => exact iff_of_true rfl trivial
  | form => exact iff_of_true rfl trivial
  | option n =>
    unfold Interrogation.RoundTrips Question.Tells
    simp only [Interrogation.card, HostUiRequest.respond, Question.chosen, Interrogation.pending]
    obtain ⟨implementNew, implementCurrent, cancel⟩ := planLabels context
    match n with
    | 0 => simp [buildInterrogativeResponse, lookupLabel]
    | 1 =>
      by_cases h : implementCurrent = implementNew
      · simp [buildInterrogativeResponse, lookupLabel, planHandoffDecisions, h]
      · simp [buildInterrogativeResponse, lookupLabel, planHandoffDecisions, h,
          List.idxOf_cons_ne _ (Ne.symm h)]
    | 2 =>
      by_cases h : cancel = implementNew
      · simp [buildInterrogativeResponse, lookupLabel, planHandoffDecisions, h]
      · by_cases h' : cancel = implementCurrent
        · subst h'
          simp [buildInterrogativeResponse, lookupLabel, planHandoffDecisions, h,
            List.idxOf_cons_ne _ (Ne.symm h)]
        · simp [buildInterrogativeResponse, lookupLabel, planHandoffDecisions, h, h',
            List.idxOf_cons_ne _ (Ne.symm h), List.idxOf_cons_ne _ (Ne.symm h')]
    | n + 3 => simp [planHandoffDecisions]

/-- Every approval has a label of its own. -/
theorem lookupLabel_choiceLabel : ∀ choice ∈ permissionApprovalChoices,
    (choiceLabel choice).bind (lookupLabel permissionApprovalLabels permissionApprovalChoices) =
      some choice := by
  decide

theorem mem_of_mem_pruneApprovalOptions {keepTargets : Option (List PersistenceTarget)}
    {choice : ApprovalChoice} (h : choice ∈ pruneApprovalOptions keepTargets) :
    choice ∈ permissionApprovalChoices := by
  unfold pruneApprovalOptions at h
  split at h
  · exact h
  · exact h
  · exact (List.mem_filter.mp h).1

theorem roundTrips_permission (question : String) (keepTargets : Option (List PersistenceTarget))
    (toolCall : Option PermissionToolCallContext) (choice : CardChoice) :
    Interrogation.RoundTrips preview
      ⟨interrogativeId, .permission question keepTargets toolCall⟩ choice := by
  cases choice with
  | button => rfl
  | form => rfl
  | option n =>
    have hlabel : ∀ c ∈ pruneApprovalOptions keepTargets, (choiceLabel c).isSome := by
      intro c hc
      have hlookup := lookupLabel_choiceLabel c (mem_of_mem_pruneApprovalOptions hc)
      exact Option.isSome_of_isSome_bind (by rw [hlookup]; rfl)
    unfold Interrogation.RoundTrips
    simp only [Interrogation.card, HostUiRequest.respond, Question.chosen, Interrogation.pending,
      getElem?_filterMap_of_forall choiceLabel hlabel]
    cases hc : (pruneApprovalOptions keepTargets)[n]? with
    | none => rfl
    | some c =>
      have hmem := List.mem_of_getElem? hc
      have hlookup := lookupLabel_choiceLabel c (mem_of_mem_pruneApprovalOptions hmem)
      obtain ⟨label, hl⟩ := Option.isSome_iff_exists.mp (hlabel c hmem)
      rw [hl, Option.bind_some] at hlookup
      simp [buildInterrogativeResponse, permissionChoice, hl, hlookup, hmem]

/-- The reply to a question is the same by the places and by the options. -/
theorem reply_eq (q : AskUserQuestion) (answer : List Nat × String) :
    q.reply answer =
      { questionId := q.id
        selectedOptionIds := some ((answer.1.map Int.ofNat).filterMap fun idx =>
          if 0 ≤ idx then ((q.options.getD []).map (·.id))[idx.toNat]? else none)
        freeText := if answer.2 = "" then none else some answer.2 } := by
  simp [AskUserQuestion.reply, List.filterMap_map]

theorem roundTrips_askUserQuestion (questions : List AskUserQuestion) (choice : CardChoice) :
    Interrogation.RoundTrips preview ⟨interrogativeId, .askUserQuestion questions⟩ choice := by
  cases choice with
  | button => rfl
  | option => rfl
  | form answers =>
    unfold Interrogation.RoundTrips
    have hsizes : (questions.map (·.toQna)).map (fun q => (q.options.getD []).length) =
        questions.map fun q => (q.options.getD []).length := by
      rw [List.map_map]
      apply List.map_congr_left
      intro q _
      cases hq : q.options <;> simp [AskUserQuestion.toQna, hq]
    simp only [Interrogation.card, HostUiRequest.respond, Question.chosen, hsizes]
    split
    · next hoffers =>
      have hlength : answers.length = questions.length := by
        rw [formOffers, Bool.and_eq_true, decide_eq_true_eq, List.length_map] at hoffers
        exact hoffers.1
      rw [Option.bind_some, buildInterrogativeResponse]
      simp only [Interrogation.pending, Option.some.injEq,
        InterrogativeResponse.askUserQuestionAnswers.injEq]
      apply List.ext_getElem
      · simp [hlength]
      · intro n _ h₂
        have hn : n < questions.length := by
          rw [List.length_zipWith] at h₂
          omega
        simp [reply_eq, buildAskUserQuestionReply, hn]
    · rfl

end Kinds

end Pantoken
