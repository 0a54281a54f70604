import Pantoken.Client.Conversation

/-!
# Prompts in the outbox

A prompt is saved in the browser before it is sent, and stays there until the server has
answered for it.  An answer deletes it, or leaves it as a rejected row of its session with
Retry and Edit, or, when a new session could not be created, brings it back as the draft it
came from.  Which of these it is the client tells from one optional field of the answer.

## Main definitions

* `PendingPrompt`, `PendingPrompt.message` — an entry, and what is sent for it.
* `Draft`, `restoredDraft`, `Draft.submitted` — the draft of a new session.
* `settlePrompt`, `Settlement.sends` — what becomes of an entry, and what is sent for it later.

## Main results

* `asksAnew_iff` — **when a later gesture asks for a second session.**
-/

namespace Pantoken

/-! ### Entries -/

/-- What an entry asks for. -/
inductive PendingKind where
  | prompt | newSession
  deriving DecidableEq

inductive PendingState where
  | queued | sending | rejected
  deriving DecidableEq

/-- The options of a new session, with the toggle that is sent once it exists. -/
structure PendingSession where
  opts : NewSessionOpts
  adventurousHandoff : Option Bool

/-- `PendingPrompt` -/
structure PendingPrompt where
  promptId : String
  serverId : String
  kind : PendingKind
  text : String
  images : Option (List ImageContent)
  deliverAs : Option DeliveryMode
  midTurn : Option Bool
  sessionId : Option SessionId
  newSession : Option PendingSession
  createdAt : String
  state : PendingState
  error : Option String

/-- What `sendPendingPrompt` sends. -/
def PendingPrompt.message (p : PendingPrompt) : ClientMessage :=
  match p.kind with
  | .prompt => .prompt p.text p.deliverAs p.images (some p.promptId) p.sessionId
  | .newSession =>
    .newSession ((p.newSession.map (·.opts)).getD ⟨none, none, none, none, none, none, none⟩)
      (some p.text) p.images (some p.promptId)

/-! ### Drafts -/

/-- The draft of a new session. -/
structure Draft where
  cwd : String
  worktree : Bool
  baseBranch : Option String
  model : Option String
  thinking : Option String
  facet : Option String
  permissionMonitor : Option PermissionMonitorMode
  adventurousHandoff : Option Bool

/-- The draft `restoreFailedDraft` makes of an entry. -/
def restoredDraft (defaultMonitor : Option PermissionMonitorMode) (p : PendingPrompt) : Draft :=
  let opts := p.newSession.map (·.opts)
  { cwd := (opts.bind (·.cwd)).getD ""
    worktree := (opts.bind (·.worktree)).getD false
    baseBranch := opts.bind (·.baseBranch)
    model := opts.bind (·.model)
    thinking := opts.bind (·.thinking)
    facet := some ((opts.bind (·.facet)).getD "execute")
    permissionMonitor := (opts.bind (·.permissionMonitor)).or defaultMonitor
    adventurousHandoff := p.newSession.bind (·.adventurousHandoff) }

/-- The options `submitDraft` asks for. -/
def Draft.submitted (d : Draft) : PendingSession where
  opts :=
    { cwd := Ts.truthy (some (Ts.trim d.cwd))
      worktree := if d.worktree then some true else none
      baseBranch := d.baseBranch
      model := d.model
      thinking := d.thinking
      facet := (Ts.truthy d.facet).filter (· ≠ "execute")
      permissionMonitor := d.permissionMonitor.filter (· ≠ .standard) }
  adventurousHandoff := d.adventurousHandoff.filter (· = true)

/-! ### Settling -/

/-- What becomes of an entry the server has answered for. -/
inductive Settlement where
  | deleted
  /-- Back in the composer, as the draft it came from. -/
  | restored (draft : Draft) (p : PendingPrompt)
  /-- Kept, with an offer to restore it. -/
  | stranded (p : PendingPrompt)
  /-- Kept as a rejected row of its session. -/
  | rejected (p : PendingPrompt)

/-- The entry that is kept beside a draft the user types in. -/
def strandedPrompt (p : PendingPrompt) (result : PromptResult) : PendingPrompt :=
  { p with
    state := .rejected
    error := some (result.error.getD "The new session couldn't be created") }

/-- The entry of a rejected row: with a session it is a prompt to that session. -/
def rejectedPrompt (p : PendingPrompt) (result : PromptResult) : PendingPrompt :=
  { p with
    kind := if (Ts.truthy result.sessionId).isSome then .prompt else p.kind
    sessionId := result.sessionId.or p.sessionId
    state := .rejected
    error := some (result.error.getD "The server rejected this prompt") }

/-- `settlePrompt`, of an entry and whether the user types in another draft. -/
def settlePrompt (defaultMonitor : Option PermissionMonitorMode) (p : PendingPrompt)
    (result : PromptResult) (competingDraft : Bool) : Settlement :=
  if result.accepted then .deleted
  else if Ts.truthy result.sessionId = none ∧ p.kind = .newSession then
    if competingDraft then .stranded (strandedPrompt p result)
    else .restored (restoredDraft defaultMonitor p) p
  else .rejected (rejectedPrompt p result)

/-- What the user does later. -/
inductive Gesture where
  /-- The draft is submitted, after the offer to restore it was taken if there is one. -/
  | restore
  /-- `retryPending` -/
  | retry
  /-- `editPending`, and the text is sent to the session on screen. -/
  | edit

/-- What a gesture sends, under a new prompt id. -/
def Settlement.sends (defaultMonitor : Option PermissionMonitorMode) (focused : Option SessionId)
    (promptId : String) : Settlement → Gesture → Option ClientMessage
  | .restored draft p, .restore =>
    some (.newSession draft.submitted.opts (some (Ts.trim p.text)) p.images (some promptId))
  | .stranded p, .restore =>
    some (.newSession (restoredDraft defaultMonitor p).submitted.opts (some (Ts.trim p.text))
      p.images (some promptId))
  | .stranded p, .retry | .rejected p, .retry => some { p with promptId := promptId }.message
  | .stranded p, .edit | .rejected p, .edit =>
    some (.prompt (Ts.trim p.text) none p.images (some promptId) focused)
  | _, _ => none

/-- The message asks for a new session. -/
def ClientMessage.asksSession : ClientMessage → Bool
  | .newSession .. => true
  | _ => false

/-- Some gesture after an answer asks for a session for the prompt. -/
def AsksAnew (result : PromptResult) : Prop :=
  ∃ (p : PendingPrompt) (competingDraft : Bool) (defaultMonitor : Option PermissionMonitorMode)
      (focused : Option SessionId) (promptId : String) (g : Gesture),
    p.kind = .newSession ∧
      ((settlePrompt defaultMonitor p result competingDraft).sends defaultMonitor focused promptId
        g).any (·.asksSession) = true

/-- **When a later gesture asks for a second session**: the first prompt of a new session
was rejected, and the answer names no session. -/
theorem asksAnew_iff (result : PromptResult) :
    AsksAnew result ↔ result.accepted = false ∧ Ts.truthy result.sessionId = none := by
  constructor
  · rintro ⟨p, competingDraft, defaultMonitor, focused, promptId, g, hkind, hsends⟩
    unfold settlePrompt at hsends
    split_ifs at hsends with haccepted hnone
    · cases hsends
    · exact ⟨by simpa using haccepted, hnone.1⟩
    · exact ⟨by simpa using haccepted, hnone.1⟩
    · -- with a session the row is a prompt to it
      have hsome : (Ts.truthy result.sessionId).isSome = true :=
        Option.isSome_iff_ne_none.mpr fun h => hnone ⟨h, hkind⟩
      have hprompt : (rejectedPrompt p result).kind = .prompt := if_pos hsome
      cases g with
      | restore | edit => cases hsends
      | retry =>
        simp only [Settlement.sends, PendingPrompt.message, hprompt] at hsends
        cases hsends
  · rintro ⟨haccepted, hnone⟩
    refine ⟨⟨"", "", .newSession, "", none, none, none, none, none, "", .sending, none⟩, false,
      none, none, "", .restore, rfl, ?_⟩
    rw [settlePrompt, if_neg (by simp [haccepted]), if_pos ⟨hnone, rfl⟩, if_neg Bool.false_ne_true]
    rfl

end Pantoken
