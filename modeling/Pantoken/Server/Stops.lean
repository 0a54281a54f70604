import Pantoken.Lib.Run
import Pantoken.Server.Applier

/-!
# Stops

A prompt waits in the hub's queue until the applier comes to it, travels to the daemon of
its session, and there starts a turn or waits for the one in flight.  A stop passes the
queue: it has a task of its own, which asks the daemon to cancel the turn in flight and
reports success also when there was none.  So a stop reaches what the daemon has started,
and nothing that is still under way to it.

What is sent to the daemon is handled at any later time or never, and an answer may be
lost.  Prompts are numbered as the hub receives them.

## Main definitions

* `Stops` — the hub's queue and ledger, the tasks of the stops, what is on the wire, and
  the turns the daemons run and hold back.
* `Stops.receive`, `Stops.tick`, `Stops.goOn` — `handle_client`, the applier, the task of a
  stop with the driver's `abort` and `cancel_turn`.
* `Stops.handlePrompt`, `Stops.handleCancel` — the daemon.
* `Stops.waiting` — the prompts that have yet to start.

## Main results

* `step_flow` — a turn starts only for a prompt that waited.
* `stops_cover` — **after an accepted stop no turn runs for an earlier prompt of the session,
  except one that was still waiting when the daemon handled the cancel.**
* `stops_not_cover` — a prompt behind another operation, or held back by the daemon, starts
  after the stop was accepted.
-/

namespace Pantoken

/-! ### State -/

/-- A prompt on its way to a session. -/
structure Sent where
  number : ℕ
  sessionId : SessionId
  deriving DecidableEq

/-- The prompt with which an operation asks the driver. -/
structure NumberedCall where
  number : ℕ
  call : PromptCall

/-- An operation on the queue: a prompt, a new session with its first prompt, or driver
calls of another kind. -/
inductive StopOp where
  | prompt (p : NumberedCall)
  | newSession (p : NumberedCall)
  | other (calls : ℕ)

/-- The daemon's reply to `POST /prompt`. -/
inductive PromptReply where
  | started
  /-- Accepted with a `queued_item`. -/
  | queued
  | refused (error : String)

/-- What the applier is doing. -/
inductive StopPhase where
  | idle
  /-- Driver calls are left. -/
  | calling (calls : ℕ)
  /-- The driver creates the session of a first prompt. -/
  | creating (p : NumberedCall)
  /-- The prompt was posted. -/
  | posting (p : NumberedCall) (reply : Option PromptReply)
  /-- The queue of the daemon is read, for a prompt it holds back. -/
  | reading (p : NumberedCall)

/-- What a daemon found when it handled a cancel: the prompts that waited, wherever they
were, and how many turns it had started. -/
structure Cancelled where
  status : ℕ
  waiting : List ℕ
  started : ℕ

/-- Where the task of a stop is. -/
inductive TaskStage where
  | spawned
  /-- `POST /turn/cancel` was sent. -/
  | posted
  /-- The daemon has handled it; its answer is on the way. -/
  | handled (c : Cancelled)

/-- The task of a stop. -/
structure StopTask where
  id : ℕ
  key : ℕ
  requestId : Option String
  /-- The session to stop. -/
  target : Option SessionId
  /-- The prompts the hub had received before. -/
  heard : ℕ
  stage : TaskStage

/-- `ServerMessage::AbortResult`, with the stop it answers. -/
structure AbortResult where
  key : ℕ
  requestId : Option String
  accepted : Bool
  error : Option String
  target : Option SessionId
  /-- The prompts the hub had received before the stop. -/
  heard : ℕ
  /-- What waited when the daemon handled the cancel. -/
  waiting : List ℕ
  /-- The turns that had started by the time of the answer. -/
  started : ℕ

/-- The hub, its driver and the daemons, as far as prompts and stops go. -/
structure Stops where
  /-- The connected clients, each with its focus. -/
  clients : ℕ → Option (Option SessionId)
  ledger : PromptLedger
  /-- The prompts received. -/
  received : ℕ
  queue : List StopOp
  phase : StopPhase
  tasks : List StopTask
  nextTask : ℕ
  answers : List AbortResult
  /-- The sessions the driver keeps warm. -/
  warm : SessionId → Bool
  /-- Prompts that were posted and not yet handled. -/
  wire : List Sent
  /-- The turns in flight. -/
  running : List Sent
  /-- The prompts a daemon holds back until its turn is over. -/
  held : List Sent
  /-- The turns that were started, in order. -/
  started : List Sent

namespace Stops

/-! ### Messages -/

/-- The messages that touch prompts and stops; of the others only the driver calls of their
operation are kept. -/
inductive Message where
  | prompt (text : String) (deliverAs : Option DeliveryMode) (images : Option (List ImageContent))
      (promptId : Option String) (sessionId : Option SessionId)
  | newSession (prompt : Option String) (images : Option (List ImageContent))
      (promptId : Option String)
  | abort (requestId : Option String) (sessionId : Option SessionId)
  | other (calls : ℕ)

/-- A prompt that the ledger does not know goes on the queue. -/
def enqueueOnce (s : Stops) (call : PromptCall) (op : NumberedCall → StopOp) : Stops :=
  match checkPromptIdempotency s.ledger call.promptId with
  | some _ => s
  | none => { s with queue := s.queue ++ [op ⟨s.received, call⟩], received := s.received + 1 }

/-- `handle_client` -/
def receive (s : Stops) (key : ℕ) : Message → Stops
  | .prompt text deliverAs images promptId sessionId =>
    s.enqueueOnce
      ⟨text, deliverAs, sessionId.or ((s.clients key).bind id), images.getD [], promptId⟩ .prompt
  | .newSession prompt images promptId =>
    match Server.firstPrompt prompt images with
    | some (text, images) => s.enqueueOnce ⟨text, none, none, images, promptId⟩ .newSession
    | none =>
      match checkPromptIdempotency s.ledger promptId with
      | some _ => s
      | none => { s with queue := s.queue ++ [.other 1] }
  | .abort requestId sessionId =>
    match s.clients key with
    | some focusedId =>
      -- passes the queue
      { s with
        tasks := s.tasks ++ [⟨s.nextTask, key, requestId, sessionId.or focusedId, s.received,
          .spawned⟩]
        nextTask := s.nextTask + 1 }
    | none => s
  | .other calls => { s with queue := s.queue ++ [.other calls] }

/-! ### The applier -/

/-- The answer to a driver call of the applier. -/
inductive OpAnswer where
  | ok
  | created (sessionId : SessionId)
  | failed (error : String)
  | panicked

/-- The operation is over; its result goes in the ledger. -/
def finish (s : Stops) (p : NumberedCall) (error : Option String) : Stops :=
  { s with
    ledger :=
      match p.call.promptId with
      | some id => cachePromptResult s.ledger id (Server.promptResult p.call error)
      | none => s.ledger
    phase := .idle }

/-- The driver's `prompt`, up to the request. -/
def callPrompt (s : Stops) (p : NumberedCall) : Stops :=
  match p.call.sessionId with
  | none => s.finish p (some "no session to prompt")
  | some sid =>
    if s.warm sid then
      { s with wire := s.wire ++ [⟨p.number, sid⟩], phase := .posting p none }
    else s.finish p (some "no warm polytoken session to prompt")

/-- The driver's `prompt`, once the daemon has replied. -/
def takeReply (s : Stops) (p : NumberedCall) : PromptReply → Stops
  | .started => s.finish p none
  | .queued => { s with phase := .reading p }
  | .refused error => s.finish p (some ("prompt failed: " ++ error))

/-- The next section of the applier. -/
def tick (s : Stops) (answer : OpAnswer) : Stops :=
  match s.phase with
  | .idle =>
    match s.queue with
    | [] => s
    | .prompt p :: queue => { s with queue := queue }.callPrompt p
    | .newSession p :: queue => { s with queue := queue, phase := .creating p }
    | .other calls :: queue => { s with queue := queue, phase := .calling calls }
  | .calling calls =>
    match calls, answer with
    | calls + 1, .ok => { s with phase := .calling calls }
    | _, _ => { s with phase := .idle }
  | .creating p =>
    match answer with
    | .created sid => s.callPrompt ⟨p.number, { p.call with sessionId := some sid }⟩
    | .failed _ => s.finish p (some "Could not create the new session")
    | .panicked => { s with phase := .idle }
    | .ok => s
  | .posting p reply =>
    match answer, reply with
    | .failed error, _ => s.finish p (some ("prompt failed: " ++ error))
    | .panicked, _ => { s with phase := .idle }
    | _, some reply => s.takeReply p reply
    | _, none => s
  | .reading p =>
    match answer with
    | .panicked => { s with phase := .idle }
    | _ => s.finish p none

/-! ### The task of a stop -/

/-- Change a task. -/
def updateTask (s : Stops) (id : ℕ) (f : StopTask → StopTask) : Stops :=
  { s with tasks := s.tasks.map fun t => if t.id = id then f t else t }

/-- The task is over, and tells the client. -/
def answerTask (s : Stops) (t : StopTask) (error : Option String) (waiting : List ℕ) : Stops :=
  { s with
    tasks := s.tasks.filter (·.id ≠ t.id)
    answers := s.answers ++ [⟨t.key, t.requestId, error.isNone, error, t.target, t.heard, waiting,
      s.started.length⟩] }

/-- How `abort` reports a cancel that failed. -/
def cancelFailed (detail : String) : String := "Couldn't send stop to the daemon: " ++ detail

/-- `cancel_turn`: the status is a success also when there was no turn to cancel. -/
def cancelError (status : ℕ) : Option String :=
  if status ≠ 202 ∧ status ≠ 409 then
    some (cancelFailed ("POST /turn/cancel failed (" ++ toString status ++ "): "))
  else none

/-- A task goes on: it sends its request, or takes the daemon's answer or the failure to
get one. -/
def goOn (s : Stops) (t : StopTask) (failure : Option String) : Stops :=
  match t.stage with
  | .spawned =>
    match t.target with
    | none => s.answerTask t (some "No active session to stop.") []
    | some sid =>
      if s.warm sid then s.updateTask t.id fun t => { t with stage := .posted }
      else
        s.answerTask t
          (some ("Couldn't stop session " ++ sid ++ ": it is not connected to the daemon.")) []
  | .posted =>
    match failure with
    | some detail => s.answerTask t (some (cancelFailed detail)) []
    | none => s
  | .handled c =>
    match failure with
    | some detail => s.answerTask t (some (cancelFailed detail)) c.waiting
    | none => s.answerTask t (cancelError c.status) c.waiting

/-! ### The daemon -/

/-- The prompts an operation has still to send. -/
def StopOp.waiting : StopOp → List ℕ
  | .prompt p | .newSession p => [p.number]
  | .other _ => []

/-- The prompt whose session is being created. -/
def StopPhase.waiting : StopPhase → List ℕ
  | .creating p => [p.number]
  | .idle | .calling _ | .posting .. | .reading _ => []

/-- The prompts that have yet to start: in the hub's queue, with the operation under way, on
the wire, or held back by a daemon. -/
def waiting (s : Stops) : List ℕ :=
  s.queue.flatMap StopOp.waiting ++ StopPhase.waiting s.phase ++ s.wire.map (·.number) ++
    s.held.map (·.number)

/-- The reply goes to the operation that waits for it. -/
def reply (s : Stops) (number : ℕ) (r : PromptReply) : Stops :=
  match s.phase with
  | .posting p _ => if p.number = number then { s with phase := .posting p (some r) } else s
  | _ => s

/-- A daemon handles a prompt: it starts a turn, holds the prompt back while one is in
flight, or refuses it. -/
def handlePrompt (s : Stops) (p : Sent) (refused : Option String) : Stops :=
  let s := { s with wire := s.wire.filter (· ≠ p) }
  match refused with
  | some error => s.reply p.number (.refused error)
  | none =>
    if s.running.any (·.sessionId = p.sessionId) then
      { s with held := s.held ++ [p] }.reply p.number .queued
    else
      { s with running := s.running ++ [p], started := s.started ++ [p] }.reply p.number .started

/-- The status of a cancel that did nothing. -/
abbrev RefusedStatus := { status : ℕ // status ≠ 202 ∧ status ≠ 409 }

/-- A daemon handles a cancel: it ends the turn in flight and answers 202, or 409 when there
is none; or it answers with another status and does nothing. -/
def handleCancel (s : Stops) (t : StopTask) (sid : SessionId) (refused : Option RefusedStatus) :
    Stops :=
  match refused with
  | some status => s.updateTask t.id fun t =>
      { t with stage := .handled ⟨status, s.waiting, s.started.length⟩ }
  | none =>
    let status := if s.running.any (·.sessionId = sid) then 202 else 409
    { s with running := s.running.filter (·.sessionId ≠ sid) }.updateTask t.id fun t =>
      { t with stage := .handled ⟨status, s.waiting, s.started.length⟩ }

/-- A daemon takes the oldest prompt it holds back into the turn, or starts one for it. -/
def drain (s : Stops) (sid : SessionId) : Stops :=
  match s.held.find? (·.sessionId = sid) with
  | some p =>
    { s with
      held := s.held.erase p
      running := s.running ++ [p]
      started := s.started ++ [p] }
  | none => s

/-! ### Steps -/

inductive Action where
  | connect (key : ℕ) (focusedId : Option SessionId)
  | disconnect (key : ℕ)
  | receive (key : ℕ) (msg : Message)
  | tick (answer : OpAnswer)
  /-- The task goes on. -/
  | task (id : ℕ) (failure : Option String)
  /-- The driver warms or drops a session. -/
  | warm (sid : SessionId) (on : Bool)
  | handlePrompt (p : Sent) (refused : Option String)
  | handleCancel (id : ℕ) (refused : Option RefusedStatus)
  /-- A request is lost. -/
  | lose (p : Sent)
  /-- The turn in flight ends by itself. -/
  | turnEnds (sid : SessionId)
  | drain (sid : SessionId)
  /-- The daemon drops a prompt it holds back. -/
  | dequeue (p : Sent)

/-- One step. -/
def step (s : Stops) : Action → Stops
  | .connect key focusedId => { s with clients := Function.update s.clients key (some focusedId) }
  | .disconnect key => { s with clients := Function.update s.clients key none }
  | .receive key msg => s.receive key msg
  | .tick answer => s.tick answer
  | .task id failure =>
    match s.tasks.find? (·.id = id) with
    | some t => s.goOn t failure
    | none => s
  | .warm sid on => { s with warm := Function.update s.warm sid on }
  | .handlePrompt p refused => if p ∈ s.wire then s.handlePrompt p refused else s
  | .handleCancel id refused =>
    match s.tasks.find? (·.id = id) with
    | some t =>
      match t.stage, t.target with
      | .posted, some sid => s.handleCancel t sid refused
      | _, _ => s
    | none => s
  | .lose p => { s with wire := s.wire.filter (· ≠ p) }
  | .turnEnds sid => { s with running := s.running.filter (·.sessionId ≠ sid) }
  | .drain sid => s.drain sid
  | .dequeue p => { s with held := s.held.erase p }

/-- A server that has just started, before daemons without prompts. -/
def boot : Stops where
  clients := fun _ => none
  ledger := .empty
  received := 0
  queue := []
  phase := .idle
  tasks := []
  nextTask := 0
  answers := []
  warm := fun _ => false
  wire := []
  running := []
  held := []
  started := []

/-! ### What starts has waited -/

/-- Between two states, only what waited has started, and what waits is old or new to the
hub. -/
structure Flow (s s' : Stops) : Prop where
  received : s.received ≤ s'.received
  waiting : ∀ n ∈ s'.waiting, n ∈ s.waiting ∨ s.received ≤ n
  started : ∃ new, s'.started = s.started ++ new ∧ ∀ p ∈ new, p.number ∈ s.waiting
  running : ∀ p ∈ s'.running, p ∈ s.running ∨ p.number ∈ s.waiting

section Flow

variable {s s' : Stops}

/-- Nothing starts. -/
theorem Flow.of_waiting (hreceived : s.received ≤ s'.received)
    (hwaiting : ∀ n ∈ s'.waiting, n ∈ s.waiting ∨ s.received ≤ n)
    (hstarted : s'.started = s.started) (hrunning : ∀ p ∈ s'.running, p ∈ s.running) :
    Flow s s' where
  received := hreceived
  waiting := hwaiting
  started := ⟨[], by rw [hstarted, List.append_nil], fun _ hp => by cases hp⟩
  running := fun p hp => .inl (hrunning p hp)

theorem Flow.refl (s : Stops) : Flow s s :=
  .of_waiting le_rfl (fun _ hn => .inl hn) rfl fun _ hp => hp

theorem mem_waiting {n : ℕ} : n ∈ s.waiting ↔ n ∈ s.queue.flatMap StopOp.waiting ∨
    n ∈ StopPhase.waiting s.phase ∨ n ∈ s.wire.map (·.number) ∨ n ∈ s.held.map (·.number) := by
  unfold waiting
  simp only [List.mem_append, or_assoc]

theorem flow_finish (p : NumberedCall) (error : Option String) : Flow s (s.finish p error) := by
  refine .of_waiting le_rfl (fun n hn => .inl ?_) rfl fun _ hp => hp
  rw [mem_waiting] at hn ⊢
  rcases hn with hn | hn | hn
  · exact .inl hn
  · cases hn
  · exact .inr (.inr hn)

/-- A call of the driver puts its prompt on the wire, or drops it. -/
theorem flow_callPrompt {p : NumberedCall} (hp : p.number ∈ s'.waiting)
    (hs : ∀ n ∈ s.waiting, n ∈ s'.waiting) (hreceived : s'.received = s.received)
    (hstarted : s.started = s'.started) (hrunning : s.running = s'.running) :
    Flow s' (s.callPrompt p) := by
  have hfinish : ∀ error, Flow s' (s.finish p error) := by
    intro error
    have hflow := @flow_finish s p error
    refine .of_waiting hreceived.le (fun n hn => ?_) hstarted fun q hq => ?_
    · exact (hflow.waiting n hn).imp (hs n) fun h => by rwa [hreceived]
    · rwa [← hrunning]
  unfold callPrompt
  split
  · exact hfinish _
  · split
    · refine .of_waiting hreceived.le (fun n hn => .inl ?_) hstarted fun q hq => ?_
      · rw [mem_waiting] at hn
        rcases hn with hn | hn | hn | hn
        · exact hs n (mem_waiting.mpr (.inl hn))
        · cases hn
        · rw [List.map_append] at hn
          rcases List.mem_append.mp hn with hn | hn
          · exact hs n (mem_waiting.mpr (.inr (.inr (.inl hn))))
          · obtain rfl := List.mem_singleton.mp hn
            exact hp
        · exact hs n (mem_waiting.mpr (.inr (.inr (.inr hn))))
      · rwa [← hrunning]
    · exact hfinish _

theorem flow_enqueueOnce (call : PromptCall) {op : NumberedCall → StopOp}
    (hop : ∀ p, StopOp.waiting (op p) = [p.number]) : Flow s (s.enqueueOnce call op) := by
  unfold enqueueOnce
  split
  · exact .refl s
  · refine .of_waiting (Nat.le_succ _) (fun n hn => ?_) rfl fun _ hp => hp
    rw [mem_waiting, List.flatMap_append, List.mem_append] at hn
    rcases hn with (hn | hn) | hn
    · exact .inl (mem_waiting.mpr (.inl hn))
    · rw [List.flatMap_singleton, hop] at hn
      obtain rfl := List.mem_singleton.mp hn
      exact .inr le_rfl
    · exact .inl (mem_waiting.mpr (.inr hn))

theorem flow_enqueueOther (calls : ℕ) :
    Flow s { s with queue := s.queue ++ [.other calls] } := by
  refine .of_waiting le_rfl (fun n hn => .inl ?_) rfl fun _ hp => hp
  rw [mem_waiting, List.flatMap_append, List.mem_append] at hn
  rcases hn with (hn | hn) | hn
  · exact mem_waiting.mpr (.inl hn)
  · cases hn
  · exact mem_waiting.mpr (.inr hn)

theorem flow_receive (key : ℕ) (msg : Message) : Flow s (s.receive key msg) := by
  cases msg with
  | prompt => exact flow_enqueueOnce _ fun _ => rfl
  | newSession prompt images promptId =>
    unfold receive
    dsimp only
    split
    · exact flow_enqueueOnce _ fun _ => rfl
    · split
      · exact .refl s
      · exact flow_enqueueOther 1
  | abort requestId sessionId =>
    unfold receive
    dsimp only
    split
    · exact .of_waiting le_rfl (fun _ hn => .inl hn) rfl fun _ hp => hp
    · exact .refl s
  | other calls => exact flow_enqueueOther calls

/-- The applier goes to a phase that holds no prompt back. -/
theorem flow_phase {phase : StopPhase} (hphase : StopPhase.waiting phase = []) :
    Flow s { s with phase := phase } := by
  refine .of_waiting le_rfl (fun n hn => .inl ?_) rfl fun _ hp => hp
  rw [mem_waiting] at hn ⊢
  rcases hn with hn | hn | hn
  · exact .inl hn
  · rw [hphase] at hn
    cases hn
  · exact .inr (.inr hn)

theorem flow_tick (answer : OpAnswer) : Flow s (s.tick answer) := by
  unfold tick
  split
  · split
    · exact .refl s
    · next p queue hqueue =>
      have hhead : p.number ∈ s.queue.flatMap StopOp.waiting := by
        rw [hqueue, List.flatMap_cons]
        exact List.mem_append_left _ (List.mem_singleton_self _)
      refine flow_callPrompt (mem_waiting.mpr (.inl hhead)) (fun n hn => ?_) rfl rfl rfl
      rw [mem_waiting] at hn ⊢
      refine hn.imp_left fun hn => ?_
      rw [hqueue, List.flatMap_cons]
      exact List.mem_append_right _ hn
    · next p queue hqueue =>
      refine .of_waiting le_rfl (fun n hn => .inl ?_) rfl fun _ hp => hp
      rw [mem_waiting] at hn ⊢
      rw [hqueue, List.flatMap_cons]
      rcases hn with hn | hn | hn
      · exact .inl (List.mem_append_right _ hn)
      · exact .inl (List.mem_append_left _ hn)
      · exact .inr (.inr hn)
    · next calls queue hqueue =>
      refine .of_waiting le_rfl (fun n hn => .inl ?_) rfl fun _ hp => hp
      rw [mem_waiting] at hn ⊢
      rw [hqueue, List.flatMap_cons]
      rcases hn with hn | hn | hn
      · exact .inl (List.mem_append_right _ hn)
      · cases hn
      · exact .inr (.inr hn)
  · split <;> exact flow_phase rfl
  · next p hphase =>
    have hcreating : p.number ∈ s.waiting := by
      rw [mem_waiting, hphase]
      exact .inr (.inl (List.mem_singleton_self _))
    cases answer with
    | created sid => exact flow_callPrompt hcreating (fun _ hn => hn) rfl rfl rfl
    | failed => exact flow_finish p _
    | panicked => exact flow_phase rfl
    | ok => exact .refl s
  · next p reply _ =>
    split
    · exact flow_finish p _
    · exact flow_phase rfl
    · next reply _ _ _ =>
      cases reply with
      | started => exact flow_finish p none
      | queued => exact flow_phase rfl
      | refused error => exact flow_finish p _
    · exact .refl s
  · split
    · exact flow_phase rfl
    · exact flow_finish _ none

/-- Replies and tasks touch no prompt. -/
theorem flow_reply (number : ℕ) (r : PromptReply) : Flow s (s.reply number r) := by
  unfold reply
  split
  · split
    · exact flow_phase rfl
    · exact .refl s
  · exact .refl s

theorem Flow.trans {s'' : Stops} (hf : Flow s s') (hf' : Flow s' s'')
    (hsame : s''.started = s'.started ∧ s''.running = s'.running) : Flow s s'' where
  received := hf.received.trans hf'.received
  waiting := fun n hn => by
    rcases hf'.waiting n hn with hn | hn
    · exact hf.waiting n hn
    · exact .inr (hf.received.trans hn)
  started := by rw [hsame.1]; exact hf.started
  running := by rw [hsame.2]; exact hf.running

theorem reply_same (number : ℕ) (r : PromptReply) :
    (s.reply number r).started = s.started ∧ (s.reply number r).running = s.running := by
  unfold reply
  split
  · split <;> exact ⟨rfl, rfl⟩
  · exact ⟨rfl, rfl⟩

theorem flow_handlePrompt {p : Sent} (hp : p ∈ s.wire) (refused : Option String) :
    Flow s (s.handlePrompt p refused) := by
  have hnumber : p.number ∈ s.waiting :=
    mem_waiting.mpr (.inr (.inr (.inl (List.mem_map.mpr ⟨p, hp, rfl⟩))))
  have hwire : ∀ n ∈ (s.wire.filter (· ≠ p)).map (·.number), n ∈ s.wire.map (·.number) := by
    intro n hn
    obtain ⟨q, hq, rfl⟩ := List.mem_map.mp hn
    exact List.mem_map.mpr ⟨q, (List.mem_filter.mp hq).1, rfl⟩
  unfold handlePrompt
  dsimp only
  split
  · refine Flow.trans ?_ (flow_reply _ _) (reply_same _ _)
    refine .of_waiting le_rfl (fun n hn => .inl ?_) rfl fun _ hq => hq
    rw [mem_waiting] at hn ⊢
    exact hn.imp_right (Or.imp_right (Or.imp_left (hwire n)))
  · split
    · refine Flow.trans ?_ (flow_reply _ _) (reply_same _ _)
      refine .of_waiting le_rfl (fun n hn => .inl ?_) rfl fun _ hq => hq
      rw [mem_waiting, List.map_append, List.mem_append] at hn
      rcases hn with hn | hn | hn | hn | hn
      · exact mem_waiting.mpr (.inl hn)
      · exact mem_waiting.mpr (.inr (.inl hn))
      · exact mem_waiting.mpr (.inr (.inr (.inl (hwire n hn))))
      · exact mem_waiting.mpr (.inr (.inr (.inr hn)))
      · obtain rfl := List.mem_singleton.mp hn
        exact hnumber
    · refine Flow.trans ?_ (flow_reply _ _) (reply_same _ _)
      refine ⟨le_rfl, fun n hn => .inl ?_, ⟨[p], rfl, ?_⟩, ?_⟩
      · rw [mem_waiting] at hn ⊢
        exact hn.imp_right (Or.imp_right (Or.imp_left (hwire n)))
      · intro q hq
        obtain rfl := List.mem_singleton.mp hq
        exact hnumber
      · intro q hq
        rcases List.mem_append.mp hq with hq | hq
        · exact .inl hq
        · obtain rfl := List.mem_singleton.mp hq
          exact .inr hnumber

theorem flow_drain (sid : SessionId) : Flow s (s.drain sid) := by
  unfold drain
  split
  · next p hfind =>
    have hnumber : p.number ∈ s.waiting := mem_waiting.mpr
      (.inr (.inr (.inr (List.mem_map.mpr ⟨p, List.mem_of_find?_eq_some hfind, rfl⟩))))
    refine ⟨le_rfl, fun n hn => .inl ?_, ⟨[p], rfl, ?_⟩, ?_⟩
    · rw [mem_waiting] at hn ⊢
      refine hn.imp_right (Or.imp_right (Or.imp_right fun hn => ?_))
      obtain ⟨q, hq, rfl⟩ := List.mem_map.mp hn
      exact List.mem_map.mpr ⟨q, List.mem_of_mem_erase hq, rfl⟩
    · intro q hq
      obtain rfl := List.mem_singleton.mp hq
      exact hnumber
    · intro q hq
      rcases List.mem_append.mp hq with hq | hq
      · exact .inl hq
      · obtain rfl := List.mem_singleton.mp hq
        exact .inr hnumber
  · exact .refl s

/-- A task touches no prompt. -/
theorem flow_goOn (t : StopTask) (failure : Option String) : Flow s (s.goOn t failure) := by
  have hsame : ∀ tasks answers, Flow s { s with tasks := tasks, answers := answers } :=
    fun _ _ => .of_waiting le_rfl (fun _ hn => .inl hn) rfl fun _ hq => hq
  unfold goOn
  split
  · split
    · exact hsame _ _
    · split
      · exact hsame _ _
      · exact hsame _ _
  · split
    · exact hsame _ _
    · exact .refl s
  · split <;> exact hsame _ _

theorem flow_handleCancel (t : StopTask) (sid : SessionId) (refused : Option RefusedStatus) :
    Flow s (s.handleCancel t sid refused) := by
  unfold handleCancel
  split
  · exact .of_waiting le_rfl (fun _ hn => .inl hn) rfl fun _ hq => hq
  · exact .of_waiting le_rfl (fun _ hn => .inl hn) rfl fun _ hq => (List.mem_filter.mp hq).1

/-- **A turn starts only for a prompt that waited.** -/
theorem step_flow (s : Stops) (a : Action) : Flow s (s.step a) := by
  have hsame : ∀ clients warm, Flow s { s with clients := clients, warm := warm } :=
    fun _ _ => .of_waiting le_rfl (fun _ hn => .inl hn) rfl fun _ hq => hq
  cases a with
  | connect key focusedId => exact hsame _ _
  | disconnect key => exact hsame _ _
  | warm sid on => exact hsame _ _
  | receive key msg => exact flow_receive key msg
  | tick answer => exact flow_tick answer
  | task id failure =>
    unfold step
    dsimp only
    split
    · exact flow_goOn _ failure
    · exact .refl s
  | handlePrompt p refused =>
    unfold step
    dsimp only
    split
    · next hp => exact flow_handlePrompt hp refused
    · exact .refl s
  | handleCancel id refused =>
    unfold step
    dsimp only
    split
    · split
      · exact flow_handleCancel _ _ refused
      · exact .refl s
    · exact .refl s
  | lose p =>
    refine .of_waiting le_rfl (fun n hn => .inl ?_) rfl fun _ hq => hq
    rw [mem_waiting] at hn ⊢
    refine hn.imp_right (Or.imp_right (Or.imp_left fun hn => ?_))
    obtain ⟨q, hq, rfl⟩ := List.mem_map.mp hn
    exact List.mem_map.mpr ⟨q, (List.mem_filter.mp hq).1, rfl⟩
  | turnEnds sid =>
    exact .of_waiting le_rfl (fun _ hn => .inl hn) rfl fun _ hq => (List.mem_filter.mp hq).1
  | drain sid => exact flow_drain sid
  | dequeue p =>
    refine .of_waiting le_rfl (fun n hn => .inl ?_) rfl fun _ hq => hq
    rw [mem_waiting] at hn ⊢
    refine hn.imp_right (Or.imp_right (Or.imp_right fun hn => ?_))
    obtain ⟨q, hq, rfl⟩ := List.mem_map.mp hn
    exact List.mem_map.mpr ⟨q, List.mem_of_mem_erase hq, rfl⟩

end Flow

/-! ### What a stop covers -/

/-- Of the prompts before the number `before`, only those in `spared` wait, have started
after the first `turns` turns, or are in flight in the session. -/
structure Covered (s : Stops) (target : Option SessionId) (before : ℕ) (spared : List ℕ)
    (turns : ℕ) : Prop where
  heard : before ≤ s.received
  waiting : ∀ n ∈ s.waiting, n < before → n ∈ spared
  started : ∀ p ∈ s.started.drop turns, p.number < before → p.number ∈ spared
  running : ∀ p ∈ s.running, target = some p.sessionId → p.number < before → p.number ∈ spared

/-- What holds of the stops that are under way and of those that were answered. -/
structure Sound (s : Stops) : Prop where
  ids : (s.tasks.map (·.id)).Nodup
  fresh : ∀ t ∈ s.tasks, t.id < s.nextTask
  heard : ∀ t ∈ s.tasks, t.heard ≤ s.received
  tasks : ∀ t ∈ s.tasks, ∀ c, t.stage = .handled c → cancelError c.status = none →
    Covered s t.target t.heard c.waiting c.started
  answers : ∀ r ∈ s.answers, r.accepted = true → Covered s r.target r.heard r.waiting r.started

section Sound

variable {s s' : Stops}

theorem Covered.flow {target : Option SessionId} {before : ℕ} {spared : List ℕ} {turns : ℕ}
    (hc : Covered s target before spared turns) (hf : Flow s s') :
    Covered s' target before spared turns where
  heard := hc.heard.trans hf.received
  waiting := fun n hn hlt => by
    rcases hf.waiting n hn with hold | hnew
    · exact hc.waiting n hold hlt
    · exact absurd (hc.heard.trans hnew) (Nat.not_le.mpr hlt)
  started := fun p hp hlt => by
    obtain ⟨new, heq, hnew⟩ := hf.started
    rw [heq, List.drop_append] at hp
    rcases List.mem_append.mp hp with hp | hp
    · exact hc.started p hp hlt
    · exact hc.waiting _ (hnew p (List.mem_of_mem_drop hp)) hlt
  running := fun p hp htarget hlt => by
    rcases hf.running p hp with hp | hp
    · exact hc.running p hp htarget hlt
    · exact hc.waiting _ hp hlt

/-- A step that touches neither a task nor an answer. -/
theorem Sound.of_flow (hs : s.Sound) (hf : Flow s s') (htasks : s'.tasks = s.tasks)
    (hnext : s'.nextTask = s.nextTask) (hanswers : s'.answers = s.answers) : s'.Sound where
  ids := by rw [htasks]; exact hs.ids
  fresh := by rw [htasks, hnext]; exact hs.fresh
  heard := by rw [htasks]; exact fun t ht => (hs.heard t ht).trans hf.received
  tasks := by rw [htasks]; exact fun t ht c hc herror => (hs.tasks t ht c hc herror).flow hf
  answers := by rw [hanswers]; exact fun r hr haccepted => (hs.answers r hr haccepted).flow hf

/-- Only the stage of one task changes. -/
theorem Sound.updateTask (hs : s.Sound) (hf : Flow s s') {t : StopTask} (ht : t ∈ s.tasks)
    {stage : TaskStage}
    (htasks : s'.tasks = s.tasks.map fun t' =>
      if t'.id = t.id then { t' with stage := stage } else t')
    (hnext : s'.nextTask = s.nextTask) (hanswers : s'.answers = s.answers)
    (hstage : ∀ c, stage = .handled c → cancelError c.status = none →
      Covered s' t.target t.heard c.waiting c.started) : s'.Sound := by
  have hmem : ∀ t' ∈ s'.tasks, (t' ∈ s.tasks) ∨ t' = { t with stage := stage } := by
    intro t' ht'
    rw [htasks] at ht'
    obtain ⟨t₀, ht₀, rfl⟩ := List.mem_map.mp ht'
    split_ifs with hid
    · -- the task is the only one of its number
      rw [List.inj_on_of_nodup_map hs.ids ht₀ ht hid]
      exact .inr rfl
    · exact .inl ht₀
  refine ⟨?_, fun t' ht' => ?_, fun t' ht' => ?_, fun t' ht' c hc herror => ?_, ?_⟩
  · have hsame : s'.tasks.map (·.id) = s.tasks.map (·.id) := by
      rw [htasks, List.map_map]
      refine List.map_congr_left fun t' _ => ?_
      simp only [Function.comp]
      split <;> rfl
    rw [hsame]
    exact hs.ids
  · rw [hnext]
    rcases hmem t' ht' with hold | rfl
    · exact hs.fresh t' hold
    · exact hs.fresh t ht
  · rcases hmem t' ht' with hold | rfl
    · exact (hs.heard t' hold).trans hf.received
    · exact (hs.heard t ht).trans hf.received
  · rcases hmem t' ht' with hold | rfl
    · exact (hs.tasks t' hold c hc herror).flow hf
    · exact hstage c hc herror
  · rw [hanswers]
    exact fun r hr haccepted => (hs.answers r hr haccepted).flow hf

/-- A task is answered, and a success comes from a cancel that the daemon handled. -/
theorem Sound.answerTask (hs : s.Sound) {t : StopTask} {error : Option String} {spared : List ℕ}
    (hc : error = none → Covered s t.target t.heard spared s.started.length) :
    (s.answerTask t error spared).Sound := by
  have hf : Flow s (s.answerTask t error spared) :=
    .of_waiting le_rfl (fun _ hn => .inl hn) rfl fun _ hq => hq
  have hold : ∀ t' ∈ (s.answerTask t error spared).tasks, t' ∈ s.tasks :=
    fun t' ht' => (List.mem_filter.mp ht').1
  refine ⟨?_, fun t' ht' => hs.fresh t' (hold t' ht'), fun t' ht' => hs.heard t' (hold t' ht'),
    fun t' ht' c heq herror => (hs.tasks t' (hold t' ht') c heq herror).flow hf,
    fun r hr haccepted => ?_⟩
  · exact (List.Sublist.map _ List.filter_sublist).nodup hs.ids
  · rcases List.mem_append.mp hr with hr | hr
    · exact (hs.answers r hr haccepted).flow hf
    · obtain rfl := List.mem_singleton.mp hr
      exact (hc (Option.isNone_iff_eq_none.mp haccepted)).flow hf

/-! ### Runs -/

/-- From one state to the other no stop comes or goes. -/
structure SameStops (s s' : Stops) : Prop where
  tasks : s'.tasks = s.tasks
  nextTask : s'.nextTask = s.nextTask
  answers : s'.answers = s.answers

theorem Sound.of_same (hs : s.Sound) (hf : Flow s s') (hsame : SameStops s s') : s'.Sound :=
  hs.of_flow hf hsame.tasks hsame.nextTask hsame.answers

theorem SameStops.trans {s'' : Stops} (h : SameStops s s') (h' : SameStops s' s'') :
    SameStops s s'' :=
  ⟨h'.tasks.trans h.tasks, h'.nextTask.trans h.nextTask, h'.answers.trans h.answers⟩

theorem sameStops_enqueueOnce (call : PromptCall) (op : NumberedCall → StopOp) :
    SameStops s (s.enqueueOnce call op) := by
  unfold enqueueOnce
  split <;> exact ⟨rfl, rfl, rfl⟩

theorem sameStops_callPrompt (p : NumberedCall) : SameStops s (s.callPrompt p) := by
  unfold callPrompt
  split
  · exact ⟨rfl, rfl, rfl⟩
  · split <;> exact ⟨rfl, rfl, rfl⟩

theorem sameStops_tick (answer : OpAnswer) : SameStops s (s.tick answer) := by
  have hqueue : ∀ queue, SameStops s { s with queue := queue } := fun _ => ⟨rfl, rfl, rfl⟩
  unfold tick
  split
  · split
    · exact ⟨rfl, rfl, rfl⟩
    · exact (hqueue _).trans (sameStops_callPrompt _)
    · exact ⟨rfl, rfl, rfl⟩
    · exact ⟨rfl, rfl, rfl⟩
  · split <;> exact ⟨rfl, rfl, rfl⟩
  · split
    · exact sameStops_callPrompt _
    · exact ⟨rfl, rfl, rfl⟩
    · exact ⟨rfl, rfl, rfl⟩
    · exact ⟨rfl, rfl, rfl⟩
  · split
    · exact ⟨rfl, rfl, rfl⟩
    · exact ⟨rfl, rfl, rfl⟩
    · next reply _ _ _ => cases reply <;> exact ⟨rfl, rfl, rfl⟩
    · exact ⟨rfl, rfl, rfl⟩
  · split <;> exact ⟨rfl, rfl, rfl⟩

theorem sameStops_reply (number : ℕ) (r : PromptReply) : SameStops s (s.reply number r) := by
  unfold reply
  split
  · split <;> exact ⟨rfl, rfl, rfl⟩
  · exact ⟨rfl, rfl, rfl⟩

theorem sameStops_handlePrompt (p : Sent) (refused : Option String) :
    SameStops s (s.handlePrompt p refused) := by
  unfold handlePrompt
  dsimp only
  split
  · refine SameStops.trans ?_ (sameStops_reply _ _)
    exact ⟨rfl, rfl, rfl⟩
  · split
    · refine SameStops.trans ?_ (sameStops_reply _ _)
      exact ⟨rfl, rfl, rfl⟩
    · refine SameStops.trans ?_ (sameStops_reply _ _)
      exact ⟨rfl, rfl, rfl⟩

theorem Sound.receive (hs : s.Sound) (key : ℕ) (msg : Message) : (s.receive key msg).Sound := by
  have hf := @flow_receive s key msg
  cases msg with
  | prompt => exact hs.of_same hf (sameStops_enqueueOnce _ _)
  | newSession prompt images promptId =>
    refine hs.of_same hf ?_
    unfold Stops.receive
    dsimp only
    split
    · exact sameStops_enqueueOnce _ _
    · split <;> exact ⟨rfl, rfl, rfl⟩
  | abort requestId sessionId =>
    unfold Stops.receive at hf ⊢
    dsimp only at hf ⊢
    split at hf
    · refine ⟨?_, fun t ht => ?_, fun t ht => ?_, fun t ht c hc herror => ?_,
        fun r hr haccepted => (hs.answers r hr haccepted).flow hf⟩
      · rw [List.map_append]
        refine hs.ids.append (List.nodup_singleton _) fun id hid hnew => ?_
        obtain rfl := List.mem_singleton.mp hnew
        obtain ⟨t, ht, heq⟩ := List.mem_map.mp hid
        exact absurd heq (hs.fresh t ht).ne
      · rcases List.mem_append.mp ht with ht | ht
        · exact (hs.fresh t ht).trans (Nat.lt_succ_self _)
        · obtain rfl := List.mem_singleton.mp ht
          exact Nat.lt_succ_self _
      · rcases List.mem_append.mp ht with ht | ht
        · exact hs.heard t ht
        · obtain rfl := List.mem_singleton.mp ht
          exact le_rfl
      · rcases List.mem_append.mp ht with ht | ht
        · exact (hs.tasks t ht c hc herror).flow hf
        · obtain rfl := List.mem_singleton.mp ht
          cases hc
    · exact hs
  | other calls => exact hs.of_same hf ⟨rfl, rfl, rfl⟩

theorem Sound.goOn (hs : s.Sound) {t : StopTask} (ht : t ∈ s.tasks) (failure : Option String) :
    (s.goOn t failure).Sound := by
  unfold Stops.goOn
  split
  · split
    · exact hs.answerTask fun h => by cases h
    · split
      · refine hs.updateTask (.of_waiting le_rfl (fun _ hn => .inl hn) rfl fun _ hq => hq) ht
          rfl rfl rfl fun c hc => ?_
        cases hc
      · exact hs.answerTask fun h => by cases h
  · split
    · exact hs.answerTask fun h => by cases h
    · exact hs
  · next c hstage =>
    split
    · exact hs.answerTask fun h => by cases h
    · refine hs.answerTask fun herror => ?_
      have hc := hs.tasks t ht c hstage herror
      refine ⟨hc.heard, hc.waiting, fun p hp => ?_, hc.running⟩
      rw [List.drop_length] at hp
      cases hp

/-- The cancel ends the turn in flight, and what waits is noted. -/
theorem Sound.handleCancel (hs : s.Sound) {t : StopTask} (ht : t ∈ s.tasks) {sid : SessionId}
    (htarget : t.target = some sid) (refused : Option RefusedStatus) :
    (s.handleCancel t sid refused).Sound := by
  have hf := @flow_handleCancel s t sid refused
  unfold Stops.handleCancel at hf ⊢
  split at hf
  · next status =>
    refine hs.updateTask hf ht rfl rfl rfl fun c hc herror => ?_
    obtain rfl := TaskStage.handled.inj hc
    unfold cancelError at herror
    rw [if_pos status.2] at herror
    cases herror
  · refine hs.updateTask hf ht rfl rfl rfl fun c hc _ => ?_
    obtain rfl := TaskStage.handled.inj hc
    refine ⟨hs.heard t ht, fun n hn _ => hn, fun p hp _ => ?_, fun p hp hsame _ => ?_⟩
    · have hnone : p ∈ s.started.drop s.started.length := hp
      rw [List.drop_length] at hnone
      cases hnone
    · -- none of the session is left in flight
      have hne := of_decide_eq_true (List.mem_filter.mp hp).2
      rw [htarget] at hsame
      exact absurd (Option.some.inj hsame).symm hne

theorem Sound.step (hs : s.Sound) (a : Action) : (s.step a).Sound := by
  have hf := step_flow s a
  cases a with
  | connect | disconnect | warm | lose | turnEnds | dequeue =>
    exact hs.of_same hf ⟨rfl, rfl, rfl⟩
  | receive key msg => exact hs.receive key msg
  | tick answer => exact hs.of_same hf (sameStops_tick answer)
  | task id failure =>
    unfold Stops.step
    dsimp only
    split
    · next t ht => exact hs.goOn (List.mem_of_find?_eq_some ht) failure
    · exact hs
  | handlePrompt p refused =>
    refine hs.of_same hf ?_
    unfold Stops.step
    dsimp only
    split
    · exact sameStops_handlePrompt p refused
    · exact ⟨rfl, rfl, rfl⟩
  | handleCancel id refused =>
    unfold Stops.step
    dsimp only
    split
    · next t ht =>
      split
      · next sid _ htarget => exact hs.handleCancel (List.mem_of_find?_eq_some ht) htarget refused
      · exact hs
    · exact hs
  | drain sid =>
    refine hs.of_same hf ?_
    unfold Stops.step Stops.drain
    dsimp only
    split <;> exact ⟨rfl, rfl, rfl⟩

theorem sound_boot : boot.Sound where
  ids := List.nodup_nil
  fresh := fun _ ht => by cases ht
  heard := fun _ ht => by cases ht
  tasks := fun _ ht => by cases ht
  answers := fun _ hr => by cases hr

end Sound

/-- **After an accepted stop no turn runs for an earlier prompt of the session, except one
that was still waiting when the daemon handled the cancel**: in the hub's queue, with the
operation under way, on the wire, or held back by the daemon. -/
theorem stops_cover (acts : List Action) :
    ∀ r ∈ (acts.foldl step boot).answers, r.accepted = true →
      ∀ p ∈ (acts.foldl step boot).started.drop r.started ++ (acts.foldl step boot).running,
        r.target = some p.sessionId → p.number < r.heard → p.number ∈ r.waiting := by
  intro r hr haccepted p hp htarget hlt
  have hs : (acts.foldl step boot).Sound :=
    foldl_invariant (fun s a hs => hs.step a) sound_boot acts
  have hc := hs.answers r hr haccepted
  rcases List.mem_append.mp hp with hp | hp
  · exact hc.started p hp hlt
  · exact hc.running p hp htarget hlt

/-- A prompt waits behind another operation when the stop comes; the daemon has no turn to
cancel, the client is told of a success, and then the prompt starts a turn. -/
def lateStop : List Action :=
  [.connect 0 (some "s"), .warm "s" true, .receive 0 (.other 1),
    .receive 0 (.prompt "hello" none none none none), .tick .ok,
    .receive 0 (.abort none none), .task 0 none, .handleCancel 0 none, .task 0 none,
    .tick .ok, .tick .ok, .tick .ok, .handlePrompt ⟨0, "s"⟩ none]

theorem stops_cover_lateStop :
    ∃ r ∈ (lateStop.foldl step boot).answers, r.accepted = true ∧ 0 ∈ r.waiting := by
  refine ⟨⟨0, none, true, none, some "s", 1, [0], 0⟩, .head _, rfl, ?_⟩
  exact stops_cover lateStop _ (.head _) rfl ⟨0, "s"⟩ (.head _) rfl Nat.one_pos

theorem stops_not_cover :
    ¬ ∀ acts : List Action, ∀ r ∈ (acts.foldl step boot).answers, r.accepted = true →
      ∀ p ∈ (acts.foldl step boot).started.drop r.started,
        r.target = some p.sessionId → ¬ p.number < r.heard := by
  intro hall
  have hnot := hall lateStop ⟨0, none, true, none, some "s", 1, [0], 0⟩ (.head _) rfl
    ⟨0, "s"⟩ (.head _) rfl
  exact hnot Nat.one_pos

/-- The same of a prompt that the daemon held back behind the turn it then cancelled. -/
theorem held_not_covered :
    let acts : List Action :=
      [.connect 0 (some "s"), .warm "s" true, .receive 0 (.prompt "one" none none none none),
        .tick .ok, .handlePrompt ⟨0, "s"⟩ none, .tick .ok,
        .receive 0 (.prompt "two" none none none none), .tick .ok,
        .handlePrompt ⟨1, "s"⟩ none, .receive 0 (.abort none none), .task 0 none,
        .handleCancel 0 none, .task 0 none, .drain "s"]
    let s := acts.foldl step boot
    s.answers = [⟨0, none, true, none, some "s", 2, [1], 1⟩] ∧
      s.started = [⟨0, "s"⟩, ⟨1, "s"⟩] ∧ s.running = [⟨1, "s"⟩] := ⟨rfl, rfl, rfl⟩

end Stops

end Pantoken
