import Pantoken.Lib.Run
import Pantoken.Server.Applier

/-!
# Prompts run once

The hub looks a prompt id up in the ledger when the message comes in, and records its
result when the driver has answered.  In between the id is on the queue, in the switch
of a new session or with the driver, and the ledger does not know it: a resend that
comes in then is queued a second time.

## Main definitions

* `Server.attempts` — how often a prompt id waits to be run or was run.
* `SentOnce` — a message with the id comes in when the ledger has its result, or when
  the id is nowhere else.

## Main results

* `attempts_tick_le` — the applier never adds an attempt.
* `prompts_started_once` — **under `SentOnce` the driver runs a prompt id at most once**,
  and the ledger is well formed in every run.
* `prompts_started_twice` — two sends before the first runs are run twice.
-/

namespace Pantoken

/-! ### Attempts -/

/-- The prompt id of a message that asks for a prompt. -/
def ClientMessage.promptId : ClientMessage → Option String
  | .prompt _ _ _ promptId _ => promptId
  | .newSession _ _ _ promptId => promptId
  | _ => none

/-- The prompt id an operation carries to the driver. -/
def HubOp.promptId : HubOp → Option String
  | .prompt _ call => call.promptId
  | .newSession _ _ first => first.promptId
  | _ => none

/-- The prompt id the operation under way has still to hand to the driver. -/
def Phase.promptId : Phase → Option String
  | .switching _ _ _ first => first.bind (·.promptId)
  | _ => none

/-- How often the driver was asked to run a prompt. -/
def Driver.started (d : Driver) (p : String) : Nat := d.prompts.countP (·.promptId = some p)

/-- One when the id is the given one. -/
def hits (p : String) (promptId : Option String) : Nat := if promptId = some p then 1 else 0

@[simp] theorem hits_none (p : String) : hits p none = 0 := rfl

/-- How often a prompt waits to be run, or was run. -/
def Server.attempts (s : Server) (p : String) : Nat :=
  s.queue.countP (·.promptId = some p) + hits p s.phase.promptId + s.driver.started p

/-- A message with the prompt id finds its result in the ledger, or the id nowhere. -/
def SentOnce (p : String) (s : Server) : Server.Action → Prop
  | .input (.receive _ msg) =>
    msg.promptId = some p → (s.hub.prompts.results p).isSome = true ∨ s.attempts p = 0
  | _ => True

section Attempts

variable {serde : Serde} {s : Server} {p : String}

/-- Handing a prompt to the driver is the attempt it was queued for. -/
theorem attempts_startPrompt (key : Nat) (call : PromptCall) :
    (s.startPrompt key call).attempts p =
      s.queue.countP (·.promptId = some p) + s.driver.started p + hits p call.promptId := by
  have hstart : (s.startPrompt key call).driver.started p =
      s.driver.started p + hits p call.promptId := by
    simp [Server.startPrompt, Driver.started, List.countP_singleton, hits]
  rw [Server.attempts, hstart]
  simp only [Server.startPrompt, Phase.promptId, hits_none]
  omega

/-- A server that is done with its operation has no more attempts than before. -/
theorem attempts_idle_le {s' : Server} (hq : s'.queue = s.queue) (hd : s'.driver = s.driver)
    (hp : s'.phase.promptId = none) : s'.attempts p ≤ s.attempts p := by
  rw [Server.attempts, Server.attempts, hq, hd, hp, hits_none]
  omega

theorem attempts_recordResult_le (key : Nat) (promptId : Option String) (result : PromptResult) :
    (s.recordResult key promptId result).attempts p ≤ s.attempts p :=
  attempts_idle_le rfl rfl rfl

theorem attempts_afterSwitch_le {first : Option FirstPrompt}
    (hp : s.phase.promptId = first.bind (·.promptId)) (key : Nat) (sid : Option SessionId) :
    (s.afterSwitch key sid first).attempts p ≤ s.attempts p := by
  unfold Server.afterSwitch
  cases first with
  | none => exact attempts_idle_le rfl rfl rfl
  | some f =>
    dsimp only
    split
    · -- the prompt of the new session goes from the phase to the driver
      rw [attempts_startPrompt, Server.attempts, hp, Option.bind_some]
      dsimp only
      omega
    · exact attempts_idle_le rfl rfl rfl
    · exact attempts_recordResult_le _ _ _
    · exact attempts_idle_le rfl rfl rfl

theorem attempts_release_le {first : Option FirstPrompt}
    (hp : s.phase.promptId = first.bind (·.promptId)) (key : Nat) (sid : Option SessionId) :
    (s.release key sid first).attempts p ≤ s.attempts p := by
  unfold Server.release
  cases (s.hub.client key).bind (·.pendingSwitch) with
  | none =>
    refine (attempts_afterSwitch_le ?_ key sid).trans le_rfl
    exact hp
  | some queued =>
    refine (attempts_afterSwitch_le ?_ key sid).trans ?_
    · exact hp
    · simp [Server.attempts, HubOp.promptId]

/-- A switch in progress keeps its first prompt. -/
theorem attempts_goto_le {key key' : Nat} {sw : Switch} {stage stage' : Stage}
    {first : Option FirstPrompt} (hp : s.phase = .switching key sw stage first) {s' : Server}
    (hq : s'.queue = s.queue) (hd : s'.driver.prompts = s.driver.prompts)
    (hp' : s'.phase = .switching key' sw stage' first) : s'.attempts p ≤ s.attempts p := by
  rw [Server.attempts, Server.attempts, hq, hp, hp', Driver.started, Driver.started, hd]
  exact le_rfl

theorem attempts_tickSwitch_le {key : Nat} {sw : Switch} {stage : Stage}
    {first : Option FirstPrompt} (hp : s.phase = .switching key sw stage first)
    (answer : Answer) : (s.tickSwitch key sw stage first answer).attempts p ≤ s.attempts p := by
  cases stage with
  | begin =>
    simp only [Server.tickSwitch]
    split
    · split <;> exact attempts_goto_le hp rfl rfl rfl
    · exact attempts_goto_le hp rfl rfl rfl
  | waiting =>
    simp only [Server.tickSwitch]
    split
    · exact le_rfl
    · exact attempts_afterSwitch_le (congrArg Phase.promptId hp) key none
  | fetching =>
    cases answer with
    | seed | failed => exact attempts_goto_le hp rfl rfl rfl
    | panicked => exact attempts_idle_le rfl rfl rfl
    | ok | usages => exact le_rfl
  | landed result =>
    cases result with
    | error raw => exact attempts_goto_le hp rfl rfl rfl
    | ok seed =>
      simp only [Server.tickSwitch]
      split <;> exact attempts_goto_le hp rfl rfl rfl
  | reseeding sid msg viewers => cases viewers <;> exact attempts_goto_le hp rfl rfl rfl
  | finished sid => exact attempts_release_le (congrArg Phase.promptId hp) key sid
  | entered | fetched | returned | folded | installed | seedBuilt =>
    exact attempts_goto_le hp rfl rfl rfl

theorem attempts_tickPrompting_le (key : Nat) (call : PromptCall) (answer : Answer) :
    (s.tickPrompting key call answer).attempts p ≤ s.attempts p := by
  cases answer with
  | ok | failed => exact attempts_recordResult_le _ _ _
  | panicked => exact attempts_idle_le rfl rfl rfl
  | seed | usages => exact le_rfl

/-- Taking an operation off the queue moves its attempt along. -/
theorem attempts_start_le {op : HubOp} {queue : List HubOp} (hp : s.phase.promptId = none)
    (hq : s.queue = op :: queue) (m : Moment) (answer : Answer) :
    (Server.start serde { s with queue := queue } m answer op).attempts p ≤ s.attempts p := by
  have hattempts : s.attempts p =
      queue.countP (·.promptId = some p) + hits p op.promptId + s.driver.started p := by
    rw [Server.attempts, hq, hp, List.countP_cons]
    simp [hits]
  cases op with
  | prompt key call =>
    rw [Server.start, attempts_startPrompt, hattempts]
    simp only [HubOp.promptId]
    omega
  | switch | newSession => rw [hattempts]; rfl
  | deltaFlush sid =>
    rw [hattempts, Server.start, Server.attempts, hp]
    simp [HubOp.promptId]
  | liveRefresh =>
    rw [hattempts]
    cases answer <;> simp [Server.start, Server.attempts, hp, HubOp.promptId]
  | detachSession key path =>
    rw [hattempts, Server.start]
    split <;> simp [Server.attempts, hp, HubOp.promptId, Driver.started]

/-- **The applier never adds an attempt.** -/
theorem attempts_tick_le (m : Moment) (answer : Answer) :
    (s.tick serde m answer).attempts p ≤ s.attempts p := by
  unfold Server.tick
  split
  · next hp =>
    split
    · exact le_rfl
    · next op queue hq => exact attempts_start_le (by rw [hp]; rfl) hq m answer
  · exact attempts_tickPrompting_le _ _ _
  · next hp => exact attempts_tickSwitch_le hp answer

/-- A message adds the attempt it asks for, when the ledger does not know the id. -/
theorem attempts_receive_le (key : Nat) (msg : ClientMessage) :
    (s.receive key msg).attempts p ≤ s.attempts p +
      (if msg.promptId = some p ∧ (s.hub.prompts.results p).isSome = false then 1 else 0) := by
  have henq : ∀ op, (s.enqueue op).attempts p =
      s.attempts p + hits p op.promptId := by
    intro op
    have hone : [op].countP (·.promptId = some p) = hits p op.promptId := by
      simp [List.countP_singleton, hits]
    rw [Server.attempts, Server.enqueue, List.countP_append, hone, Server.attempts]
    dsimp only
    omega
  -- the ledger is asked before the operation is queued
  have honce : ∀ promptId op, op.promptId = promptId →
      (s.enqueueOnce key promptId op).attempts p ≤ s.attempts p +
        (if promptId = some p ∧ (s.hub.prompts.results p).isSome = false then 1 else 0) := by
    rintro promptId op rfl
    unfold Server.enqueueOnce
    split
    · exact Nat.le_add_right _ _
    · next hmiss =>
      rw [henq]
      by_cases hop : op.promptId = some p
      · have hnone : s.hub.prompts.results p = none := by
          simpa [checkPromptIdempotency, hop] using hmiss
        simp [hop, hnone, hits]
      · simp [hop, hits]
  cases msg with
  | prompt | newSession => exact honce _ _ rfl
  | requestSeed => exact Nat.le_add_right _ _
  | openSession | reloadSession | branch | detachSession =>
    simp only [Server.receive, henq]
    simp [HubOp.promptId]

theorem attempts_step_le {a : Server.Action} (ha : SentOnce p s a) (h : s.attempts p ≤ 1) :
    (s.step serde a).attempts p ≤ 1 := by
  cases a with
  | tick m answer => exact (attempts_tick_le m answer).trans h
  | input i =>
    cases i with
    | receive key msg =>
      have hle := @attempts_receive_le s p key msg
      refine hle.trans ?_
      split
      · next hmiss =>
        rcases ha hmiss.1 with hhit | hzero
        · rw [hmiss.2] at hhit
          cases hhit
        · omega
      · exact h
    | event | connect | disconnect => exact h
    | timer | liveTimer =>
      simpa [Server.step, Server.input, Server.enqueue, Server.attempts, HubOp.promptId] using h
    | evict | disposeIdle => exact h

end Attempts

/-! ### The ledger -/

section Ledger

variable {serde : Serde} {s : Server}

theorem wellFormed_recordResult (hs : s.hub.prompts.WellFormed) (key : Nat)
    (promptId : Option String) (result : PromptResult) :
    (s.recordResult key promptId result).hub.prompts.WellFormed := by
  cases promptId with
  | none => exact hs
  | some p => exact wellFormed_cachePromptResult hs p result

theorem wellFormed_afterSwitch (hs : s.hub.prompts.WellFormed) (key : Nat)
    (sid : Option SessionId) (first : Option FirstPrompt) :
    (s.afterSwitch key sid first).hub.prompts.WellFormed := by
  unfold Server.afterSwitch
  split
  · exact hs
  · split
    · exact hs
    · exact hs
    · exact wellFormed_recordResult hs _ _ _
    · exact hs

theorem wellFormed_tickSwitch (hs : s.hub.prompts.WellFormed) (key : Nat) (sw : Switch)
    (stage : Stage) (first : Option FirstPrompt) (answer : Answer) :
    (s.tickSwitch key sw stage first answer).hub.prompts.WellFormed := by
  cases stage with
  | begin =>
    simp only [Server.tickSwitch]
    split
    · split <;> exact hs
    · exact hs
  | waiting =>
    simp only [Server.tickSwitch]
    split
    · exact hs
    · exact wellFormed_afterSwitch hs key none first
  | fetching => cases answer <;> exact hs
  | landed result =>
    cases result with
    | error raw =>
      simp only [Server.tickSwitch]
      split <;> exact hs
    | ok seed =>
      simp only [Server.tickSwitch]
      split <;> exact hs
  | folded seed sid =>
    -- a new journal leaves the ledger alone
    have hinst : (Server.installJournal s.hub sw seed sid).prompts = s.hub.prompts := by
      unfold Server.installJournal
      split <;> rfl
    simp only [Server.tickSwitch, Server.install]
    split
    · rwa [hinst]
    · show (Server.installJournal s.hub sw seed sid).prompts.WellFormed
      rwa [hinst]
  | reseeding sid msg viewers => cases viewers <;> exact hs
  | finished sid =>
    simp only [Server.tickSwitch, Server.release]
    refine wellFormed_afterSwitch ?_ key sid first
    split <;> exact hs
  | entered | fetched | returned | installed | seedBuilt => exact hs

theorem wellFormed_start (hs : s.hub.prompts.WellFormed) (m : Moment) (answer : Answer)
    (op : HubOp) : (s.start serde m answer op).hub.prompts.WellFormed := by
  cases op with
  | prompt | switch | newSession => exact hs
  | deltaFlush sid =>
    simp only [Server.start]
    rwa [(frame_flushPending m.order sid).prompts]
  | liveRefresh =>
    cases answer with
    | usages nowIso usages =>
      simp only [Server.start]
      rwa [(frame_refreshUsage m nowIso usages).prompts]
    | ok | failed | panicked | seed => exact hs
  | detachSession key path =>
    simp only [Server.start]
    split <;> exact hs

/-- **A step keeps the ledger well formed.** -/
theorem wellFormed_step (hs : s.hub.prompts.WellFormed) (a : Server.Action) :
    (s.step serde a).hub.prompts.WellFormed := by
  cases a with
  | tick m answer =>
    simp only [Server.step, Server.tick]
    split
    · split
      · exact hs
      · exact wellFormed_start (by exact hs) m answer _
    · cases answer with
      | ok | failed => exact wellFormed_recordResult hs _ _ _
      | panicked | seed | usages => exact hs
    · exact wellFormed_tickSwitch hs _ _ _ _ answer
  | input i =>
    cases i with
    | event m ev =>
      simp only [Server.step, Server.input]
      rwa [(frame_onEvent m ev).prompts]
    | receive key msg =>
      have honce : ∀ promptId op, (s.enqueueOnce key promptId op).hub.prompts.WellFormed := by
        intro promptId op
        unfold Server.enqueueOnce
        split <;> exact hs
      cases msg with
      | prompt | newSession => exact honce _ _
      | requestSeed | openSession | reloadSession | branch | detachSession => exact hs
    | connect | disconnect | timer | liveTimer | evict | disposeIdle => exact hs

end Ledger

/-! ### Runs -/

theorem boot_prompts (deltaFlushMs nowMs : Nat) (defaultSeed : Option SwapSeed) :
    (Server.boot deltaFlushMs nowMs defaultSeed).hub.prompts = .empty := by
  simp only [Server.boot, SessionHub.new, SessionHub.seedDefault]
  split
  · rfl
  · split <;> rfl

/-- **The driver runs a prompt id at most once** in every run in which a message with the
id finds its result in the ledger or the id nowhere on its way, and the ledger is well
formed in every run. -/
theorem prompts_started_once (serde : Serde) (deltaFlushMs nowMs : Nat)
    (defaultSeed : Option SwapSeed) (acts : List Server.Action) :
    let boot := Server.boot deltaFlushMs nowMs defaultSeed
    (boot.run serde acts).hub.prompts.WellFormed ∧
    ∀ p, Along (Server.step serde) (SentOnce p) boot acts →
      (boot.run serde acts).driver.started p ≤ 1 := by
  intro boot
  constructor
  · refine foldl_invariant (I := fun s : Server => s.hub.prompts.WellFormed)
      (fun s a hs => wellFormed_step hs a) ?_ acts
    rw [boot_prompts]
    exact wellFormed_empty
  · intro p hsent
    have hboot : boot.attempts p ≤ 1 := Nat.zero_le 1
    have hrun := hsent.foldl_invariant (I := fun s : Server => s.attempts p ≤ 1)
      (fun s a hs ha => @attempts_step_le serde s p a ha hs) hboot
    exact (Nat.le_add_left _ _).trans hrun

/-- A prompt is resent once its result is recorded. -/
theorem prompts_started_once_resent :
    let m : Moment := ⟨default, 0, true⟩
    let prompt : Server.Action := .input (.receive 0 (.prompt "hi" none none (some "p") (some "s")))
    let s := (Server.boot 0 0 none).run ⟨fun _ => 0, fun _ => none⟩
      [.input (.connect none), prompt, .tick m .ok, .tick m .ok, prompt, .tick m .ok]
    s.driver.started "p" ≤ 1 ∧ s.driver.started "p" ≠ 0 := by
  refine ⟨(prompts_started_once _ 0 0 none _).2 "p" ?_, by decide⟩
  refine ⟨trivial, fun _ => .inr ?_, trivial, trivial, fun _ => .inl ?_, trivial, trivial⟩
  · decide
  · decide

/-- A prompt and its resend come in before the applier takes the first: the driver runs
both, and records the id. -/
theorem prompts_started_twice :
    let m : Moment := ⟨default, 0, true⟩
    let prompt : Server.Action := .input (.receive 0 (.prompt "hi" none none (some "p") (some "s")))
    let s := (Server.boot 0 0 none).run ⟨fun _ => 0, fun _ => none⟩
      [.input (.connect none), prompt, prompt, .tick m .ok, .tick m .ok, .tick m .ok, .tick m .ok]
    s.driver.started "p" = 2 ∧ s.hub.prompts.order = ["p"] := by
  decide

end Pantoken
