import Pantoken.Lib.Cut
import Pantoken.Server.Hub

/-!
# The server: hub, operation queue and driver

What a client message asks of the driver runs on one applier, which takes operations
off a queue and finishes each before the next.  An operation holds the hub's lock only
for short sections and awaits the driver in between, where events, messages and
connections come in.  A step of the server is one such section.

## Main definitions

* `ClientMessage`, `Server.receive` — `handle_client`.
* `HubOp`, `Phase`, `Stage` — the queued operations and the one under way.
* `Server.tick` — the next section of the applier, with the driver's answer to it.
* `Server.step` — a tick, or something from outside.
-/

namespace Pantoken

/-! ### State -/

/-- `DeliveryMode` -/
inductive DeliveryMode where
  | steer
  | followUp

/-- The messages of a client that touch the modelled state. -/
inductive ClientMessage where
  | prompt (text : String) (deliverAs : Option DeliveryMode) (images : Option (List ImageContent))
      (promptId : Option String) (sessionId : Option SessionId)
  | requestSeed (sessionId : Option SessionId)
  | openSession (path : String)
  | reloadSession (path : String)
  | branch (entryId : String) (sessionId : Option SessionId)
  | newSession (opts : NewSessionOpts) (prompt : Option String)
      (images : Option (List ImageContent)) (promptId : Option String)
  | detachSession (path : String)

/-- The arguments of the driver's `prompt`. -/
structure PromptCall where
  text : String
  deliverAs : Option DeliveryMode
  sessionId : Option SessionId
  images : List ImageContent
  promptId : Option String

/-- What `newSession` does with the outcome of its switch. -/
structure FirstPrompt where
  /-- The trimmed text and the images, when there is either. -/
  content : Option (String × List ImageContent)
  promptId : Option String

/-- An operation on the queue. -/
inductive HubOp where
  | prompt (key : Nat) (call : PromptCall)
  | switch (key : Nat) (sw : Switch)
  | newSession (key : Nat) (sw : Switch) (first : FirstPrompt)
  | deltaFlush (sid : SessionId)
  | liveRefresh
  | detachSession (key : Nat) (path : String)

/-- Where a switch stands, between two sections. -/
inductive Stage where
  /-- Not begun. -/
  | begin
  /-- Queued behind another switch of the client. -/
  | waiting
  /-- The connection is marked. -/
  | entered
  /-- The swap is counted and the driver awaited. -/
  | fetching
  /-- The driver has read the session; its answer is on the way. -/
  | fetched (seed : SwapSeed)
  /-- The answer is there. -/
  | returned (result : Except String SwapSeed)
  /-- The swap is no longer counted. -/
  | landed (result : Except String SwapSeed)
  /-- The seed is folded and names the session. -/
  | folded (seed : SwapSeed) (sid : SessionId)
  /-- A reseeded journal is installed; the other viewers are next. -/
  | installed (sid : SessionId)
  /-- Their seed is built. -/
  | seedBuilt (sid : SessionId) (msg : ServerMessage)
  /-- Their seed is being sent. -/
  | reseeding (sid : SessionId) (msg : ServerMessage) (viewers : List Nat)
  /-- Nothing is left but to release the connection. -/
  | finished (sid : Option SessionId)

/-- What the applier is doing. -/
inductive Phase where
  | idle
  | prompting (key : Nat) (call : PromptCall)
  | switching (key : Nat) (sw : Switch) (stage : Stage) (first : Option FirstPrompt)

instance Phase.decidableEqIdle (p : Phase) : Decidable (p = .idle) :=
  match p with
  | .idle => isTrue rfl
  | .prompting .. => isFalse Phase.noConfusion
  | .switching .. => isFalse Phase.noConfusion

/-- The driver: the sessions it keeps warm, and the prompts it was asked to run. -/
structure Driver where
  warm : List SessionId
  prompts : List PromptCall

structure Server where
  hub : SessionHub
  queue : List HubOp
  phase : Phase
  driver : Driver

/-- The driver's answer to the call of a section. -/
inductive Answer where
  | ok
  | failed (message : String)
  /-- The call panicked: the applier drops the operation and goes on. -/
  | panicked
  | seed (seed : SwapSeed)
  | usages (nowIso : String) (usages : List (SessionId × SessionUsage))

/-- `session_id_from_path` -/
def sessionIdFromPath (path : String) : Option SessionId :=
  let parts := ((path.replace "\\" "/").splitOn "/").filter (· ≠ "")
  match parts.reverse with
  | "session.json" :: sid :: _ => some sid
  | _ => none

namespace Server

/-! ### Messages -/

/-- `str::trim` -/
def trim (s : String) : String := String.ofList (Cut.trim Cut.isWhitespace s.toList)

/-- The first prompt of a new session: its text trimmed, and present when there is some
text or an image. -/
def firstPrompt (prompt : Option String) (images : Option (List ImageContent)) :
    Option (String × List ImageContent) :=
  let text := (prompt.map trim).filter (· ≠ "")
  let images := images.getD []
  if text.isSome ∨ images ≠ [] then some (text.getD "", images) else none

/-- Put an operation on the queue. -/
def enqueue (s : Server) (op : HubOp) : Server := { s with queue := s.queue ++ [op] }

/-- The part of `Prompt` and `NewSession` that consults the ledger. -/
def enqueueOnce (s : Server) (key : Nat) (promptId : Option String) (op : HubOp) : Server :=
  match checkPromptIdempotency s.hub.prompts promptId with
  | some cached => { s with hub := s.hub.sendToClient key (.promptResult cached) }
  | none => s.enqueue op

/-- `handle_client` -/
def receive (s : Server) (key : Nat) (msg : ClientMessage) : Server :=
  let focusedId := (s.hub.client key).bind (·.focusedId)
  match msg with
  | .prompt text deliverAs images promptId sessionId =>
    s.enqueueOnce key promptId
      (.prompt key ⟨text, deliverAs, sessionId.or focusedId, images.getD [], promptId⟩)
  | .requestSeed sessionId =>
    { s with hub := s.hub.sendToClient key (s.hub.seedMsg (sessionId.or focusedId)) }
  | .openSession path => s.enqueue (.switch key ⟨.openSession path, false, true⟩)
  | .reloadSession path => s.enqueue (.switch key ⟨.reloadSession path, true, true⟩)
  | .branch entryId sessionId =>
    s.enqueue (.switch key ⟨.branchFrom entryId (sessionId.or focusedId), true, false⟩)
  | .newSession opts prompt images promptId =>
    s.enqueueOnce key promptId
      (.newSession key ⟨.newSession opts, false, false⟩ ⟨firstPrompt prompt images, promptId⟩)
  | .detachSession path => s.enqueue (.detachSession key path)

/-! ### Prompts -/

/-- Call the driver's `prompt`. -/
def startPrompt (s : Server) (key : Nat) (call : PromptCall) : Server :=
  { s with
    phase := .prompting key call
    driver := { s.driver with prompts := s.driver.prompts ++ [call] } }

/-- Record a result under its prompt id, if there is one, and send it. -/
def recordResult (s : Server) (key : Nat) (promptId : Option String) (result : PromptResult) :
    Server :=
  let hub :=
    match promptId with
    | some p => { s.hub with prompts := cachePromptResult s.hub.prompts p result }
    | none => s.hub
  { s with
    hub := hub.sendToClient key (.promptResult result)
    phase := .idle }

/-- The result of a prompt the driver answered. -/
def promptResult (call : PromptCall) : Option String → PromptResult
  | none => ⟨call.promptId.getD "", true, call.sessionId, none⟩
  | some e => ⟨call.promptId.getD "", false, none, some e⟩

/-- The prompt awaits the driver's answer. -/
def tickPrompting (s : Server) (key : Nat) (call : PromptCall) : Answer → Server
  | .ok => s.recordResult key call.promptId (promptResult call none)
  | .failed e => s.recordResult key call.promptId (promptResult call (some e))
  | .panicked => { s with phase := .idle }
  | _ => s

/-- After the switch of an operation: `newSession` sends its first prompt, or reports that
there is no session to send it to. -/
def afterSwitch (s : Server) (key : Nat) (sid : Option SessionId) (first : Option FirstPrompt) :
    Server :=
  match first with
  | none => { s with phase := .idle }
  | some f =>
    match sid, f.content with
    | some sid, some (text, images) => s.startPrompt key ⟨text, none, some sid, images, f.promptId⟩
    | some _, none => { s with phase := .idle }
    | none, some _ =>
      s.recordResult key f.promptId
        ⟨f.promptId.getD "", false, none, some "Could not create the new session"⟩
    | none, none =>
      { s with
        hub := s.hub.sendToClient key (.error "Could not create the new session")
        phase := .idle }

/-! ### Switches -/

/-- The sessions the driver keeps warm once it has read the one it was asked for. -/
def warmAfter (warm : List SessionId) (sid : Option SessionId) : List SessionId :=
  match sid with
  | some sid => if sid ∈ warm then warm else warm ++ [sid]
  | none => warm

/-- The journal of a switch: a kept one for a session that has it, unless the switch
reseeds. -/
def installJournal (h : SessionHub) (sw : Switch) (seed : SwapSeed) (sid : SessionId) :
    SessionHub :=
  if sw.reseed ∨ h.hasJournal sid = false then (h.dropPending sid).startJournal sid seed.events
  else h

/-- Move the requester's focus and seed it. -/
def seedRequester (h : SessionHub) (key : Nat) (sid : SessionId) : SessionHub :=
  let h := h.setClientFocus key sid
  h.sendToClient key (h.seedMsg (some sid))

/-- Whether the client queued another switch meanwhile. -/
def superseded (h : SessionHub) (key : Nat) : Bool := (h.client key).any (·.pendingSwitch.isSome)

/-- `finish_switch`, the section that installs the journal, moves the focus and seeds the
requester. -/
def install (s : Server) (key : Nat) (sw : Switch) (seed : SwapSeed) (sid : SessionId)
    (first : Option FirstPrompt) : Server :=
  let hub := installJournal s.hub sw seed sid
  { s with
    hub := if superseded hub key then hub else seedRequester hub key sid
    phase :=
      .switching key sw (if superseded hub key ∨ sw.reseed = false then .finished (some sid)
        else .installed sid) first }

/-- The section that releases the connection and runs the switch queued on it, if any. -/
def release (s : Server) (key : Nat) (sid : Option SessionId) (first : Option FirstPrompt) :
    Server :=
  let queued := (s.hub.client key).bind (·.pendingSwitch)
  let hub := s.hub.updateClient key fun c =>
    { c with switchInFlight := false, pendingSwitch := none }
  let s := { s with hub := hub }
  let s :=
    match queued with
    -- dormant: with one applier no switch is queued on a connection by now
    | some sw => { s with queue := .switch key sw :: s.queue }
    | none => s
  s.afterSwitch key sid first

/-- The next section of a switch. -/
def tickSwitch (s : Server) (key : Nat) (sw : Switch) (stage : Stage) (first : Option FirstPrompt)
    (answer : Answer) : Server :=
  let goto (s : Server) (stage : Stage) : Server :=
    { s with phase := .switching key sw stage first }
  match stage with
  | .begin =>
    match s.hub.client key with
    | some c =>
      if c.switchInFlight then
        let hub := s.hub.updateClient key fun c => { c with pendingSwitch := some sw }
        goto { s with hub := hub } .waiting
      else
        let hub := s.hub.updateClient key fun c => { c with switchInFlight := true }
        goto { s with hub := hub } .entered
    -- the client has left, and its switch runs all the same
    | none => goto s .entered
  | .waiting =>
    -- only the client's departure resolves it: no other switch runs meanwhile
    match s.hub.client key with
    | some _ => s
    | none => s.afterSwitch key none first
  | .entered =>
    goto { s with hub := { s.hub with swapsInFlight := s.hub.swapsInFlight + 1 } } .fetching
  | .fetching =>
    match answer with
    | .seed seed =>
      let driver := { s.driver with
        warm := warmAfter s.driver.warm (SessionHub.seedSid seed.events) }
      goto { s with driver := driver } (.fetched seed)
    | .failed raw => goto s (.returned (.error raw))
    -- the connection stays marked, and the swap counted
    | .panicked => { s with phase := .idle }
    | _ => s
  | .fetched seed => goto s (.returned (.ok seed))
  | .returned result =>
    goto { s with hub := { s.hub with swapsInFlight := s.hub.swapsInFlight - 1 } } (.landed result)
  | .landed (.error raw) =>
    -- a newer switch of the client hides the error
    let hub :=
      if superseded s.hub key then s.hub else s.hub.sendToClient key (.switchError raw)
    goto { s with hub := hub } (.finished none)
  | .landed (.ok seed) =>
    match SessionHub.seedSid seed.events with
    | some sid => goto s (.folded seed sid)
    | none =>
      let hub := s.hub.sendToClient key (.error "session switch returned no session")
      goto { s with hub := hub } (.finished none)
  | .folded seed sid => s.install key sw seed sid first
  | .installed sid => goto s (.seedBuilt sid (s.hub.seedMsg (some sid)))
  | .seedBuilt sid msg =>
    -- who views the session is read anew, the seed is not
    let viewers := s.hub.clients.filter fun c => c.key ≠ key ∧ c.focusedId = some sid
    goto s (.reseeding sid msg (viewers.map (·.key)))
  | .reseeding sid _ [] => goto s (.finished (some sid))
  | .reseeding sid msg (viewer :: viewers) =>
    goto { s with hub := s.hub.sendToClient viewer msg } (.reseeding sid msg viewers)
  | .finished sid => s.release key sid first

/-! ### The applier -/

/-- Take an operation off the queue. -/
def start (serde : Serde) (s : Server) (m : Moment) (answer : Answer) : HubOp → Server
  | .prompt key call => s.startPrompt key call
  | .switch key sw => { s with phase := .switching key sw .begin none }
  | .newSession key sw first => { s with phase := .switching key sw .begin (some first) }
  | .deltaFlush sid => { s with hub := s.hub.flushPending serde m.order sid }
  | .liveRefresh =>
    match answer with
    | .usages nowIso usages => { s with hub := s.hub.refreshUsage serde m nowIso usages }
    | _ => s
  | .detachSession key path =>
    -- the `sessionClosed` the driver emits reaches the hub like every event of it
    match sessionIdFromPath path with
    | some sid => { s with driver := { s.driver with warm := s.driver.warm.filter (· ≠ sid) } }
    | none =>
      { s with
        hub := s.hub.sendToClient key
          (.error ("could not resolve session id from path: " ++ path)) }

/-- The next section of the applier. -/
def tick (serde : Serde) (s : Server) (m : Moment) (answer : Answer) : Server :=
  match s.phase with
  | .idle =>
    match s.queue with
    | [] => s
    | op :: queue => start serde { s with queue := queue } m answer op
  | .prompting key call => s.tickPrompting key call answer
  | .switching key sw stage first => s.tickSwitch key sw stage first answer

/-! ### Steps -/

/-- What comes from outside the applier. -/
inductive Input where
  /-- The driver's event reaches the hub. -/
  | event (m : Moment) (ev : SessionDriverEvent)
  | connect (resume : Option ResumeToken)
  | disconnect (key : Nat)
  | receive (key : Nat) (msg : ClientMessage)
  /-- A flush timer fires. -/
  | timer (sid : SessionId)
  /-- The live-refresh timer fires. -/
  | liveTimer
  /-- The driver evicts a warm session; its `sessionClosed` is an event of its own. -/
  | evict (sid : SessionId)
  /-- `dispose_idle_warm`: the sessions without a turn in flight go, without an event. -/
  | disposeIdle (turnInFlight : SessionId → Bool)

/-- Take an input. -/
def input (serde : Serde) (s : Server) : Input → Server
  | .event m ev => { s with hub := s.hub.onEvent serde m ev }
  | .connect resume => { s with hub := s.hub.addClient resume }
  | .disconnect key => { s with hub := s.hub.removeClient key }
  | .receive key msg => s.receive key msg
  | .timer sid => s.enqueue (.deltaFlush sid)
  | .liveTimer => s.enqueue .liveRefresh
  | .evict sid => { s with driver := { s.driver with warm := s.driver.warm.filter (· ≠ sid) } }
  | .disposeIdle turnInFlight =>
    { s with driver := { s.driver with warm := s.driver.warm.filter turnInFlight } }

/-- A step of the server: the next section of the applier, or an input. -/
inductive Action where
  | tick (m : Moment) (answer : Answer)
  | input (i : Input)

/-- One step. -/
def step (serde : Serde) (s : Server) : Action → Server
  | .tick m answer => s.tick serde m answer
  | .input i => s.input serde i

/-- A run. -/
def run (serde : Serde) (s : Server) (acts : List Action) : Server := acts.foldl (step serde) s

/-- The server at boot. -/
def boot (deltaFlushMs nowMs : Nat) (defaultSeed : Option SwapSeed) : Server where
  hub := SessionHub.new deltaFlushMs nowMs defaultSeed
  queue := []
  phase := .idle
  driver := ⟨[], []⟩

end Server

end Pantoken
