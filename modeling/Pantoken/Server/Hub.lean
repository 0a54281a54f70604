import Pantoken.Server.Ledger
import Pantoken.Server.MetaSeed

/-!
# The session hub

The hub owns the journals, routes what enters them to the clients that view the
session, and holds what it must remember between messages.  Everything here runs under
the hub's lock, so each definition is one atomic step of the server.

A client's channel is the list of the messages sent on it and not yet transmitted.
Sends never block; a send into a full channel is lost, which is a step of the
surrounding system.

## Main definitions

* `ServerMessage`, `ClientConn`, `SessionHub` — the state.
* `SessionHub.ingestNow`, `SessionHub.ingest`, `SessionHub.flushPending`,
  `SessionHub.dropPending`, `SessionHub.onEvent` — the ingestion path.
* `SessionHub.seedMsg`, `SessionHub.addClient`, `SessionHub.removeClient`,
  `SessionHub.refreshUsage` — seeds, connections, the usage refresh.
* `SwapSeed` — the seed a driver returns for a session.
* `SessionHub.Frame` — what ingestion leaves alone.
-/

namespace Pantoken

/-! ### Messages and state -/

/-- `ServerMessage`, less the messages no modelled function reads. -/
inductive ServerMessage where
  | hello
  | seed (sessionId : Option SessionId) (epoch seq : Nat) (events : List SessionDriverEvent)
  | event (event : SessionDriverEvent) (epoch seq : Nat)
  | promptResult (result : PromptResult)
  | error (message : String)
  /-- An `error` whose text `classify_switch_error` makes of the driver's. -/
  | switchError (raw : String)

/-- What a reconnecting client last folded. -/
structure ResumeToken where
  sessionId : SessionId
  epoch : Nat
  seq : Nat

/-- The options of a new session. -/
structure NewSessionOpts where
  cwd : Option String
  worktree : Option Bool
  baseBranch : Option String
  model : Option String
  thinking : Option String
  facet : Option String
  permissionMonitor : Option PermissionMonitorMode

/-- The driver call a switch awaits. -/
inductive SwapCall where
  | openSession (path : String)
  | reloadSession (path : String)
  | branchFrom (entryId : String) (sessionId : Option SessionId)
  | newSession (opts : NewSessionOpts)

/-- The arguments of `switch_to`. -/
structure Switch where
  swap : SwapCall
  reseed : Bool
  retryOnRacedEvents : Bool

/-- `ClientConn` -/
structure ClientConn where
  key : Nat
  send : List ServerMessage
  focusedId : Option SessionId
  switchInFlight : Bool
  pendingSwitch : Option Switch

/-- `BufferedSwapEvent` -/
structure BufferedSwapEvent where
  atMs : Nat
  ev : SessionDriverEvent

/-- `SWAP_BUFFER_CAP` -/
def swapBufferCap : Nat := 256

/-- `SWAP_BUFFER_TTL_MS` -/
def swapBufferTtlMs : Nat := 5000

/-- `SessionHub` -/
structure SessionHub where
  deltaFlushMs : Nat
  journals : PMap SessionId SessionJournal
  pendingDeltas : PMap SessionId SessionDriverEvent
  swapBuffer : PMap SessionId (List BufferedSwapEvent)
  swapsInFlight : Nat
  defaultFocusId : Option SessionId
  prompts : PromptLedger
  clients : List ClientConn
  nextClientKey : Nat
  epochCounter : Nat

/-- What an ingested event meets: the order the hash maps are walked in, the clock, and
whether a runtime is there to host a flush timer. -/
structure Moment where
  order : HashOrder
  nowMs : Nat
  runtime : Bool

/-- A seed as the drivers build it: it is empty when the session could not be read, and
leads with the `sessionOpened` snapshot otherwise. -/
structure SwapSeed where
  events : List SessionDriverEvent
  opened : events = [] ∨ ∃ base snapshot rest, events = .sessionOpened base snapshot :: rest

namespace SessionHub

/-! ### Sending -/

/-- `try_send` on the channels of the clients that meet a condition. -/
def sendWhere (h : SessionHub) (p : ClientConn → Bool) (msg : ServerMessage) : SessionHub :=
  { h with
    clients := h.clients.map fun c => if p c then { c with send := c.send ++ [msg] } else c }

/-- `send_to_client` -/
def sendToClient (h : SessionHub) (key : Nat) (msg : ServerMessage) : SessionHub :=
  h.sendWhere (·.key = key) msg

/-- A send to every channel `clients_focused` returns. -/
def sendFocused (h : SessionHub) (sid : SessionId) (msg : ServerMessage) : SessionHub :=
  h.sendWhere (·.focusedId = some sid) msg

/-- The connection of a client. -/
def client (h : SessionHub) (key : Nat) : Option ClientConn := h.clients.find? (·.key = key)

/-- Change one connection. -/
def updateClient (h : SessionHub) (key : Nat) (f : ClientConn → ClientConn) : SessionHub :=
  { h with clients := h.clients.map fun c => if c.key = key then f c else c }

/-- `set_client_focus` -/
def setClientFocus (h : SessionHub) (key : Nat) (sid : SessionId) : SessionHub :=
  h.updateClient key fun c => { c with focusedId := some sid }

/-- `has_viewer` -/
def hasViewer (h : SessionHub) (sid : SessionId) : Bool :=
  h.clients.any (·.focusedId = some sid)

/-! ### Journals and seeds -/

/-- `has_journal` -/
def hasJournal (h : SessionHub) (sid : SessionId) : Bool := (h.journals sid).isSome

/-- `set_journal` -/
def setJournal (h : SessionHub) (sid : SessionId) (j : SessionJournal) : SessionHub :=
  { h with journals := h.journals.insert sid j }

/-- `seed_of` -/
def seedOf (h : SessionHub) (sid : Option SessionId) :
    Option (Nat × Nat × List SessionDriverEvent) :=
  (sid.bind h.journals).map buildSeed

/-- `seed_msg`: a session without a journal gets an empty seed of epoch zero. -/
def seedMsg (h : SessionHub) (sid : Option SessionId) : ServerMessage :=
  match h.seedOf sid with
  | some (epoch, seq, events) => .seed sid epoch seq events
  | none => .seed sid 0 0 []

/-- `next_epoch`, which increments before it returns: the epoch is the new counter. -/
def nextEpoch (h : SessionHub) : SessionHub := { h with epochCounter := h.epochCounter + 1 }

/-- Start a journal from a seed, under a new epoch. -/
def startJournal (h : SessionHub) (sid : SessionId) (seed : List SessionDriverEvent) :
    SessionHub :=
  let h := h.nextEpoch
  h.setJournal sid (createJournal h.epochCounter seed)

/-! ### Ingestion -/

section Ingest

variable (serde : Serde)

/-- `ingest_now`: stamp the journal and route to the viewers.  A `sessionReset` restarts
the journal and ships the fresh seed instead. -/
def ingestNow (h : SessionHub) (order : HashOrder) (ev : SessionDriverEvent) : SessionHub :=
  match h.journals ev.sid with
  | none => h
  | some j =>
    match ev with
    | .sessionReset _ =>
      let h := h.nextEpoch
      let h := h.setJournal ev.sid (resetJournal order j ev h.epochCounter)
      h.sendFocused ev.sid (h.seedMsg (some ev.sid))
    | ev =>
      let j := appendEvent serde j ev
      (h.setJournal ev.sid j).sendFocused ev.sid (.event ev j.epoch j.seq)

/-- `flush_pending` -/
def flushPending (h : SessionHub) (order : HashOrder) (sid : SessionId) : SessionHub :=
  match h.pendingDeltas sid with
  | some pending =>
    ({ h with pendingDeltas := h.pendingDeltas.erase sid }).ingestNow serde order pending
  | none => h

/-- `drop_pending` -/
def dropPending (h : SessionHub) (sid : SessionId) : SessionHub :=
  { h with pendingDeltas := h.pendingDeltas.erase sid }

/-- The end of `ingest`: a new pending run, whose timer needs a runtime. -/
def startPending (h : SessionHub) (m : Moment) (ev : SessionDriverEvent) : SessionHub :=
  if m.runtime then { h with pendingDeltas := h.pendingDeltas.insert ev.sid ev }
  else h.ingestNow serde m.order ev

/-- `assistantDelta`, the type that is buffered. -/
def isDelta : SessionDriverEvent → Bool
  | .assistantDelta .. => true
  | _ => false

/-- `ingest` -/
def ingest (h : SessionHub) (m : Moment) (ev : SessionDriverEvent) : SessionHub :=
  if h.deltaFlushMs = 0 ∨ h.hasJournal ev.sid = false then h.ingestNow serde m.order ev
  else if isDelta ev = false then
    -- the held run goes first, so that the order is kept
    (h.flushPending serde m.order ev.sid).ingestNow serde m.order ev
  else
    match h.pendingDeltas ev.sid with
    | some pending =>
      match tryMerge pending ev with
      | some merged => { h with pendingDeltas := h.pendingDeltas.insert ev.sid merged }
      -- a switch of the channel
      | none => (h.flushPending serde m.order ev.sid).startPending serde m ev
    | none => h.startPending serde m ev

/-- `buffer_swap_event` -/
def bufferSwapEvent (h : SessionHub) (now : Nat) (ev : SessionDriverEvent) : SessionHub :=
  let stale (list : List BufferedSwapEvent) : Bool :=
    list.all fun f => now - f.atMs > swapBufferTtlMs
  let buffer : PMap SessionId (List BufferedSwapEvent) := fun sid =>
    (h.swapBuffer sid).filter (!stale ·)
  let list := (buffer ev.sid).getD []
  let list := if list.length < swapBufferCap then list ++ [⟨now, ev⟩] else list
  { h with swapBuffer := buffer.insert ev.sid list }

/-- `take_swap_buffer`, which nothing calls. -/
def takeSwapBuffer (h : SessionHub) (now since : Nat) (sid : SessionId) :
    List SessionDriverEvent × SessionHub :=
  let list := (h.swapBuffer sid).getD []
  ((list.filter fun f => now - f.atMs ≤ swapBufferTtlMs ∧ f.atMs ≥ since).map (·.ev),
    { h with swapBuffer := h.swapBuffer.erase sid })

/-- A `sessionClosed` drops the journal once nobody views the session. -/
def closeJournal (h : SessionHub) (ev : SessionDriverEvent) : SessionHub :=
  match ev with
  | .sessionClosed .. =>
    if h.defaultFocusId ≠ some ev.sid ∧ h.hasViewer ev.sid = false then
      let h := h.dropPending ev.sid
      { h with journals := h.journals.erase ev.sid }
    else h
  | _ => h

/-- `on_event` -/
def onEvent (h : SessionHub) (m : Moment) (ev : SessionDriverEvent) : SessionHub :=
  let h :=
    if h.swapsInFlight > 0 ∧ h.hasJournal ev.sid = false then h.bufferSwapEvent m.nowMs ev else h
  (h.ingest serde m ev).closeJournal ev

/-- The event `refresh_usage` ingests for one journal. -/
def usageEvent (j : SessionJournal) (sid : SessionId) (nowIso : String) (usage : SessionUsage) :
    SessionDriverEvent :=
  .usageUpdated ⟨j.sessionRef.getD ⟨sid, sid⟩, nowIso, none⟩ usage

/-- `refresh_usage`: the sessions whose usage the driver reports anew, each with a journal. -/
def refreshUsage (h : SessionHub) (m : Moment) (nowIso : String)
    (usages : List (SessionId × SessionUsage)) : SessionHub :=
  usages.foldl
    (fun h u =>
      match h.journals u.1 with
      | some j => h.ingest serde m (usageEvent j u.1 nowIso u.2)
      | none => h)
    h

end Ingest

/-! ### Connections -/

/-- Whether a resume token matches the journal of its session. -/
def resumes (h : SessionHub) (r : ResumeToken) : Bool :=
  match h.journals r.sessionId with
  | some j => j.epoch = r.epoch ∧ tailCovers j r.seq
  | none => false

/-- The tail a resuming client missed. -/
def replay (j : SessionJournal) (seq : Nat) : List ServerMessage :=
  (j.tail.filter (fun f => seq < f.seq)).map fun f => .event f.ev j.epoch f.seq

/-- What a new connection is sent after the hello: the missed tail, or a seed. -/
def greeting (h : SessionHub) (focusedId : Option SessionId) : Option ResumeToken →
    List ServerMessage
  | some r =>
    match h.journals r.sessionId with
    | some j => if h.resumes r then replay j r.seq else [h.seedMsg (some r.sessionId)]
    | none => [h.seedMsg focusedId]
  | none => [h.seedMsg focusedId]

/-- `add_client` -/
def addClient (h : SessionHub) (resume : Option ResumeToken) : SessionHub :=
  let focusedId :=
    match resume with
    | some r => if h.resumes r then some r.sessionId else h.defaultFocusId
    | none => h.defaultFocusId
  { h with
    clients := h.clients ++
      [⟨h.nextClientKey, .hello :: h.greeting focusedId resume, focusedId, false, none⟩]
    nextClientKey := h.nextClientKey + 1 }

/-- `remove_client` -/
def removeClient (h : SessionHub) (key : Nat) : SessionHub :=
  { h with clients := h.clients.filter (·.key ≠ key) }

/-- The session id of a seed, as `fold_swap_seed` learns it. -/
def seedSid (seed : List SessionDriverEvent) : Option SessionId :=
  match (foldAll seed).sessionRef with
  | some r => some r.sessionId
  | none => seed.head?.map (·.sid)

/-- `seed_default` -/
def seedDefault (h : SessionHub) : Option SwapSeed → SessionHub
  | none => h
  | some seed =>
    match seed.events with
    | [] => h
    | ev :: evs =>
      { h.startJournal ev.sid (ev :: evs) with
        defaultFocusId := some ev.sid }

/-- `SessionHub::new`, whose epoch counter starts at the clock. -/
def new (deltaFlushMs nowMs : Nat) (defaultSeed : Option SwapSeed) : SessionHub :=
  SessionHub.seedDefault
    { deltaFlushMs := deltaFlushMs
      journals := .empty
      pendingDeltas := .empty
      swapBuffer := .empty
      swapsInFlight := 0
      defaultFocusId := none
      prompts := .empty
      clients := []
      nextClientKey := 0
      epochCounter := nowMs }
    defaultSeed

end SessionHub

/-! ### What ingestion leaves alone -/

/-- From one hub to the other only journals, buffers, epochs and channels differ. -/
structure SessionHub.Frame (h h' : SessionHub) : Prop where
  deltaFlushMs : h'.deltaFlushMs = h.deltaFlushMs
  swapsInFlight : h'.swapsInFlight = h.swapsInFlight
  defaultFocusId : h'.defaultFocusId = h.defaultFocusId
  prompts : h'.prompts = h.prompts
  nextClientKey : h'.nextClientKey = h.nextClientKey

section Frame

variable {serde : Serde} {h : SessionHub}

theorem SessionHub.Frame.refl (h : SessionHub) : h.Frame h := ⟨rfl, rfl, rfl, rfl, rfl⟩

theorem SessionHub.Frame.trans {h' h'' : SessionHub} (hf : h.Frame h') (hf' : h'.Frame h'') :
    h.Frame h'' where
  deltaFlushMs := hf'.deltaFlushMs.trans hf.deltaFlushMs
  swapsInFlight := hf'.swapsInFlight.trans hf.swapsInFlight
  defaultFocusId := hf'.defaultFocusId.trans hf.defaultFocusId
  prompts := hf'.prompts.trans hf.prompts
  nextClientKey := hf'.nextClientKey.trans hf.nextClientKey

theorem frame_ingestNow (order : HashOrder) (ev : SessionDriverEvent) :
    h.Frame (h.ingestNow serde order ev) := by
  unfold SessionHub.ingestNow
  cases h.journals ev.sid with
  | none => exact .refl h
  | some j => cases ev <;> exact ⟨rfl, rfl, rfl, rfl, rfl⟩

theorem frame_dropPending (sid : SessionId) : h.Frame (h.dropPending sid) :=
  ⟨rfl, rfl, rfl, rfl, rfl⟩

theorem frame_flushPending (order : HashOrder) (sid : SessionId) :
    h.Frame (h.flushPending serde order sid) := by
  unfold SessionHub.flushPending
  split
  · exact (frame_dropPending sid).trans (frame_ingestNow order _)
  · exact .refl h

theorem frame_startPending (m : Moment) (ev : SessionDriverEvent) :
    h.Frame (h.startPending serde m ev) := by
  unfold SessionHub.startPending
  split
  · exact ⟨rfl, rfl, rfl, rfl, rfl⟩
  · exact frame_ingestNow m.order ev

theorem frame_ingest (m : Moment) (ev : SessionDriverEvent) : h.Frame (h.ingest serde m ev) := by
  have hflush := @frame_flushPending serde h m.order ev.sid
  unfold SessionHub.ingest
  split
  · exact frame_ingestNow m.order ev
  · split
    · exact hflush.trans (frame_ingestNow m.order ev)
    · split
      · split
        · exact ⟨rfl, rfl, rfl, rfl, rfl⟩
        · exact hflush.trans (frame_startPending m ev)
      · exact frame_startPending m ev

theorem frame_closeJournal (ev : SessionDriverEvent) : h.Frame (h.closeJournal ev) := by
  unfold SessionHub.closeJournal
  split
  · split
    · exact ⟨rfl, rfl, rfl, rfl, rfl⟩
    · exact .refl h
  · exact .refl h

theorem frame_onEvent (m : Moment) (ev : SessionDriverEvent) : h.Frame (h.onEvent serde m ev) := by
  have hbuf : h.Frame (if h.swapsInFlight > 0 ∧ h.hasJournal ev.sid = false then
      h.bufferSwapEvent m.nowMs ev else h) := by
    split <;> exact ⟨rfl, rfl, rfl, rfl, rfl⟩
  exact hbuf.trans ((frame_ingest m ev).trans (frame_closeJournal ev))

theorem frame_refreshUsage (m : Moment) (nowIso : String)
    (usages : List (SessionId × SessionUsage)) :
    h.Frame (h.refreshUsage serde m nowIso usages) := by
  unfold SessionHub.refreshUsage
  refine List.foldlRecOn (motive := h.Frame) usages _ (.refl h) fun h' hf u _ => ?_
  split
  · exact hf.trans (frame_ingest m _)
  · exact hf

end Frame

end Pantoken
