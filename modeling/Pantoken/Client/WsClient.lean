import Mathlib.Data.List.Basic
import Pantoken.Lib.Run

/-!
# The WebSocket client and its timers

`WsClient` keeps one current socket, a reconnect timer, a watchdog for the handshake and
a heartbeat with a watchdog of its own.  The page around it owns the sockets it ever
created, the timers that are still to fire and its visibility.

## Main definitions

* `WsClient` — the fields of the client.
* `Page` — the client with the sockets, timers and visibility of its page.
* `Page.step` — one call, socket event, timer or wake signal.
* `Page.Guarded` — left to its own timers and a silent server, the client schedules a
  reconnect.
* `Page.Keeps` — the steps that leave a page the user wants connected guarded.

## Main results

* `superseded_changes_nothing` — an event of a socket that is not the current one changes
  nothing but that socket.
* `guarded_iff_armed` — what has to be armed for the client to be guarded.
* `never_wedges_iff` — **every state of a run is guarded exactly when its steps keep it so**.
* `wedged_between_open_and_hello` — a socket that opens and stays silent is not guarded.
-/

namespace Pantoken

/-! ### The client and its page -/

inductive ConnectionState
  | disconnected | connecting | connected | reconnecting
  deriving DecidableEq, Repr

/-- The `readyState` of a socket. -/
inductive ReadyState
  | connecting | opened | closing | closed
  deriving DecidableEq, Repr

/-- A socket of the page; `handlers` says whether the client's four handlers are set. -/
structure PageSocket where
  readyState : ReadyState
  handlers : Bool
  deriving DecidableEq, Repr

/-- What the closure of a heartbeat watchdog holds. -/
structure Probe where
  armedSocket : Nat
  sentAt : Nat
  deriving DecidableEq, Repr

/-- The fields of the client.  A socket is named by its position among those the page
created, a reconnect timer by its number. -/
structure WsClient where
  state : ConnectionState := .disconnected
  reconnectAttempt : Nat := 0
  ws : Option Nat := none
  reconnectTimer : Option Nat := none
  connectWatchdog : Option Nat := none
  heartbeatInterval : Bool := false
  heartbeatWatchdog : Option Probe := none
  lastInboundAt : Nat := 0
  intentionalClose : Bool := false
  deriving DecidableEq, Repr

/-- A frame as the client takes it: the hello, the error that refuses the token, any
other message, or bytes `parseServerMessage` gives nothing for. -/
inductive Inbound
  | hello | unauthorized | other | unparsed
  deriving DecidableEq, Repr

inductive Outgoing
  | hello | ping
  deriving DecidableEq, Repr

/-- The client with what the browser keeps for it. -/
structure Page where
  client : WsClient := {}
  hidden : Bool := false
  sockets : List PageSocket := []
  /-- the reconnect timers still to fire -/
  timers : List Nat := []
  nextTimer : Nat := 0
  sent : List (Nat × Outgoing) := []
  /-- the messages the listeners were called with -/
  heard : List Inbound := []
  deriving DecidableEq, Repr

namespace Page

/-- The `readyState` of a socket of the page. -/
def readyState (p : Page) (id : Nat) : Option ReadyState := p.sockets[id]?.map (·.readyState)

/-- The `readyState` of the current socket. -/
def current (p : Page) : Option ReadyState := p.client.ws.bind p.readyState

def setReadyState (p : Page) (id : Nat) (r : ReadyState) : Page :=
  { p with sockets := p.sockets.modify id ({ · with readyState := r }) }

/-- `socket.close()`. -/
def close (p : Page) (id : Nat) : Page :=
  if p.readyState id = some .connecting ∨ p.readyState id = some .opened then
    p.setReadyState id .closing
  else p

/-! ### Timers and sockets -/

def clearReconnectTimer (p : Page) : Page :=
  match p.client.reconnectTimer with
  | none => p
  | some t =>
    { p with
      client := { p.client with reconnectTimer := none }
      timers := p.timers.filter (· ≠ t) }

/-- The new timer takes the handle, whatever timer had it. -/
def scheduleReconnect (p : Page) : Page :=
  if p.client.intentionalClose then p
  else
    { p with
      client := { p.client with
        state := .reconnecting
        reconnectAttempt := p.client.reconnectAttempt + 1
        reconnectTimer := some p.nextTimer }
      timers := p.timers ++ [p.nextTimer]
      nextTimer := p.nextTimer + 1 }

def stopHeartbeat (p : Page) : Page :=
  { p with client := { p.client with heartbeatInterval := false, heartbeatWatchdog := none } }

def startHeartbeat (p : Page) (now : Nat) : Page :=
  { p.stopHeartbeat with
    client := { p.stopHeartbeat.client with lastInboundAt := now, heartbeatInterval := true } }

def cleanupSocket (p : Page) : Page :=
  let p := { p with client := { p.client with connectWatchdog := none } }.stopHeartbeat
  match p.client.ws with
  | none => p
  | some id =>
    { p with
      client := { p.client with ws := none }
      sockets := p.sockets.modify id ({ · with handlers := false }) }

/-- `const closing = this.ws; this.cleanupSocket(); closing.close()`. -/
def discard (p : Page) : Page :=
  match p.client.ws with
  | none => p
  | some closing => p.cleanupSocket.close closing

def send (p : Page) (msg : Outgoing) : Page :=
  match p.client.ws with
  | none => p
  | some id =>
    if p.readyState id = some .opened then { p with sent := p.sent ++ [(id, msg)] } else p

def doConnect (dev : Bool) (p : Page) : Page :=
  if p.current = some .opened ∨ p.current = some .connecting then p
  else
    let p := p.cleanupSocket
    if dev = false ∧ p.hidden = true then p
    else
      { p with
        client := { p.client with
          state := if p.client.reconnectAttempt = 0 then .connecting else .reconnecting
          ws := some p.sockets.length
          connectWatchdog := some p.sockets.length }
        sockets := p.sockets ++ [⟨.connecting, true⟩] }

def probeLiveness (p : Page) (now : Nat) : Page :=
  match p.client.ws with
  | none => p
  | some armedSocket =>
    if p.readyState armedSocket = some .opened then
      let p := p.send .ping
      { p with client := { p.client with heartbeatWatchdog := some ⟨armedSocket, now⟩ } }
    else p

/-! ### The calls -/

def connect (dev : Bool) (p : Page) : Page :=
  doConnect dev
    { p with client := { p.client with intentionalClose := false, reconnectAttempt := 0 } }

def forceReconnect (dev : Bool) (p : Page) : Page :=
  let p := { p with client := { p.client with intentionalClose := false, reconnectAttempt := 0 } }
  doConnect dev p.clearReconnectTimer.discard

def disconnect (p : Page) : Page :=
  let p := { p with client := { p.client with intentionalClose := true } }
  let p := p.clearReconnectTimer.discard
  { p with client := { p.client with state := .disconnected } }

def handleWake (dev : Bool) (p : Page) (now : Nat) : Page :=
  if p.client.intentionalClose then p
  else if p.client.state ≠ .connected then p.forceReconnect dev
  else p.probeLiveness now

def handleVisibilityChange (dev : Bool) (p : Page) (now : Nat) : Page :=
  if p.hidden then p.clearReconnectTimer else p.handleWake dev now

/-! ### The handlers of a socket -/

def onopen (p : Page) : Page :=
  { p with client := { p.client with connectWatchdog := none, reconnectAttempt := 0 } }.send .hello

/-- The listeners are the store's; of what they do, only the `disconnect()` after a
refused token comes back to the client. -/
def callListeners (p : Page) (msg : Inbound) : Page :=
  let p := { p with heard := p.heard ++ [msg] }
  if msg = .unauthorized then p.disconnect else p

def onmessage (p : Page) (msg : Inbound) (now : Nat) : Page :=
  let p := { p with client := { p.client with lastInboundAt := now } }
  match msg with
  | .unparsed => p
  | .hello =>
    ({ p with client := { p.client with state := .connected } }.startHeartbeat now).callListeners
      .hello
  | msg => p.callListeners msg

def onclose (p : Page) : Page :=
  let p := p.cleanupSocket
  if p.client.intentionalClose then { p with client := { p.client with state := .disconnected } }
  else p.scheduleReconnect

/-! ### Steps -/

/-- What happens to a socket: it opens, a frame comes in, the server starts to close it,
or it is closed.  An `error` event is only logged. -/
inductive SocketEvent
  | opened
  | message (msg : Inbound) (now : Nat)
  | closing
  | error
  | closed
  deriving DecidableEq, Repr

/-- The browser changes the socket and calls the handler that is set.  It opens only a
connecting socket and hands frames over only from an open one. -/
def onSocket (p : Page) (id : Nat) (ev : SocketEvent) : Page :=
  match p.sockets[id]? with
  | none => p
  | some s =>
    match ev with
    | .opened =>
      if s.readyState = .connecting then
        let p := p.setReadyState id .opened
        if s.handlers then p.onopen else p
      else p
    | .message msg now =>
      if s.readyState = .opened ∧ s.handlers = true then p.onmessage msg now else p
    | .closing => if s.readyState = .opened then p.setReadyState id .closing else p
    | .error => p
    | .closed =>
      if s.readyState = .closed then p
      else
        let p := p.setReadyState id .closed
        if s.handlers then p.onclose else p

/-- A timer, a call, or something that happens to the page. -/
inductive Event
  | connect
  | forceReconnect
  | disconnect
  | socket (id : Nat) (ev : SocketEvent)
  | reconnectTimer (timer : Nat)
  | connectWatchdog
  | heartbeatInterval (now : Nat)
  | heartbeatWatchdog
  | visibilitychange (hidden : Bool) (now : Nat)
  | pageshow (hidden : Bool) (now : Nat)
  | online (now : Nat)
  deriving DecidableEq, Repr

/-- The reconnect timer forgets the handle, whichever timer it names by now. -/
def onReconnectTimer (dev : Bool) (p : Page) (timer : Nat) : Page :=
  if timer ∈ p.timers then
    doConnect dev
      { p with
        client := { p.client with reconnectTimer := none }
        timers := p.timers.filter (· ≠ timer) }
  else p

def onConnectWatchdog (p : Page) : Page :=
  match p.client.connectWatchdog with
  | none => p
  | some armed =>
    let p := { p with client := { p.client with connectWatchdog := none } }
    if p.client.ws ≠ some armed ∨ p.readyState armed ≠ some .connecting then p
    else (p.cleanupSocket.close armed).scheduleReconnect

def onHeartbeatInterval (p : Page) (now : Nat) : Page :=
  if p.client.heartbeatInterval = true ∧ p.hidden = false then p.probeLiveness now else p

def onHeartbeatWatchdog (p : Page) : Page :=
  match p.client.heartbeatWatchdog with
  | none => p
  | some ⟨armedSocket, sentAt⟩ =>
    let p := { p with client := { p.client with heartbeatWatchdog := none } }
    if p.client.ws ≠ some armedSocket then p
    else if sentAt ≤ p.client.lastInboundAt then p
    else (p.cleanupSocket.close armedSocket).scheduleReconnect

/-- One event.  A timer that is not armed does not fire. -/
def step (dev : Bool) (p : Page) : Event → Page
  | .connect => p.connect dev
  | .forceReconnect => p.forceReconnect dev
  | .disconnect => p.disconnect
  | .socket id ev => p.onSocket id ev
  | .reconnectTimer timer => p.onReconnectTimer dev timer
  | .connectWatchdog => p.onConnectWatchdog
  | .heartbeatInterval now => p.onHeartbeatInterval now
  | .heartbeatWatchdog => p.onHeartbeatWatchdog
  | .visibilitychange hidden now => handleVisibilityChange dev { p with hidden } now
  | .pageshow hidden now => handleWake dev { p with hidden } now
  | .online now => p.handleWake dev now

/-- A client just constructed on a page, and connected. -/
def boot (dev hidden : Bool) : Page := connect dev { hidden }

/-! ### Guarded -/

/-- A ping is under way that nothing came in after. -/
def unanswered (p : Page) : Bool :=
  p.client.heartbeatWatchdog.any (p.client.lastInboundAt < ·.sentAt)

/-- The user has not closed the connection, the token was not refused, and the page shows. -/
def Relevant (p : Page) : Prop := p.client.intentionalClose = false ∧ p.hidden = false

/-- A reconnect timer is pending, or one of the client's own timers leads to one if the
server stays silent: the handshake watchdog, the watchdog of a ping, or the next tick of
the heartbeat and the watchdog it arms. -/
def Guarded (dev : Bool) (p : Page) : Prop :=
  p.timers ≠ [] ∨
  (p.client.connectWatchdog.isSome = true ∧ (p.step dev .connectWatchdog).timers ≠ []) ∨
  (p.client.heartbeatWatchdog.isSome = true ∧ (p.step dev .heartbeatWatchdog).timers ≠ []) ∨
  (p.client.heartbeatInterval = true ∧ ∀ now, p.client.lastInboundAt < now →
    ((p.step dev (.heartbeatInterval now)).step dev .heartbeatWatchdog).timers ≠ [])

/-- An event of a socket that is not the current one changes nothing but that socket. -/
def SupersededIgnored (dev : Bool) (p : Page) : Prop :=
  ∀ id ev, p.client.ws ≠ some id →
    ∃ f, p.step dev (.socket id ev) = { p with sockets := p.sockets.modify id f }

/-- The client is guarded when it has to be, and superseded sockets have no say. -/
def NotWedged (dev : Bool) (p : Page) : Prop :=
  (p.Relevant → p.Guarded dev) ∧ p.SupersededIgnored dev

/-- What is armed when the client is guarded. -/
def Armed (p : Page) : Prop :=
  p.timers ≠ [] ∨ p.current = some .connecting ∨
    (p.current = some .opened ∧ p.client.heartbeatInterval = true) ∨ p.unanswered = true

instance (p : Page) : Decidable p.Relevant := inferInstanceAs (Decidable (_ ∧ _))

instance (p : Page) : Decidable p.Armed := inferInstanceAs (Decidable (_ ∨ _ ∨ _ ∨ _))

/-- The steps that leave a guarded client guarded.  A socket may open on a visible page,
and its server start to close it, only while something else is armed; the last timer must
not find an open socket without a heartbeat; and a page that is shown again must not find
the client `connected` without an open socket. -/
def Keeps (p : Page) : Event → Prop
  | .connect => p.hidden = false → p.current = some .opened → p.Armed
  | .socket id .opened =>
    p.Relevant → p.client.ws = some id → p.readyState id = some .connecting → p.timers ≠ []
  | .socket id .closing =>
    p.Relevant → p.client.ws = some id → p.readyState id = some .opened →
      p.timers ≠ [] ∨ p.unanswered = true
  | .reconnectTimer timer =>
    p.Relevant → timer ∈ p.timers → p.current = some .opened →
      p.timers.filter (· ≠ timer) ≠ [] ∨ p.client.heartbeatInterval = true
  | .visibilitychange hidden _ | .pageshow hidden _ =>
    hidden = false → p.client.intentionalClose = false → p.client.state = .connected →
      p.timers ≠ [] ∨ p.current = some .opened ∨ p.unanswered = true
  | _ => True

/-! ### The sockets and the fields that name them -/

/-- The handlers set are those of the current socket. -/
def Handled (p : Page) : Prop :=
  ∀ (id : Nat) (s : PageSocket), p.sockets[id]? = some s →
    (s.handlers = true ↔ p.client.ws = some id)

/-- The handlers are those of the current socket, which is not closed; the handshake
watchdog guards it while it connects; the heartbeat beats while the client is connected. -/
structure Coherent (p : Page) : Prop where
  handled : p.Handled
  live : ∀ id, p.client.ws = some id → ∃ r, p.readyState id = some r ∧ r ≠ .closed
  watchdog : ∀ id, p.client.connectWatchdog = some id ↔
    p.client.ws = some id ∧ p.readyState id = some .connecting
  beating : p.client.heartbeatInterval = true ↔
    p.client.ws.isSome = true ∧ p.client.state = .connected
  greeted : p.client.heartbeatInterval = true → p.current ≠ some .connecting
  probing : ∀ pr, p.client.heartbeatWatchdog = some pr →
    p.client.ws = some pr.armedSocket ∧ p.client.heartbeatInterval = true

/-- The client has no socket, and so no handler and no guard of one. -/
structure Bare (p : Page) : Prop where
  unhandled : ∀ (id : Nat) (s : PageSocket), p.sockets[id]? = some s → s.handlers = false
  ws : p.client.ws = none
  connectWatchdog : p.client.connectWatchdog = none
  heartbeatInterval : p.client.heartbeatInterval = false
  heartbeatWatchdog : p.client.heartbeatWatchdog = none

section Blocks

variable {dev : Bool} {p : Page} {id : Nat}

theorem Bare.current (h : p.Bare) : p.current = none := by
  rw [Page.current, h.ws, Option.bind_none]

theorem Bare.coherent (h : p.Bare) : p.Coherent where
  handled id s hs := by simp [h.unhandled id s hs, h.ws]
  live id hid := by simp [h.ws] at hid
  watchdog id := by simp [h.ws, h.connectWatchdog]
  beating := by simp [h.ws, h.heartbeatInterval]
  greeted hb := by simp [h.heartbeatInterval] at hb
  probing pr hpr := by simp [h.heartbeatWatchdog] at hpr

/-- What `cleanupSocket` leaves. -/
theorem Handled.bare_cleanupSocket (h : p.Handled) : p.cleanupSocket.Bare := by
  cases hws : p.client.ws with
  | none =>
    have heq : p.cleanupSocket =
        { p with client := { p.client with connectWatchdog := none } }.stopHeartbeat := by
      simp [cleanupSocket, stopHeartbeat, hws]
    rw [heq]
    refine ⟨?_, hws, rfl, rfl, rfl⟩
    intro id s hs
    have := h id s hs
    simpa [hws] using this
  | some cur =>
    have heq : p.cleanupSocket =
        { p with
          client := { p.client with
            connectWatchdog := none, heartbeatInterval := false, heartbeatWatchdog := none
            ws := none }
          sockets := p.sockets.modify cur ({ · with handlers := false }) } := by
      simp [cleanupSocket, stopHeartbeat, hws]
    rw [heq]
    refine ⟨?_, rfl, rfl, rfl, rfl⟩
    intro id s hs
    rw [List.getElem?_modify] at hs
    obtain ⟨t, ht, rfl⟩ := Option.map_eq_some_iff.mp hs
    have hhandled := h id t ht
    split
    · rfl
    · rename_i hne
      have hcur : p.client.ws ≠ some id := by simpa [hws] using hne
      simpa [hcur] using hhandled

@[simp] theorem cleanupSocket_timers : p.cleanupSocket.timers = p.timers := by
  unfold cleanupSocket stopHeartbeat
  dsimp only
  split <;> rfl

@[simp] theorem cleanupSocket_hidden : p.cleanupSocket.hidden = p.hidden := by
  unfold cleanupSocket stopHeartbeat
  dsimp only
  split <;> rfl

@[simp] theorem cleanupSocket_intentionalClose :
    p.cleanupSocket.client.intentionalClose = p.client.intentionalClose := by
  unfold cleanupSocket stopHeartbeat
  dsimp only
  split <;> rfl

@[simp] theorem close_client : (p.close id).client = p.client := by
  unfold close setReadyState
  split <;> rfl

@[simp] theorem close_hidden : (p.close id).hidden = p.hidden := by
  unfold close setReadyState
  split <;> rfl

theorem getElem?_setReadyState (j : Nat) (r : ReadyState) :
    (p.setReadyState id r).sockets[j]? =
      (p.sockets[j]?).map fun s => if id = j then { s with readyState := r } else s := by
  rw [setReadyState, List.getElem?_modify]
  cases p.sockets[j]? with
  | none => rfl
  | some s => split <;> rfl

theorem readyState_setReadyState_of_ne {j : Nat} (hne : id ≠ j) (r : ReadyState) :
    (p.setReadyState id r).readyState j = p.readyState j := by
  rw [readyState, getElem?_setReadyState, readyState]
  cases p.sockets[j]? with
  | none => rfl
  | some s => simp [hne]

theorem readyState_setReadyState_self {s : PageSocket} (hs : p.sockets[id]? = some s)
    (r : ReadyState) : (p.setReadyState id r).readyState id = some r := by
  rw [readyState, getElem?_setReadyState, hs]
  simp

theorem Bare.close (h : p.Bare) : (p.close id).Bare := by
  refine ⟨?_, ?_, ?_, ?_, ?_⟩
  · intro j s hs
    unfold Page.close at hs
    split at hs
    · rw [getElem?_setReadyState] at hs
      obtain ⟨t, ht, rfl⟩ := Option.map_eq_some_iff.mp hs
      have hun := h.unhandled j t ht
      split <;> exact hun
    · exact h.unhandled j s hs
  · rw [close_client, h.ws]
  · rw [close_client, h.connectWatchdog]
  · rw [close_client, h.heartbeatInterval]
  · rw [close_client, h.heartbeatWatchdog]

theorem Bare.scheduleReconnect (h : p.Bare) : p.scheduleReconnect.Bare := by
  unfold Page.scheduleReconnect
  split
  · exact h
  · exact ⟨h.unhandled, h.ws, h.connectWatchdog, h.heartbeatInterval, h.heartbeatWatchdog⟩

@[simp] theorem clearReconnectTimer_hidden : p.clearReconnectTimer.hidden = p.hidden := by
  unfold clearReconnectTimer
  split <;> rfl

theorem Coherent.clearReconnectTimer (h : p.Coherent) : p.clearReconnectTimer.Coherent := by
  unfold Page.clearReconnectTimer
  split
  · exact h
  · exact ⟨h.handled, h.live, h.watchdog, h.beating, h.greeted, h.probing⟩

/-- The call that starts over keeps the sockets. -/
theorem Coherent.wanted (h : p.Coherent) (b : Bool) (n : Nat) :
    Coherent { p with
      client := { p.client with intentionalClose := b, reconnectAttempt := n } } :=
  ⟨h.handled, h.live, h.watchdog, h.beating, h.greeted, h.probing⟩

theorem Coherent.bare_of_ws_none (h : p.Coherent) (hws : p.client.ws = none) : p.Bare where
  unhandled id s hs := by
    have := h.handled id s hs
    simpa [hws] using this
  ws := hws
  connectWatchdog := by
    cases hw : p.client.connectWatchdog with
    | none => rfl
    | some id =>
      have := ((h.watchdog id).mp hw).1
      simp [hws] at this
  heartbeatInterval := by
    cases hb : p.client.heartbeatInterval with
    | false => rfl
    | true =>
      have := (h.beating.mp hb).1
      simp [hws] at this
  heartbeatWatchdog := by
    cases hp : p.client.heartbeatWatchdog with
    | none => rfl
    | some pr =>
      have := (h.probing pr hp).1
      simp [hws] at this

theorem Coherent.bare_discard (h : p.Coherent) : p.discard.Bare := by
  unfold discard
  split
  · rename_i hws
    exact h.bare_of_ws_none hws
  · exact h.handled.bare_cleanupSocket.close

@[simp] theorem discard_hidden : p.discard.hidden = p.hidden := by
  unfold discard
  split
  · rfl
  · rw [close_hidden, cleanupSocket_hidden]

/-! ### Connecting -/

/-- The page after `new WebSocket(url)`. -/
theorem Bare.coherent_new (h : p.Bare) (state : ConnectionState) (hstate : state ≠ .connected) :
    Coherent { p with
      client := { p.client with
        state
        ws := some p.sockets.length
        connectWatchdog := some p.sockets.length }
      sockets := p.sockets ++ [⟨.connecting, true⟩] } where
  handled id s hs := by
    rcases Nat.lt_trichotomy id p.sockets.length with hlt | heq | hgt
    · rw [List.getElem?_append_left hlt] at hs
      have hun := h.unhandled id s hs
      simp [hun]
      omega
    · subst heq
      simp at hs
      simp [← hs]
    · have hnone : (p.sockets ++ [⟨.connecting, true⟩])[id]? = none := by
        rw [List.getElem?_eq_none_iff, List.length_append, List.length_singleton]
        omega
      rw [hnone] at hs
      cases hs
  live id hid := by
    obtain rfl : p.sockets.length = id := by simpa using hid
    exact ⟨.connecting, by simp [readyState], by decide⟩
  watchdog id := by
    constructor
    · intro hid
      obtain rfl : p.sockets.length = id := by simpa using hid
      exact ⟨rfl, by simp [readyState]⟩
    · intro hid
      exact hid.1
  beating := by simp [h.heartbeatInterval, hstate]
  greeted hb := by simp [h.heartbeatInterval] at hb
  probing pr hpr := by simp [h.heartbeatWatchdog] at hpr

theorem Coherent.doConnect (h : p.Coherent) : (p.doConnect dev).Coherent := by
  unfold Page.doConnect
  split
  · exact h
  · dsimp only
    split
    · exact h.handled.bare_cleanupSocket.coherent
    · apply h.handled.bare_cleanupSocket.coherent_new
      split <;> decide

/-- A page whose client is guarded when it has to be. -/
def Good (p : Page) : Prop := p.Relevant → p.Armed

/-- `doConnect` leaves a socket that connects behind its watchdog, unless the page is
hidden or a socket is open already. -/
theorem good_doConnect :
    (p.doConnect dev).Good ↔ (p.Relevant → p.current = some .opened → p.Armed) := by
  by_cases hopen : p.current = some .opened
  · have heq : p.doConnect dev = p := by simp [Page.doConnect, hopen]
    rw [heq, Good]
    simp [hopen]
  · simp only [hopen, false_implies, implies_true, iff_true]
    intro hrel
    by_cases hconn : p.current = some .connecting
    · have heq : p.doConnect dev = p := by simp [Page.doConnect, hconn]
      rw [heq]
      exact Or.inr (Or.inl hconn)
    · by_cases hhid : dev = false ∧ p.hidden = true
      · have heq : p.doConnect dev = p.cleanupSocket := by
          simp [Page.doConnect, hopen, hconn, hhid]
        have hshown := hrel.2
        rw [heq, cleanupSocket_hidden, hhid.2] at hshown
        cases hshown
      · refine Or.inr (Or.inl ?_)
        have hnone : ¬ (p.current = some .opened ∨ p.current = some .connecting) := by
          simp [hopen, hconn]
        rw [Page.doConnect, if_neg hnone]
        dsimp only
        rw [cleanupSocket_hidden, if_neg hhid]
        simp [Page.current, readyState]

/-! ### One spec for each handler -/

theorem Coherent.discard (h : p.Coherent) : p.discard.Coherent := h.bare_discard.coherent

theorem Coherent.connect (h : p.Coherent) : (p.connect dev).Coherent := by
  unfold Page.connect
  exact (h.wanted false 0).doConnect

theorem good_connect :
    (p.connect dev).Good ↔ (p.hidden = false → p.current = some .opened → p.Armed) := by
  unfold Page.connect
  rw [good_doConnect]
  constructor
  · intro hgood hhid hopen
    exact hgood ⟨rfl, hhid⟩ hopen
  · intro hgood hrel hopen
    exact hgood hrel.2 hopen

theorem Coherent.forceReconnect (h : p.Coherent) : (p.forceReconnect dev).Coherent := by
  unfold Page.forceReconnect
  exact (h.wanted false 0).clearReconnectTimer.discard.doConnect

/-- A forced reconnect has no open socket to stop at. -/
theorem Coherent.good_forceReconnect (h : p.Coherent) : (p.forceReconnect dev).Good := by
  unfold Page.forceReconnect
  dsimp only
  rw [good_doConnect]
  intro _ hopen
  rw [(h.wanted false 0).clearReconnectTimer.bare_discard.current] at hopen
  cases hopen

theorem Coherent.disconnect (h : p.Coherent) : p.disconnect.Coherent := by
  have hbare := (h.wanted true p.client.reconnectAttempt).clearReconnectTimer.bare_discard
  have hq : p.disconnect.Bare :=
    ⟨hbare.unhandled, hbare.ws, hbare.connectWatchdog, hbare.heartbeatInterval,
      hbare.heartbeatWatchdog⟩
  exact hq.coherent

@[simp] theorem clearReconnectTimer_intentionalClose :
    p.clearReconnectTimer.client.intentionalClose = p.client.intentionalClose := by
  unfold clearReconnectTimer
  split <;> rfl

@[simp] theorem discard_intentionalClose :
    p.discard.client.intentionalClose = p.client.intentionalClose := by
  unfold Page.discard
  split
  · rfl
  · rw [close_client, cleanupSocket_intentionalClose]

theorem disconnect_not_relevant : ¬ p.disconnect.Relevant := by
  intro hrel
  have := hrel.1
  simp [Page.disconnect] at this

/-- What `cleanupSocket(); close(); scheduleReconnect()` leaves, which both watchdogs end in. -/
theorem Handled.drop (h : p.Handled) :
    (p.cleanupSocket.close id).scheduleReconnect.Coherent :=
  h.bare_cleanupSocket.close.scheduleReconnect.coherent

/-- A reconnect that is scheduled is pending, unless the connection is not wanted. -/
theorem good_scheduleReconnect : p.scheduleReconnect.Good := by
  intro hrel
  unfold scheduleReconnect at hrel ⊢
  split
  · rename_i hwant
    simp only [hwant, if_true] at hrel
    exact absurd (hwant.symm.trans hrel.1) (by decide)
  · exact Or.inl (by simp)

theorem Handled.onclose (h : p.Handled) : p.onclose.Coherent := by
  have hbare := h.bare_cleanupSocket
  unfold Page.onclose
  dsimp only
  split
  · have hq : Bare { p.cleanupSocket with
        client := { p.cleanupSocket.client with state := .disconnected } } :=
      ⟨hbare.unhandled, hbare.ws, hbare.connectWatchdog, hbare.heartbeatInterval,
        hbare.heartbeatWatchdog⟩
    exact hq.coherent
  · exact hbare.scheduleReconnect.coherent

theorem good_onclose : p.onclose.Good := by
  unfold Page.onclose
  dsimp only
  split
  · rename_i hwant
    intro hrel
    have hwanted := hrel.1
    dsimp only at hwanted
    rw [hwant] at hwanted
    cases hwanted
  · exact good_scheduleReconnect

theorem current_of_ws (hws : p.client.ws = some id) : p.current = p.readyState id := by
  rw [Page.current, hws, Option.bind_some]

theorem Coherent.probeLiveness (h : p.Coherent) (hc : p.client.state = .connected) (now : Nat) :
    (p.probeLiveness now).Coherent := by
  unfold Page.probeLiveness
  split
  · exact h
  · rename_i cur hws
    split
    · rename_i hopen
      have hsend : p.send .ping = { p with sent := p.sent ++ [(cur, .ping)] } := by
        simp [Page.send, hws, hopen]
      rw [hsend]
      have hbeat : p.client.heartbeatInterval = true := h.beating.mpr ⟨by simp [hws], hc⟩
      refine ⟨h.handled, h.live, h.watchdog, h.beating, h.greeted, ?_⟩
      intro pr hpr
      obtain rfl : (⟨cur, now⟩ : Probe) = pr := by simpa using hpr
      exact ⟨hws, hbeat⟩
    · exact h

theorem probeLiveness_eq_self (hopen : p.current ≠ some .opened) (now : Nat) :
    p.probeLiveness now = p := by
  unfold Page.probeLiveness
  split
  · rfl
  · rename_i cur hws
    rw [current_of_ws hws] at hopen
    rw [if_neg hopen]

/-- A ping goes out on an open socket, and its watchdog is armed. -/
theorem probeLiveness_eq (hws : p.client.ws = some id) (hopen : p.readyState id = some .opened)
    (now : Nat) : p.probeLiveness now = { p with
      sent := p.sent ++ [(id, .ping)]
      client := { p.client with heartbeatWatchdog := some ⟨id, now⟩ } } := by
  simp [Page.probeLiveness, Page.send, hws, hopen]

/-- A probe is of use on an open socket only. -/
theorem Coherent.good_probeLiveness (h : p.Coherent) (hc : p.client.state = .connected)
    (now : Nat) : (p.probeLiveness now).Good ↔
      (p.Relevant → p.timers ≠ [] ∨ p.current = some .opened ∨ p.unanswered = true) := by
  by_cases hopen : p.current = some .opened
  · simp only [hopen, true_or, or_true, implies_true, iff_true]
    intro _
    refine Or.inr (Or.inr (Or.inl ?_))
    obtain ⟨cur, hws, hcur⟩ := Option.bind_eq_some_iff.mp hopen
    rw [probeLiveness_eq hws hcur]
    exact ⟨hopen, h.beating.mpr ⟨by simp [hws], hc⟩⟩
  · have hconn : p.current ≠ some .connecting := by
      intro hcon
      obtain ⟨cur, hws, -⟩ := Option.bind_eq_some_iff.mp hcon
      exact h.greeted (h.beating.mpr ⟨by simp [hws], hc⟩) hcon
    rw [probeLiveness_eq_self hopen]
    simp [Good, Armed, hopen, hconn]

theorem Coherent.handleWake (h : p.Coherent) (now : Nat) : (p.handleWake dev now).Coherent := by
  unfold Page.handleWake
  split
  · exact h
  · split
    · exact h.forceReconnect
    · rename_i hc
      exact h.probeLiveness (not_not.mp hc) now

theorem Coherent.good_handleWake (h : p.Coherent) (now : Nat) :
    (p.handleWake dev now).Good ↔
      (p.Relevant → p.client.state = .connected →
        p.timers ≠ [] ∨ p.current = some .opened ∨ p.unanswered = true) := by
  unfold Page.handleWake
  split
  · rename_i hwant
    have hrel : ¬ p.Relevant := fun hrel => by simp [Relevant, hwant] at hrel
    simp [Good, hrel]
  · split
    · rename_i hc
      simp [h.good_forceReconnect, hc]
    · rename_i hc
      rw [h.good_probeLiveness (not_not.mp hc)]
      simp [not_not.mp hc]

/-! ### The events of a socket -/

/-- What the sockets are after one of them changed its `readyState`. -/
theorem Handled.setReadyState (h : p.Handled) (r : ReadyState) :
    (p.setReadyState id r).Handled := by
  intro j s hs
  rw [getElem?_setReadyState] at hs
  obtain ⟨t, ht, rfl⟩ := Option.map_eq_some_iff.mp hs
  have hhandled := h j t ht
  split <;> exact hhandled

theorem current_setReadyState_of_ne (hne : p.client.ws ≠ some id) (r : ReadyState) :
    (p.setReadyState id r).current = p.current := by
  cases hws : p.client.ws with
  | none =>
    have hws' : (p.setReadyState id r).client.ws = none := hws
    rw [Page.current, Page.current, hws, hws']
    rfl
  | some cur =>
    have hcur : id ≠ cur := fun heq => hne (hws.trans (congrArg some heq.symm))
    have hws' : (p.setReadyState id r).client.ws = some cur := hws
    rw [current_of_ws hws, current_of_ws hws', readyState_setReadyState_of_ne hcur]

/-- A socket that is not the current one may be in any state. -/
theorem Coherent.setReadyState_of_ne (h : p.Coherent) (hne : p.client.ws ≠ some id)
    (r : ReadyState) : (p.setReadyState id r).Coherent where
  handled := h.handled.setReadyState r
  live cur hcur := by
    have hid : id ≠ cur := fun heq => hne (hcur.trans (congrArg some heq.symm))
    rw [readyState_setReadyState_of_ne hid]
    exact h.live cur hcur
  watchdog cur := by
    refine (h.watchdog cur).trans (and_congr_right fun hcur => ?_)
    have hid : id ≠ cur := fun heq => hne (hcur.trans (congrArg some heq.symm))
    rw [readyState_setReadyState_of_ne hid]
  beating := h.beating
  greeted hb := by
    rw [current_setReadyState_of_ne hne]
    exact h.greeted hb
  probing := h.probing

/-- The current socket moves on to a state in which it is neither connecting nor closed,
and the handshake watchdog is off. -/
theorem Coherent.setReadyState_current (h : p.Coherent) {s : PageSocket}
    (hs : p.sockets[id]? = some s) (hws : p.client.ws = some id) {r : ReadyState}
    (hconn : r ≠ .connecting) (hclosed : r ≠ .closed) :
    Coherent { p.setReadyState id r with
      client := { p.client with connectWatchdog := none } } := by
  have hr : (p.setReadyState id r).readyState id = some r := readyState_setReadyState_self hs r
  refine ⟨h.handled.setReadyState r, ?_, ?_, h.beating, ?_, h.probing⟩
  · intro cur hcur
    obtain rfl : id = cur := Option.some.inj (hws.symm.trans hcur)
    exact ⟨r, hr, hclosed⟩
  · intro cur
    constructor
    · intro hw
      cases hw
    · rintro ⟨hcur, hreads⟩
      obtain rfl : id = cur := Option.some.inj (hws.symm.trans hcur)
      exact absurd (Option.some.inj (hr.symm.trans hreads)) hconn
  · intro _ hcon
    have hcur : (p.setReadyState id r).current = some r := by
      rw [current_of_ws (p := p.setReadyState id r) hws]
      exact hr
    exact hconn (Option.some.inj (hcur.symm.trans hcon))

@[simp] theorem send_client (msg : Outgoing) : (p.send msg).client = p.client := by
  unfold send
  split
  · rfl
  · split <;> rfl

@[simp] theorem send_sockets (msg : Outgoing) : (p.send msg).sockets = p.sockets := by
  unfold send
  split
  · rfl
  · split <;> rfl

@[simp] theorem send_timers (msg : Outgoing) : (p.send msg).timers = p.timers := by
  unfold send
  split
  · rfl
  · split <;> rfl

@[simp] theorem send_hidden (msg : Outgoing) : (p.send msg).hidden = p.hidden := by
  unfold send
  split
  · rfl
  · split <;> rfl

/-- The invariant reads the client and the sockets. -/
theorem Coherent.congr {q : Page} (h : p.Coherent) (hclient : q.client = p.client)
    (hsockets : q.sockets = p.sockets) : q.Coherent := by
  obtain ⟨client, _, sockets, _, _, _, _⟩ := p
  obtain ⟨client', _, sockets', _, _, _, _⟩ := q
  obtain rfl : client' = client := hclient
  obtain rfl : sockets' = sockets := hsockets
  exact ⟨h.handled, h.live, h.watchdog, h.beating, h.greeted, h.probing⟩

/-- The page after the current socket opened. -/
theorem Coherent.opened (h : p.Coherent) {s : PageSocket} (hs : p.sockets[id]? = some s)
    (hws : p.client.ws = some id) : (p.setReadyState id .opened).onopen.Coherent := by
  have hset := h.setReadyState_current hs hws (r := .opened) (by decide) (by decide)
  refine Coherent.congr (hset.wanted p.client.intentionalClose 0) ?_ ?_
  · rw [onopen, send_client]
    rfl
  · rw [onopen, send_sockets]

/-- Nothing guards a socket that just opened but what guarded the client anyway. -/
theorem Coherent.good_opened (h : p.Coherent) {s : PageSocket} (hs : p.sockets[id]? = some s)
    (hws : p.client.ws = some id) (hconn : s.readyState = .connecting) :
    (p.setReadyState id .opened).onopen.Good ↔ (p.Relevant → p.timers ≠ []) := by
  have hreads : p.readyState id = some .connecting := by rw [readyState, hs, ← hconn]; rfl
  have hbeat : p.client.heartbeatInterval ≠ true := by
    intro hb
    exact h.greeted hb ((current_of_ws hws).trans hreads)
  have hprobe : p.client.heartbeatWatchdog = none := by
    cases hp : p.client.heartbeatWatchdog with
    | none => rfl
    | some pr => exact absurd (h.probing pr hp).2 hbeat
  have hcur : (p.setReadyState id .opened).onopen.current = some .opened := by
    have hws' : (p.setReadyState id .opened).onopen.client.ws = some id := by
      rw [onopen, send_client]
      exact hws
    rw [current_of_ws hws', readyState, onopen, send_sockets]
    exact readyState_setReadyState_self hs .opened
  have hrel : (p.setReadyState id .opened).onopen.Relevant ↔ p.Relevant := by
    rw [Relevant, Relevant, onopen, send_client, send_hidden]
    rfl
  have harmed : (p.setReadyState id .opened).onopen.Armed ↔ p.timers ≠ [] := by
    rw [Armed, hcur, unanswered, onopen, send_client, send_timers]
    simp [setReadyState, hbeat, hprobe]
  rw [Good, hrel, harmed]

/-- The page after a frame. -/
theorem Coherent.onmessage (h : p.Coherent) (hcur : p.current = some .opened) (msg : Inbound)
    (now : Nat) : (p.onmessage msg now).Coherent := by
  have hstamped : Coherent { p with client := { p.client with lastInboundAt := now } } :=
    ⟨h.handled, h.live, h.watchdog, h.beating, h.greeted, h.probing⟩
  cases msg with
  | unparsed => exact hstamped
  | other => exact hstamped.congr rfl rfl
  | unauthorized =>
    refine Coherent.disconnect (hstamped.congr rfl rfl)
  | hello =>
    refine Coherent.congr (p := { p with client := { p.client with
      lastInboundAt := now, state := .connected, heartbeatInterval := true,
      heartbeatWatchdog := none } }) ?_ rfl rfl
    obtain ⟨id, hws, -⟩ := Option.bind_eq_some_iff.mp hcur
    refine ⟨h.handled, h.live, h.watchdog, ?_, ?_, ?_⟩
    · simp [hws]
    · intro _ hcon
      have : p.current = some .connecting := hcon
      rw [hcur] at this
      cases this
    · intro pr hpr
      cases hpr

theorem unanswered_iff : p.unanswered = true ↔
    ∃ pr, p.client.heartbeatWatchdog = some pr ∧ p.client.lastInboundAt < pr.sentAt := by
  unfold unanswered
  cases p.client.heartbeatWatchdog with
  | none => simp
  | some pr => simp

/-- A ping is under way only while the heartbeat beats. -/
theorem Coherent.beats_of_unanswered (h : p.Coherent) (hu : p.unanswered = true) :
    p.client.heartbeatInterval = true := by
  obtain ⟨pr, hpr, -⟩ := unanswered_iff.mp hu
  exact (h.probing pr hpr).2

/-- On an open socket a guarded client has a timer or its heartbeat. -/
theorem Coherent.armed_of_opened (h : p.Coherent) (hcur : p.current = some .opened)
    (harmed : p.Armed) : p.timers ≠ [] ∨ p.client.heartbeatInterval = true := by
  rcases harmed with ht | hc | hb | hu
  · exact Or.inl ht
  · rw [hcur] at hc
    cases hc
  · exact Or.inr hb.2
  · exact Or.inr (h.beats_of_unanswered hu)

/-- A frame keeps a guarded client guarded. -/
theorem Coherent.good_onmessage (h : p.Coherent) (hcur : p.current = some .opened)
    (hgood : p.Good) (msg : Inbound) (now : Nat) : (p.onmessage msg now).Good := by
  have hkept : ∀ q : Page, q.timers = p.timers →
      q.client = { p.client with lastInboundAt := now } →
      q.hidden = p.hidden → q.current = some .opened → q.Good := by
    intro q htimers hclient hhidden hqcur hrel
    have hrel' : p.Relevant := ⟨by rw [← hrel.1, hclient], by rw [← hrel.2, hhidden]⟩
    rcases h.armed_of_opened hcur (hgood hrel') with ht | hb
    · exact Or.inl (by rwa [htimers])
    · exact Or.inr (Or.inr (Or.inl ⟨hqcur, by rw [hclient]; exact hb⟩))
  cases msg with
  | unparsed => exact hkept _ rfl rfl rfl hcur
  | other => exact hkept _ rfl rfl rfl hcur
  | unauthorized =>
    intro hrel
    exact absurd hrel disconnect_not_relevant
  | hello =>
    intro _
    exact Or.inr (Or.inr (Or.inl ⟨hcur, rfl⟩))

/-- Once the server starts to close the current socket, only a timer or the watchdog of a
ping that is under way is left. -/
theorem good_closing {s : PageSocket} (hs : p.sockets[id]? = some s)
    (hws : p.client.ws = some id) : (p.setReadyState id .closing).Good ↔
      (p.Relevant → p.timers ≠ [] ∨ p.unanswered = true) := by
  have hcur : (p.setReadyState id .closing).current = some .closing := by
    rw [current_of_ws (p := p.setReadyState id .closing) hws]
    exact readyState_setReadyState_self hs .closing
  have harmed : (p.setReadyState id .closing).Armed ↔ p.timers ≠ [] ∨ p.unanswered = true := by
    have htimers : (p.setReadyState id .closing).timers = p.timers := rfl
    have hun : (p.setReadyState id .closing).unanswered = p.unanswered := rfl
    rw [Armed, hcur, htimers, hun]
    simp
  rw [Good, harmed]
  exact Iff.rfl

theorem Coherent.ws_of_handlers (h : p.Coherent) {s : PageSocket}
    (hs : p.sockets[id]? = some s) (hh : s.handlers = true) : p.client.ws = some id :=
  (h.handled id s hs).mp hh

theorem Coherent.ws_of_no_handlers (h : p.Coherent) {s : PageSocket}
    (hs : p.sockets[id]? = some s) (hh : ¬ s.handlers = true) : p.client.ws ≠ some id := by
  intro hws
  exact hh ((h.handled id s hs).mpr hws)

/-- The handshake watchdog is off once the current socket is past connecting. -/
theorem Coherent.watchdog_off (h : p.Coherent) (hws : p.client.ws = some id)
    (hr : p.readyState id ≠ some .connecting) : p.client.connectWatchdog = none := by
  cases hw : p.client.connectWatchdog with
  | none => rfl
  | some j =>
    obtain ⟨hj, hconn⟩ := (h.watchdog j).mp hw
    obtain rfl : id = j := Option.some.inj (hws.symm.trans hj)
    exact absurd hconn hr

theorem Coherent.onSocket (h : p.Coherent) (ev : SocketEvent) : (p.onSocket id ev).Coherent := by
  unfold Page.onSocket
  split
  · exact h
  · rename_i s hs
    cases ev with
    | opened =>
      dsimp only
      split
      · split
        · rename_i hh
          exact h.opened hs (h.ws_of_handlers hs hh)
        · rename_i hh
          exact h.setReadyState_of_ne (h.ws_of_no_handlers hs hh) .opened
      · exact h
    | message msg now =>
      dsimp only
      split
      · rename_i hh
        have hws := h.ws_of_handlers hs hh.2
        have hcur : p.current = some .opened := by
          rw [current_of_ws hws, readyState, hs, ← hh.1]
          rfl
        exact h.onmessage hcur msg now
      · exact h
    | closing =>
      dsimp only
      split
      · rename_i hopen
        have hne : p.readyState id ≠ some .connecting := by
          rw [readyState, hs, Option.map_some, hopen]
          decide
        by_cases hws : p.client.ws = some id
        · have hset := h.setReadyState_current hs hws (r := .closing) (by decide) (by decide)
          refine hset.congr ?_ rfl
          rw [← h.watchdog_off hws hne]
          rfl
        · exact h.setReadyState_of_ne hws .closing
      · exact h
    | error => exact h
    | closed =>
      dsimp only
      split
      · exact h
      · split
        · exact (h.handled.setReadyState .closed).onclose
        · rename_i hh
          exact h.setReadyState_of_ne (h.ws_of_no_handlers hs hh) .closed

/-- What a socket that is not the current one does leaves the client as guarded as it was. -/
theorem good_setReadyState_of_ne (hne : p.client.ws ≠ some id) (r : ReadyState) :
    (p.setReadyState id r).Good ↔ p.Good := by
  have hcur : (p.setReadyState id r).current = p.current := current_setReadyState_of_ne hne r
  have hun : (p.setReadyState id r).unanswered = p.unanswered := rfl
  rw [Good, Good, Armed, Armed, hcur, hun]
  exact Iff.rfl

theorem Coherent.good_onSocket (h : p.Coherent) (hgood : p.Good) (ev : SocketEvent) :
    p.Keeps (.socket id ev) ↔ (p.onSocket id ev).Good := by
  unfold Page.onSocket
  split
  · -- there is no such socket
    rename_i hnone
    have hr : p.readyState id = none := by rw [readyState, hnone, Option.map_none]
    cases ev <;> simp [Keeps, hr, hgood]
  · rename_i s hs
    have hr : p.readyState id = some s.readyState := by rw [readyState, hs, Option.map_some]
    cases ev with
    | opened =>
      dsimp only [Keeps]
      rw [hr]
      split
      · rename_i hconn
        split
        · rename_i hh
          have hws := h.ws_of_handlers hs hh
          rw [h.good_opened hs hws hconn]
          simp [hws, hconn]
        · rename_i hh
          have hws := h.ws_of_no_handlers hs hh
          rw [good_setReadyState_of_ne hws]
          simp [hws, hgood]
      · rename_i hconn
        simp [hconn, hgood]
    | message msg now =>
      dsimp only [Keeps]
      rw [true_iff]
      split
      · rename_i hh
        have hws := h.ws_of_handlers hs hh.2
        have hcur : p.current = some .opened := by rw [current_of_ws hws, hr, hh.1]
        exact h.good_onmessage hcur hgood msg now
      · exact hgood
    | closing =>
      dsimp only [Keeps]
      rw [hr]
      split
      · rename_i hopen
        by_cases hws : p.client.ws = some id
        · rw [good_closing hs hws]
          simp [hws, hopen]
        · rw [good_setReadyState_of_ne hws]
          simp [hws, hgood]
      · rename_i hopen
        simp [hopen, hgood]
    | error => simp [Keeps, hgood]
    | closed =>
      dsimp only [Keeps]
      rw [true_iff]
      split
      · exact hgood
      · split
        · exact good_onclose
        · rename_i hh
          exact (good_setReadyState_of_ne (h.ws_of_no_handlers hs hh) _).mpr hgood

/-- A client that is connected has no socket that connects. -/
theorem Coherent.armed_of_connected (h : p.Coherent) (hc : p.client.state = .connected)
    (harmed : p.Armed) :
    p.timers ≠ [] ∨ p.current = some .opened ∨ p.unanswered = true := by
  rcases harmed with ht | hcon | ho | hu
  · exact Or.inl ht
  · obtain ⟨cur, hws, -⟩ := Option.bind_eq_some_iff.mp hcon
    exact absurd hcon (h.greeted (h.beating.mpr ⟨by simp [hws], hc⟩))
  · exact Or.inr (Or.inl ho.1)
  · exact Or.inr (Or.inr hu)

/-! ### The timers -/

theorem Coherent.onReconnectTimer (h : p.Coherent) (timer : Nat) :
    (p.onReconnectTimer dev timer).Coherent := by
  unfold Page.onReconnectTimer
  split
  · apply Coherent.doConnect
    exact ⟨h.handled, h.live, h.watchdog, h.beating, h.greeted, h.probing⟩
  · exact h

theorem Coherent.good_onReconnectTimer (h : p.Coherent) (hgood : p.Good) (timer : Nat) :
    p.Keeps (.reconnectTimer timer) ↔ (p.onReconnectTimer dev timer).Good := by
  unfold Page.onReconnectTimer
  dsimp only [Keeps]
  split
  · rename_i hmem
    rw [good_doConnect]
    refine forall_congr' fun _ => ?_
    simp only [hmem, true_implies]
    refine forall_congr' fun hopen => ?_
    constructor
    · rintro (ht | hb)
      · exact Or.inl ht
      · exact Or.inr (Or.inr (Or.inl ⟨hopen, hb⟩))
    · intro harmed
      have hcoh : Coherent { p with
          client := { p.client with reconnectTimer := none }
          timers := p.timers.filter (· ≠ timer) } :=
        ⟨h.handled, h.live, h.watchdog, h.beating, h.greeted, h.probing⟩
      exact hcoh.armed_of_opened hopen harmed
  · rename_i hmem
    simp [hmem, hgood]

/-- The handshake watchdog fires on the socket it was armed for, and that connects. -/
theorem Coherent.onConnectWatchdog_eq (h : p.Coherent) {armed : Nat}
    (hw : p.client.connectWatchdog = some armed) :
    p.onConnectWatchdog =
      (({ p with client := { p.client with connectWatchdog := none } }.cleanupSocket).close
        armed).scheduleReconnect := by
  obtain ⟨hws, hconn⟩ := (h.watchdog armed).mp hw
  simp only [Page.onConnectWatchdog, hw]
  refine if_neg ?_
  rintro (hne | hne)
  · exact hne hws
  · exact hne hconn

theorem onConnectWatchdog_eq_self (hw : p.client.connectWatchdog = none) :
    p.onConnectWatchdog = p := by
  simp only [Page.onConnectWatchdog, hw]

theorem Coherent.onConnectWatchdog (h : p.Coherent) : p.onConnectWatchdog.Coherent := by
  cases hw : p.client.connectWatchdog with
  | none => rwa [onConnectWatchdog_eq_self hw]
  | some armed =>
    rw [h.onConnectWatchdog_eq hw]
    apply Handled.drop
    exact h.handled

theorem Coherent.good_onConnectWatchdog (h : p.Coherent) (hgood : p.Good) :
    p.onConnectWatchdog.Good := by
  cases hw : p.client.connectWatchdog with
  | none => rwa [onConnectWatchdog_eq_self hw]
  | some armed =>
    rw [h.onConnectWatchdog_eq hw]
    exact good_scheduleReconnect

/-- The heartbeat beats while the client is connected, so its probe is one of a connected
client. -/
theorem Coherent.onHeartbeatInterval (h : p.Coherent) (now : Nat) :
    (p.onHeartbeatInterval now).Coherent := by
  unfold Page.onHeartbeatInterval
  split
  · rename_i hb
    exact h.probeLiveness (h.beating.mp hb.1).2 now
  · exact h

theorem Coherent.good_onHeartbeatInterval (h : p.Coherent) (hgood : p.Good) (now : Nat) :
    (p.onHeartbeatInterval now).Good := by
  unfold Page.onHeartbeatInterval
  split
  · rename_i hb
    have hc := (h.beating.mp hb.1).2
    rw [h.good_probeLiveness hc]
    intro hrel
    exact h.armed_of_connected hc (hgood hrel)
  · exact hgood

/-- A ping that was answered is forgotten. -/
theorem Coherent.onHeartbeatWatchdog_eq_of_answered (h : p.Coherent) {pr : Probe}
    (hp : p.client.heartbeatWatchdog = some pr) (hu : ¬ p.unanswered = true) :
    p.onHeartbeatWatchdog =
      { p with client := { p.client with heartbeatWatchdog := none } } := by
  have hws := (h.probing pr hp).1
  have hans : pr.sentAt ≤ p.client.lastInboundAt := by
    by_contra hlt
    exact hu (unanswered_iff.mpr ⟨pr, hp, Nat.lt_of_not_le hlt⟩)
  simp only [Page.onHeartbeatWatchdog, hp]
  rw [if_neg (not_not.mpr hws), if_pos hans]

/-- A ping that was not answered costs the socket. -/
theorem Coherent.onHeartbeatWatchdog_eq_of_unanswered (h : p.Coherent)
    (hu : p.unanswered = true) :
    ∃ id, p.onHeartbeatWatchdog =
      (({ p with client := { p.client with heartbeatWatchdog := none } }.cleanupSocket).close
        id).scheduleReconnect := by
  obtain ⟨pr, hp, hlt⟩ := unanswered_iff.mp hu
  have hws := (h.probing pr hp).1
  refine ⟨pr.armedSocket, ?_⟩
  simp only [Page.onHeartbeatWatchdog, hp]
  rw [if_neg (not_not.mpr hws), if_neg (Nat.not_le.mpr hlt)]

theorem onHeartbeatWatchdog_eq_self (hp : p.client.heartbeatWatchdog = none) :
    p.onHeartbeatWatchdog = p := by
  simp only [Page.onHeartbeatWatchdog, hp]

theorem Coherent.onHeartbeatWatchdog (h : p.Coherent) : p.onHeartbeatWatchdog.Coherent := by
  cases hp : p.client.heartbeatWatchdog with
  | none => rwa [onHeartbeatWatchdog_eq_self hp]
  | some pr =>
    by_cases hu : p.unanswered = true
    · obtain ⟨id, heq⟩ := h.onHeartbeatWatchdog_eq_of_unanswered hu
      rw [heq]
      apply Handled.drop
      exact h.handled
    · rw [h.onHeartbeatWatchdog_eq_of_answered hp hu]
      refine ⟨h.handled, h.live, h.watchdog, h.beating, h.greeted, ?_⟩
      intro pr' hpr'
      cases hpr'

theorem Coherent.good_onHeartbeatWatchdog (h : p.Coherent) (hgood : p.Good) :
    p.onHeartbeatWatchdog.Good := by
  cases hp : p.client.heartbeatWatchdog with
  | none => rwa [onHeartbeatWatchdog_eq_self hp]
  | some pr =>
    by_cases hu : p.unanswered = true
    · obtain ⟨id, heq⟩ := h.onHeartbeatWatchdog_eq_of_unanswered hu
      rw [heq]
      exact good_scheduleReconnect
    · rw [h.onHeartbeatWatchdog_eq_of_answered hp hu]
      intro hrel
      rcases hgood hrel with ht | hc | hb | hun
      · exact Or.inl ht
      · exact Or.inr (Or.inl hc)
      · exact Or.inr (Or.inr (Or.inl hb))
      · exact absurd hun hu

/-! ### Steps and runs -/

theorem Coherent.step (h : p.Coherent) (ev : Event) : (p.step dev ev).Coherent := by
  cases ev with
  | connect => exact h.connect
  | forceReconnect => exact h.forceReconnect
  | disconnect => exact h.disconnect
  | socket id ev => exact h.onSocket ev
  | reconnectTimer timer => exact h.onReconnectTimer timer
  | connectWatchdog => exact h.onConnectWatchdog
  | heartbeatInterval now => exact h.onHeartbeatInterval now
  | heartbeatWatchdog => exact h.onHeartbeatWatchdog
  | visibilitychange hidden now =>
    have hshown : Coherent { p with hidden } := h.congr rfl rfl
    dsimp only [Page.step, Page.handleVisibilityChange]
    split
    · exact hshown.clearReconnectTimer
    · exact hshown.handleWake now
  | pageshow hidden now =>
    have hshown : Coherent { p with hidden } := h.congr rfl rfl
    exact hshown.handleWake now
  | online now => exact h.handleWake now

theorem shown_iff (hidden : Bool) (X : Prop) :
    (hidden = false → p.client.intentionalClose = false → X) ↔
      (Relevant { p with hidden } → X) := by
  constructor
  · intro hX hrel
    exact hX hrel.2 hrel.1
  · intro hX hshown hwant
    exact hX ⟨hwant, hshown⟩

/-- `Keeps` is the condition under which a step keeps a guarded client guarded. -/
theorem Coherent.keeps_iff (h : p.Coherent) (hgood : p.Good) (ev : Event) :
    p.Keeps ev ↔ (p.step dev ev).Good := by
  cases ev with
  | connect => exact good_connect.symm
  | forceReconnect => exact iff_of_true trivial h.good_forceReconnect
  | disconnect =>
    refine iff_of_true trivial ?_
    intro hrel
    exact absurd hrel disconnect_not_relevant
  | socket id ev => exact h.good_onSocket hgood ev
  | reconnectTimer timer => exact h.good_onReconnectTimer hgood timer
  | connectWatchdog => exact iff_of_true trivial (h.good_onConnectWatchdog hgood)
  | heartbeatInterval now => exact iff_of_true trivial (h.good_onHeartbeatInterval hgood now)
  | heartbeatWatchdog => exact iff_of_true trivial (h.good_onHeartbeatWatchdog hgood)
  | visibilitychange hidden now =>
    have hshown : Coherent { p with hidden } := h.congr rfl rfl
    cases hidden with
    | true =>
      refine iff_of_true (fun hcon => absurd hcon (by decide)) ?_
      intro hrel
      have := hrel.2
      simp [Page.step, Page.handleVisibilityChange] at this
    | false =>
      exact (shown_iff false _).trans (hshown.good_handleWake now).symm
  | pageshow hidden now =>
    have hshown : Coherent { p with hidden } := h.congr rfl rfl
    exact (shown_iff hidden _).trans (hshown.good_handleWake now).symm
  | online now =>
    refine iff_of_true trivial ((h.good_handleWake now).mpr ?_)
    intro hrel hc
    exact h.armed_of_connected hc (hgood hrel)

/-- An event of a socket without handlers is not heard of. -/
theorem Coherent.supersededIgnored (h : p.Coherent) : p.SupersededIgnored dev := by
  intro id ev hws
  have hsame : ∃ f, p = { p with sockets := p.sockets.modify id f } := by
    refine ⟨fun s => s, ?_⟩
    have hid : p.sockets.modify id (fun s => s) = p.sockets := by
      apply List.ext_getElem?
      intro j
      rw [List.getElem?_modify]
      cases p.sockets[j]? <;> simp
    rw [hid]
  dsimp only [Page.step, Page.onSocket]
  split
  · exact hsame
  · rename_i s hs
    have hh : ¬ s.handlers = true := fun hh => hws ((h.handled id s hs).mp hh)
    cases ev with
    | opened =>
      dsimp only
      split
      · exact ⟨_, rfl⟩
      · exact hsame
    | message msg now =>
      dsimp only
      rw [if_neg (fun hcon => hh hcon.2)]
      exact hsame
    | closing =>
      dsimp only
      split
      · exact ⟨_, rfl⟩
      · exact hsame
    | error => exact hsame
    | closed =>
      dsimp only
      split
      · exact hsame
      · exact ⟨_, rfl⟩

/-! ### What guards the client -/

/-- A reconnect that is wanted is scheduled. -/
theorem scheduleReconnect_timers (hwant : p.client.intentionalClose = false) :
    p.scheduleReconnect.timers ≠ [] := by
  simp [Page.scheduleReconnect, hwant]

theorem drop_timers (hwant : p.client.intentionalClose = false) :
    ((p.cleanupSocket.close id).scheduleReconnect).timers ≠ [] := by
  apply scheduleReconnect_timers
  rw [close_client, cleanupSocket_intentionalClose, hwant]

/-- With no timer pending, the watchdog of a ping leads to one when the ping was not
answered. -/
theorem Coherent.onHeartbeatWatchdog_timers (h : p.Coherent) (hrel : p.Relevant)
    (ht : p.timers = []) : p.onHeartbeatWatchdog.timers ≠ [] ↔ p.unanswered = true := by
  constructor
  · intro hne
    by_contra hu
    cases hp : p.client.heartbeatWatchdog with
    | none =>
      rw [onHeartbeatWatchdog_eq_self hp] at hne
      exact hne ht
    | some pr =>
      rw [h.onHeartbeatWatchdog_eq_of_answered hp hu] at hne
      exact hne ht
  · intro hu
    obtain ⟨id, heq⟩ := h.onHeartbeatWatchdog_eq_of_unanswered hu
    rw [heq]
    apply drop_timers
    exact hrel.1

/-- **What has to be armed for the client to be guarded.** -/
theorem Coherent.guarded_iff_armed (h : p.Coherent) (hrel : p.Relevant) :
    p.Guarded dev ↔ p.Armed := by
  by_cases ht : p.timers = []
  · constructor
    · rintro (hne | ⟨hsome, -⟩ | ⟨-, hne⟩ | ⟨hb, hall⟩)
      · exact absurd ht hne
      · obtain ⟨armed, hw⟩ := Option.isSome_iff_exists.mp hsome
        obtain ⟨hws, hconn⟩ := (h.watchdog armed).mp hw
        exact Or.inr (Or.inl ((current_of_ws hws).trans hconn))
      · exact Or.inr (Or.inr (Or.inr ((h.onHeartbeatWatchdog_timers hrel ht).mp hne)))
      · by_cases hopen : p.current = some .opened
        · exact Or.inr (Or.inr (Or.inl ⟨hopen, hb⟩))
        · -- the tick sends nothing, so the watchdog is the one that was armed before it
          have hne := hall (p.client.lastInboundAt + 1) (Nat.lt_succ_self _)
          have htick : p.step dev (.heartbeatInterval (p.client.lastInboundAt + 1)) = p := by
            rw [Page.step, Page.onHeartbeatInterval, if_pos ⟨hb, hrel.2⟩,
              probeLiveness_eq_self hopen]
          rw [htick] at hne
          exact Or.inr (Or.inr (Or.inr ((h.onHeartbeatWatchdog_timers hrel ht).mp hne)))
    · rintro (hne | hc | ⟨hopen, hb⟩ | hu)
      · exact absurd ht hne
      · obtain ⟨id, hws, hconn⟩ := Option.bind_eq_some_iff.mp hc
        have hw := (h.watchdog id).mpr ⟨hws, hconn⟩
        refine Or.inr (Or.inl ⟨by simp [hw], ?_⟩)
        rw [Page.step, h.onConnectWatchdog_eq hw]
        apply drop_timers
        exact hrel.1
      · refine Or.inr (Or.inr (Or.inr ⟨hb, ?_⟩))
        intro now hnow
        obtain ⟨id, hws, hreads⟩ := Option.bind_eq_some_iff.mp hopen
        have htick : p.step dev (.heartbeatInterval now) = { p with
            sent := p.sent ++ [(id, .ping)]
            client := { p.client with heartbeatWatchdog := some ⟨id, now⟩ } } := by
          rw [Page.step, Page.onHeartbeatInterval, if_pos ⟨hb, hrel.2⟩,
            probeLiveness_eq hws hreads]
        have hcoh : (p.step dev (.heartbeatInterval now)).Coherent := h.step _
        rw [htick] at hcoh ⊢
        refine (hcoh.onHeartbeatWatchdog_timers hrel ht).mpr ?_
        exact unanswered_iff.mpr ⟨⟨id, now⟩, rfl, hnow⟩
      · obtain ⟨pr, hp, -⟩ := unanswered_iff.mp hu
        refine Or.inr (Or.inr (Or.inl ⟨by simp [hp], ?_⟩))
        exact (h.onHeartbeatWatchdog_timers hrel ht).mpr hu
  · exact iff_of_true (Or.inl ht) (Or.inl ht)

theorem Coherent.notWedged_iff (h : p.Coherent) : p.NotWedged dev ↔ p.Good := by
  constructor
  · intro hnot hrel
    exact (h.guarded_iff_armed hrel).mp (hnot.1 hrel)
  · intro hgood
    refine ⟨?_, h.supersededIgnored⟩
    intro hrel
    exact (h.guarded_iff_armed hrel).mpr (hgood hrel)

end Blocks

/-! ### Runs -/

section Runs

variable (dev hidden : Bool)

theorem coherent_boot : (boot dev hidden).Coherent := by
  have hnew : Bare { hidden } := by
    refine ⟨?_, rfl, rfl, rfl, rfl⟩
    intro id s hs
    simp at hs
  exact hnew.coherent.connect

theorem good_boot : (boot dev hidden).Good := by
  refine good_connect.mpr ?_
  intro _ hopen
  simp [Page.current] at hopen

/-- The invariant holds in every state of every run. -/
theorem coherent_run (evs : List Event) : (evs.foldl (step dev) (boot dev hidden)).Coherent :=
  foldl_invariant (fun _ ev h => h.step ev) (coherent_boot dev hidden) evs

/-- **Events of a superseded socket change nothing**, in every state of every run. -/
theorem superseded_changes_nothing (evs : List Event) :
    (evs.foldl (step dev) (boot dev hidden)).SupersededIgnored dev :=
  (coherent_run dev hidden evs).supersededIgnored

/-- **Every state of a run is guarded exactly when its steps keep it so.** -/
theorem never_wedges_iff (evs : List Event) :
    Along (step dev) Keeps (boot dev hidden) evs ↔
      ∀ pre, pre <+: evs → NotWedged dev (pre.foldl (step dev) (boot dev hidden)) := by
  have hstep : ∀ (p : Page) (ev : Event), p.Coherent ∧ p.Good →
      (p.Keeps ev ↔ (p.step dev ev).Coherent ∧ (p.step dev ev).Good) := by
    rintro p ev ⟨hcoh, hgood⟩
    rw [hcoh.keeps_iff hgood ev]
    exact (and_iff_right (hcoh.step ev)).symm
  have hboot := And.intro (coherent_boot dev hidden) (good_boot dev hidden)
  rw [along_iff_forall_part (I := fun p : Page => p.Coherent ∧ p.Good) hstep hboot evs]
  refine forall_congr' fun pre => forall_congr' fun _ => ?_
  have hcoh := coherent_run dev hidden pre
  rw [hcoh.notWedged_iff]
  exact and_iff_right hcoh

end Runs

/-- **A socket that opens and stays silent is not guarded**: the handshake watchdog is off
at `open`, and the heartbeat starts at `hello`. -/
theorem wedged_between_open_and_hello :
    ¬ NotWedged false ([.socket 0 .opened].foldl (step false) (boot false false)) := by
  rw [(coherent_run false false [.socket 0 .opened]).notWedged_iff]
  intro hgood
  have harmed := hgood (by decide)
  exact absurd harmed (by decide)

/-- A page that was hidden while a forced reconnect dropped its socket comes back
`connected`, without a socket and without a timer. -/
theorem wedged_when_shown_again :
    ¬ NotWedged false ([.socket 0 .opened, .socket 0 (.message .hello 1),
      .visibilitychange true 2, .forceReconnect, .visibilitychange false 3].foldl (step false)
        (boot false false)) := by
  rw [(coherent_run false false _).notWedged_iff]
  intro hgood
  have harmed := hgood (by decide)
  exact absurd harmed (by decide)

end Page

end Pantoken
