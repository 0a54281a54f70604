import Pantoken.Client.Store
import Pantoken.Lib.Cut

/-!
# A client that is out of sync

A client holds the watermark of the last seed it was delivered.  A gap in the events of its
epoch latches a request for a fresh seed; a submitted draft blanks what it holds until the
seed of the new session; a switch or a reset moves the server on and sends a seed after.
In each case the client drops events until a seed comes, and it has no timer: when the seed
is lost, or the operation that would send it ends without one, nothing asks again.

Requests and messages travel: what the client sends waits in the socket, and what the server
sends in the channel of the connection, which loses messages when it is full.

## Main definitions

* `Socket`, `Conversation`, `Conversation.step` — a server and one of its clients; other
  clients are steps of the server.
* `Owed` — a seed is asked for, queued or under way.
* `Conversation.Recovers` — **a connected client whose latch is set, or that holds another
  session or epoch than its focus, has a seed on the way.**
* `Conversation.Keeps` — the condition under which a step leaves no client behind.
-/

namespace Pantoken

/-! ### The client -/

/-- The white space JavaScript's `trim` removes. -/
def Ts.isWhitespace (c : Char) : Bool :=
  let n := c.toNat
  (9 ≤ n ∧ n ≤ 13) ∨ n = 0x20 ∨ n = 0xa0 ∨ n = 0x1680 ∨ (0x2000 ≤ n ∧ n ≤ 0x200a) ∨
    n = 0x2028 ∨ n = 0x2029 ∨ n = 0x202f ∨ n = 0x205f ∨ n = 0x3000 ∨ n = 0xfeff

/-- `String.prototype.trim` -/
def Ts.trim (s : String) : String := String.ofList (Cut.trim Ts.isWhitespace s.toList)

/-- The client's end of its connection, with what it sent and the server has not read. -/
inductive Socket where
  | closed
  /-- The hello with its resume token is on the way. -/
  | opening (token : Option ResumeToken) (up : List ClientMessage)
  /-- The server serves the connection under this key. -/
  | opened (key : ℕ) (up : List ClientMessage)

/-- A server and one of its clients. -/
structure Conversation where
  server : Server
  store : Store
  socket : Socket
  /-- The options of the new session that is being drafted. -/
  draft : Option NewSessionOpts
  /-- The path of the session the last session list named as the active one. -/
  activeSessionPath : Option String

namespace Socket

/-- `send`, which an open socket takes. -/
def send (socket : Socket) (msgs : List ClientMessage) : Socket :=
  match socket with
  | .closed => .closed
  | .opening token up => .opening token (up ++ msgs)
  | .opened key up => .opened key (up ++ msgs)

end Socket

namespace Conversation

/-- What can happen. -/
inductive Action where
  /-- A step of the server, other connections included. -/
  | server (a : Server.Action)
  /-- The socket opens, and the client says hello with its watermark. -/
  | connect
  | close
  /-- The server reads the next thing the client sent. -/
  | upload
  /-- The next message of the channel reaches the client. -/
  | deliver
  /-- A message is lost to a full channel. -/
  | lose (key n : ℕ)
  /-- A session list names the active session. -/
  | listed (path : Option String)
  | startDraft (opts : NewSessionOpts)
  | cancelDraft
  | submitDraft (text : String) (images : List ImageContent) (promptId : String)
  | openSession (path : String)
  /-- The client sends something else: a prompt, a reload, a branch, its outbox again. -/
  | send (msg : ClientMessage)

/-- `submitDraft`: the session is asked for, and what the client holds is blanked. -/
def submitDraft (s : Conversation) (text : String) (images : List ImageContent)
    (promptId : String) : Conversation :=
  match s.draft with
  | none => s
  | some opts =>
    if Ts.trim text = "" ∧ images = [] then s
    else
      { s with
        socket := s.socket.send
          [.newSession opts (some (Ts.trim text)) (some images) (some promptId)]
        store := s.store.abandon
        draft := none }

/-- `openSession`, which leaves the draft; the active session is not opened again. -/
def openSession (s : Conversation) (path : String) : Conversation :=
  { s with
    socket :=
      if s.activeSessionPath = some path then s.socket else s.socket.send [.openSession path]
    draft := none }

/-- The next message of the channel reaches the client, over an open socket. -/
def deliver (s : Conversation) : Conversation :=
  match s.socket with
  | .opened key up =>
    match (s.server.hub.client key).bind (·.send.head?) with
    | none => s
    | some msg =>
      let (store, replies) := s.store.onServer true msg
      { s with
        server := { s.server with hub := System.keepMessages s.server.hub key List.tail }
        store := store
        socket := .opened key (up ++ replies) }
  | _ => s

/-- The server reads the hello, or the next message. -/
def upload (serde : Serde) (s : Conversation) : Conversation :=
  match s.socket with
  | .opening token up =>
    { s with
      server := s.server.input serde (.connect token)
      socket := .opened s.server.hub.nextClientKey up }
  | .opened key (msg :: up) =>
    { s with
      server := s.server.receive key msg
      socket := .opened key up }
  | _ => s

/-- A message on the client's own connection, which only the client sends. -/
def isOwn (s : Conversation) : Server.Action → Bool
  | .input (.receive key _) =>
    match s.socket with
    | .opened own _ => key = own
    | _ => false
  | _ => false

/-- A request for a seed, which the client sends of its own accord only. -/
def isRequestSeed : ClientMessage → Bool
  | .requestSeed _ => true
  | _ => false

/-- One step. -/
def step (serde : Serde) (s : Conversation) : Action → Conversation
  | .server a => if s.isOwn a then s else { s with server := s.server.step serde a }
  | .connect =>
    match s.socket with
    | .closed => { s with socket := .opening s.store.resumeToken [] }
    | _ => s
  | .close => { s with socket := .closed }
  | .upload => s.upload serde
  | .deliver => s.deliver
  | .lose key n =>
    { s with
      server := { s.server with
        hub := System.keepMessages s.server.hub key (·.eraseIdx n) } }
  | .listed path => { s with activeSessionPath := path }
  | .startDraft opts => { s with draft := some opts }
  | .cancelDraft => { s with draft := none }
  | .submitDraft text images promptId => s.submitDraft text images promptId
  | .openSession path => s.openSession path
  | .send msg => if isRequestSeed msg then s else { s with socket := s.socket.send [msg] }

/-- A run. -/
def run (serde : Serde) (s : Conversation) (acts : List Action) : Conversation :=
  acts.foldl (step serde) s

/-- Server and client at boot. -/
def boot (deltaFlushMs nowMs : ℕ) (defaultSeed : Option SwapSeed) : Conversation where
  server := Server.boot deltaFlushMs nowMs defaultSeed
  store := .initial
  socket := .closed
  draft := none
  activeSessionPath := none

end Conversation

/-! ### Seeds on the way -/

/-- The session and the epoch a seed brings. -/
def ServerMessage.seedMark : ServerMessage → Option (Option SessionId × ℕ)
  | .seed sessionId epoch _ _ => some (sessionId, epoch)
  | _ => none

/-- What the last seed of a channel brings. -/
def lastSeed : List ServerMessage → Option (Option SessionId × ℕ)
  | [] => none
  | msg :: msgs => (lastSeed msgs).or msg.seedMark

/-- The session and the epoch a client holds. -/
def Store.held (st : Store) : Option SessionId × ℕ := (st.seedSessionId, st.seedEpoch)

/-- The session and the epoch a client comes to hold by its channel. -/
def Store.headed (st : Store) (ch : List ServerMessage) : Option SessionId × ℕ :=
  (lastSeed ch).getD st.held

/-- The epoch of the journal of a focus. -/
def SessionHub.epochOf (h : SessionHub) (focusedId : Option SessionId) : Option ℕ :=
  (focusedId.bind h.journals).map (·.epoch)

/-- A session and an epoch are those of the journal of the focus, when it has one. -/
def Aligned (h : SessionHub) (focusedId : Option SessionId) (mark : Option SessionId × ℕ) :
    Prop :=
  ∀ epoch, h.epochOf focusedId = some epoch → mark = (focusedId, epoch)

/-- The next event of the client's epoch is in the channel. -/
def NextInChannel (st : Store) (ch : List ServerMessage) : Prop :=
  ∃ ev, ServerMessage.event ev st.seedEpoch (st.seedSeq + 1) ∈ ch

/-- The channel alone brings the client to its focus, and releases its latch. -/
def Steady (h : SessionHub) (st : Store) (focusedId : Option SessionId)
    (ch : List ServerMessage) : Prop :=
  Aligned h focusedId (st.headed ch) ∧
    (st.seedRequested = true → (lastSeed ch).isSome = true ∨ NextInChannel st ch)

/-- The server answers the message with a seed, at once or by a switch. -/
def ClientMessage.asksSeed : ClientMessage → Bool
  | .requestSeed _ | .openSession _ | .reloadSession _ | .branch .. | .newSession .. => true
  | .prompt .. | .detachSession _ => false

/-- The operation is a switch of the connection. -/
def HubOp.seeds (key : ℕ) : HubOp → Bool
  | .switch k _ | .newSession k _ _ => k = key
  | .prompt .. | .deltaFlush _ | .liveRefresh | .detachSession .. => false

/-- The switch of `k` has a seed for the connection to come: that of its requester, while
its call may return a session, or that of a co-viewer, once it has reseeded the journal. -/
def Stage.seeds (k key : ℕ) (focusedId : Option SessionId) : Stage → Prop
  | .begin | .entered | .fetching | .folded _ _ => k = key
  | .fetched seed | .returned (.ok seed) | .landed (.ok seed) =>
    k = key ∧ (SessionHub.seedSid seed.events).isSome = true
  | .installed sid | .seedBuilt sid _ => k ≠ key ∧ focusedId = some sid
  | .reseeding _ _ viewers => key ∈ viewers
  | .waiting | .returned (.error _) | .landed (.error _) | .finished _ => False

/-- The operation under way has a seed for the connection to come. -/
def Phase.seeds (key : ℕ) (focusedId : Option SessionId) : Phase → Prop
  | .switching k _ stage _ => stage.seeds k key focusedId
  | .idle | .prompting .. => False

/-- A seed is asked for on the socket, or a switch of the connection is queued. -/
def Asked (s : Server) (key : ℕ) (up : List ClientMessage) : Prop :=
  up.any ClientMessage.asksSeed = true ∨ s.queue.any (HubOp.seeds key) = true

/-- A seed is asked for, queued or under way. -/
def Owed (s : Server) (key : ℕ) (focusedId : Option SessionId) (up : List ClientMessage) :
    Prop :=
  Asked s key up ∨ s.phase.seeds key focusedId

namespace Conversation

/-- **A connected client recovers**: when its latch is set a seed is owed or in the channel,
or the next event is, which releases the latch; and when it holds another session or epoch
than those of its focus a seed is owed or in the channel. -/
def Recovers (s : Conversation) : Prop :=
  ∀ key up c, s.socket = .opened key up → s.server.hub.client key = some c →
    (s.store.seedRequested = true →
      Owed s.server key c.focusedId up ∨ (lastSeed c.send).isSome = true ∨
        NextInChannel s.store c.send) ∧
      (¬Aligned s.server.hub c.focusedId s.store.held →
        Owed s.server key c.focusedId up ∨ (lastSeed c.send).isSome = true)

/-- The driver's answer gives a switch no session. -/
def noSession : Answer → Bool
  | .failed _ | .panicked => true
  | .seed seed => (SessionHub.seedSid seed.events).isNone
  | .ok | .usages .. => false

/-- A section of the applier ends a switch of the client, or seeds it as a co-viewer. -/
def KeepsTick (s : Server) (st : Store) (key : ℕ) (up : List ClientMessage) (c : ClientConn)
    (answer : Answer) : Prop :=
  match s.phase with
  | .switching k _ .begin _ =>
    -- a switch that waits behind a panicked one sends nothing
    k = key → c.switchInFlight = true →
      Steady s.hub st c.focusedId c.send ∨ Asked s key up
  | .switching k _ .fetching _ =>
    k = key → noSession answer = true → Steady s.hub st c.focusedId c.send ∨ Asked s key up
  | .switching _ _ (.reseeding _ msg (viewer :: _)) _ =>
    -- the seed was built before, and a reset may have moved the journal on
    viewer = key →
      (∃ mark, msg.seedMark = some mark ∧ Aligned s.hub c.focusedId mark) ∨ Asked s key up
  | _ => True

/-- The server reads what the client sent: a hello whose token is refused finds its session
to be the default one, or another request behind it; a new session of a known prompt, for
which nothing is queued, leaves a client that has its seeds. -/
def KeepsUpload (s : Conversation) : Prop :=
  match s.socket with
  | .opening (some r) up =>
    s.server.hub.hasJournal r.sessionId = true → s.server.hub.resumes r = false →
      s.server.hub.defaultFocusId = none ∨ s.server.hub.defaultFocusId = some r.sessionId ∨
        up.any ClientMessage.asksSeed = true
  | .opened key (.newSession _ _ _ promptId :: up) =>
    (checkPromptIdempotency s.server.hub.prompts promptId).isSome = true →
      ∀ c, s.server.hub.client key = some c →
        Steady s.server.hub s.store c.focusedId c.send ∨ Owed s.server key c.focusedId up
  | _ => True

/-- **The step leaves the client no worse**: a switch of it that ends without a session, or
a message lost from its channel, leaves what brings it to its focus and releases its latch,
or another seed is asked for; a co-viewer's seed is not older than a reset of its journal;
and a hello is read as `KeepsUpload` says. -/
def Keeps (s : Conversation) : Action → Prop
  | .server (.tick _ answer) =>
    ∀ key up c, s.socket = .opened key up → s.server.hub.client key = some c →
      KeepsTick s.server s.store key up c answer
  | .upload => s.KeepsUpload
  | .lose key n =>
    ∀ up c, s.socket = .opened key up → s.server.hub.client key = some c →
      Steady s.server.hub s.store c.focusedId (c.send.eraseIdx n) ∨
        Owed s.server key c.focusedId up
  | _ => True

end Conversation

end Pantoken
