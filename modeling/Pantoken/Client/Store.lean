import Pantoken.Protocol.StateTs
import Pantoken.Server.Applier

/-!
# The client's gate

A client folds what the server sends it.  A seed replaces what it holds; an event is
folded when it is the next one of the epoch the client holds, and a gap makes it ask for
a fresh seed.

## Main definitions

* `Store`, `Store.onServer` — the fold and its watermark, and a message from the server.
* `Store.resumeToken`, `Store.abandon` — what a reconnect offers, and giving the fold up.
-/

namespace Pantoken

/-- The part of the client's store behind the gate. -/
structure Store where
  session : SessionState
  seedSessionId : Option SessionId
  seedEpoch : Nat
  seedSeq : Nat
  seedRequested : Bool
  pendingSeedRequest : Bool

namespace Store

/-- A store that holds nothing, as at boot. -/
def initial : Store := ⟨initialSessionState, none, 0, 0, false, false⟩

/-- `requestSeed`: one request at a time, kept for the next hello when the socket is
closed. -/
def requestSeed (st : Store) (online : Bool) : Store × List ClientMessage :=
  if st.seedRequested then (st, [])
  else
    let st := { st with seedRequested := true }
    if online then (st, [.requestSeed none]) else ({ st with pendingSeedRequest := true }, [])

/-- `onServer`, with the messages it sends back. -/
def onServer (st : Store) (online : Bool) : ServerMessage → Store × List ClientMessage
  | .hello =>
    if st.pendingSeedRequest then ({ st with pendingSeedRequest := false }, [.requestSeed none])
    else (st, [])
  | .seed sessionId epoch seq events =>
    (⟨Ts.foldAll events, sessionId, epoch, seq, false, false⟩, [])
  | .event event epoch seq =>
    -- an event of another build says nothing about this one; a gap asks for a seed
    if epoch ≠ st.seedEpoch then (st, [])
    else if seq ≠ st.seedSeq + 1 then st.requestSeed online
    else
      ({ st with
          session := Ts.foldEvent st.session event
          seedSeq := seq
          seedRequested := false
          pendingSeedRequest := false }, [])
  | .promptResult _ | .error _ | .switchError _ => (st, [])

/-- The resume token of a reconnect: the watermark, when there is one. -/
def resumeToken (st : Store) : Option ResumeToken :=
  match st.seedSessionId with
  | some sid => if sid ≠ "" ∧ st.seedEpoch > 0 then some ⟨sid, st.seedEpoch, st.seedSeq⟩ else none
  | none => none

/-- A submitted draft or a change of host blanks the session with its watermark. -/
def abandon (_ : Store) : Store := initial

end Store

/-! ### Clients and server together -/

/-- A client, with the key of its connection. -/
structure Peer where
  store : Store
  key : Option Nat

/-- The server and the clients modelled with their stores. -/
structure System where
  server : Server
  peers : List Peer

namespace System

/-- What can happen. -/
inductive Action where
  /-- A step of the server alone, other connections included. -/
  | server (a : Server.Action)
  /-- A client opens a connection, offering its watermark. -/
  | connect (i : Nat)
  | disconnect (i : Nat)
  /-- The next message of its channel reaches a client. -/
  | deliver (i : Nat) (online : Bool)
  /-- A message is lost to a full channel. -/
  | lose (key n : Nat)
  /-- A client gives up what it holds. -/
  | abandon (i : Nat)

/-- Change one client. -/
def updatePeer (s : System) (i : Nat) (f : Peer → Peer) : System :=
  { s with peers := s.peers.modify i f }

/-- Take the messages off a channel that a condition on their position keeps. -/
def keepMessages (h : SessionHub) (key : Nat) (f : List ServerMessage → List ServerMessage) :
    SessionHub :=
  h.updateClient key fun c => { c with send := f c.send }

/-- A message reaches a client, which may answer. -/
def receive (s : System) (i : Nat) (peer : Peer) (key : Nat) (online : Bool) : System :=
  match (s.server.hub.client key).bind (·.send.head?) with
  | none => s
  | some msg =>
    let (store, replies) := peer.store.onServer online msg
    let server := { s.server with hub := keepMessages s.server.hub key List.tail }
    -- the answers are received at once, on the connection the message came by
    { s with
      server := replies.foldl (fun s m => s.receive key m) server
      peers := s.peers.set i ⟨store, some key⟩ }

/-- One step. -/
def step (serde : Serde) (s : System) : Action → System
  | .server a => { s with server := s.server.step serde a }
  | .connect i =>
    match s.peers[i]? with
    | some peer =>
      { s with
        server := s.server.input serde (.connect peer.store.resumeToken)
        peers := s.peers.set i ⟨peer.store, some s.server.hub.nextClientKey⟩ }
    | none => s
  | .disconnect i =>
    match s.peers[i]? with
    | some ⟨store, some key⟩ =>
      { s with
        server := s.server.input serde (.disconnect key)
        peers := s.peers.set i ⟨store, none⟩ }
    | _ => s
  | .deliver i online =>
    match s.peers[i]? with
    | some ⟨store, some key⟩ => s.receive i ⟨store, some key⟩ key online
    | _ => s
  | .lose key n =>
    { s with
      server := { s.server with hub := keepMessages s.server.hub key (·.eraseIdx n) } }
  | .abandon i => s.updatePeer i fun p => { p with store := p.store.abandon }

/-- The server at boot and some clients that hold nothing. -/
def boot (server : Server) (clients : Nat) : System where
  server := server
  peers := List.replicate clients ⟨.initial, none⟩

end System

end Pantoken
