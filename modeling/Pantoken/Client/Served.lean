import Pantoken.Client.Conversation
import Pantoken.Client.Sync
import Pantoken.Server.Moves

/-!
# The server serves a connection

What keeps a seed on its way to a client, step by step of the server.  The moves of the hub
send events of the epoch and seeds of the journal; a switch of the client is queued, called,
installed and seeded; a reseed reaches the viewers of its journal; a hello is answered.

## Main definitions

* `SteadyAt` — the channel of a connection is steady.
* `Ascending` — every event of a channel is beyond what is before it in its epoch, so that a
  gap is a loss.
* `Served` — the channel brings the client to its focus, or a seed is owed.

## Main results

* `SteadyAt.moves`, `AscendingAt.moves` — what the moves of the hub keep.
* `Served.tick`, `Served.input`, `Served.receive_own` — a step of the server serves the
  client that was served.
* `served_connect` — a hello is answered.
-/

namespace Pantoken

/-! ### Channels -/

section Channel

variable {h h' : SessionHub} {st : Store} {focusedId : Option SessionId}
  {ch msgs : List ServerMessage}

theorem lastSeed_append (ch msgs : List ServerMessage) :
    lastSeed (ch ++ msgs) = (lastSeed msgs).or (lastSeed ch) := by
  induction ch with
  | nil => simp [lastSeed]
  | cons msg ch ih => rw [List.cons_append, lastSeed, ih, lastSeed, Option.or_assoc]

theorem lastSeed_singleton (msg : ServerMessage) : lastSeed [msg] = msg.seedMark := rfl

/-- A channel that grows by no seed, while the journal of the focus keeps its epoch. -/
theorem Steady.append (hs : Steady h st focusedId ch) (hmsgs : lastSeed msgs = none)
    (hepoch : ∀ epoch, h'.epochOf focusedId = some epoch → h.epochOf focusedId = some epoch) :
    Steady h' st focusedId (ch ++ msgs) := by
  have hlast : lastSeed (ch ++ msgs) = lastSeed ch := by
    rw [lastSeed_append, hmsgs, Option.none_or]
  refine ⟨?_, ?_⟩
  · intro epoch he
    unfold Store.headed
    rw [hlast]
    exact hs.1 epoch (hepoch epoch he)
  · intro hlatch
    rw [hlast]
    refine (hs.2 hlatch).imp_right ?_
    rintro ⟨ev, hev⟩
    exact ⟨ev, List.mem_append_left msgs hev⟩

theorem Steady.of_epoch (hs : Steady h st focusedId ch)
    (hepoch : ∀ epoch, h'.epochOf focusedId = some epoch → h.epochOf focusedId = some epoch) :
    Steady h' st focusedId ch := by
  have := @Steady.append h h' st focusedId ch [] hs rfl hepoch
  rwa [List.append_nil] at this

/-- A channel that ends with a current seed. -/
theorem steady_seed {msg : ServerMessage} {mark : Option SessionId × ℕ}
    (hmsg : msg.seedMark = some mark) (ha : Aligned h focusedId mark) :
    Steady h st focusedId (ch ++ [msg]) := by
  have hlast : lastSeed (ch ++ [msg]) = some mark := by
    rw [lastSeed_append, lastSeed_singleton, hmsg, Option.some_or]
  refine ⟨?_, ?_⟩
  · unfold Store.headed
    rw [hlast]
    exact ha
  · intro _
    rw [hlast]
    exact .inl rfl

/-- A seed the hub builds is current. -/
theorem aligned_seedMsg (h : SessionHub) (focusedId : Option SessionId) :
    ∃ mark, (h.seedMsg focusedId).seedMark = some mark ∧ Aligned h focusedId mark := by
  unfold SessionHub.seedMsg SessionHub.seedOf
  cases hj : focusedId.bind h.journals with
  | none =>
    refine ⟨(focusedId, 0), rfl, ?_⟩
    intro epoch he
    rw [SessionHub.epochOf, hj] at he
    cases he
  | some j =>
    refine ⟨(focusedId, j.epoch), rfl, ?_⟩
    intro epoch he
    rw [SessionHub.epochOf, hj] at he
    cases he
    rfl

end Channel

/-! ### Connections -/

section Client

variable {h h' : SessionHub} {key : ℕ}

theorem client_map {g : ClientConn → ClientConn} (hg : ∀ c, (g c).key = c.key)
    (hclients : h'.clients = h.clients.map g) : h'.client key = (h.client key).map g := by
  unfold SessionHub.client
  rw [hclients, List.find?_map]
  congr 2
  funext c
  simp only [Function.comp, hg]

theorem client_sendWhere (p : ClientConn → Bool) (msg : ServerMessage) :
    (h.sendWhere p msg).client key =
      (h.client key).map fun c => if p c then { c with send := c.send ++ [msg] } else c :=
  client_map (keepsSeat_send p msg).key rfl

/-- A change of one connection. -/
theorem client_updateClient (h : SessionHub) (k key : ℕ) (f : ClientConn → ClientConn)
    (hf : ∀ c, (f c).key = c.key) : (h.updateClient k f).client key =
      (h.client key).map fun c => if c.key = k then f c else c := by
  apply client_map
  · intro c
    split
    · exact hf c
    · rfl
  · rfl

theorem key_of_client {c : ClientConn} (hc : h.client key = some c) : c.key = key := by
  have := List.find?_some hc
  simpa using this

theorem mem_of_client {c : ClientConn} (hc : h.client key = some c) : c ∈ h.clients :=
  List.mem_of_find?_eq_some hc

/-- A send to another connection. -/
theorem client_sendToClient_of_ne {k : ℕ} (hk : k ≠ key) (msg : ServerMessage) :
    (h.sendToClient k msg).client key = h.client key := by
  unfold SessionHub.sendToClient
  rw [client_sendWhere]
  cases hc : h.client key with
  | none => rfl
  | some c =>
    have hne : c.key ≠ k := by
      rw [key_of_client hc]
      exact hk.symm
    simp [hne]

theorem client_sendToClient_self (msg : ServerMessage) : (h.sendToClient key msg).client key =
    (h.client key).map fun c => { c with send := c.send ++ [msg] } := by
  unfold SessionHub.sendToClient
  rw [client_sendWhere]
  cases hc : h.client key with
  | none => rfl
  | some c => simp [key_of_client hc]

theorem client_addClient (resume : Option ResumeToken) (hkey : key < h.nextClientKey) :
    (h.addClient resume).client key = h.client key := by
  have hne : h.nextClientKey ≠ key := by omega
  unfold SessionHub.addClient SessionHub.client
  dsimp only
  rw [List.find?_append, List.find?_singleton]
  simp [hne]

/-- A connection that is there after another has gone was there before. -/
theorem client_removeClient (k : ℕ) {c : ClientConn}
    (hc : (h.removeClient k).client key = some c) : h.client key = some c := by
  have hkept : c ∈ h.clients ∧ c.key ≠ k := by
    have := mem_of_client hc
    simpa [SessionHub.removeClient] using this
  have hkey : c.key = key := key_of_client hc
  have hne : key ≠ k := by
    rw [← hkey]
    exact hkept.2
  rw [← hc]
  unfold SessionHub.removeClient SessionHub.client
  dsimp only
  rw [List.find?_filter]
  congr 1
  funext c'
  by_cases hkey' : c'.key = key
  · simp [hkey', hne]
  · simp [hkey']

end Client

/-! ### A steady channel through the moves of the hub -/

/-- The connection, if it is there, has a steady channel. -/
def SteadyAt (h : SessionHub) (st : Store) (key : ℕ) : Prop :=
  ∀ c, h.client key = some c → Steady h st c.focusedId c.send

section Moves

open SessionHub

variable {serde : Serde} {h h' : SessionHub} {st : Store} {key : ℕ}

theorem epochOf_setJournal_of_ne {sid : SessionId} {j : SessionJournal}
    {focusedId : Option SessionId} (hne : focusedId ≠ some sid) :
    (h.setJournal sid j).epochOf focusedId = h.epochOf focusedId := by
  unfold SessionHub.epochOf SessionHub.setJournal
  cases focusedId with
  | none => rfl
  | some s =>
    have hs : s ≠ sid := fun heq => hne (congrArg some heq)
    simp only [Option.bind_some]
    rw [PMap.insert_of_ne _ _ hs]

/-- A routed event reaches the viewers, who hold its epoch; a reset seeds them. -/
theorem SteadyAt.stamp (hs : SteadyAt h st key) (order : HashOrder) (ev : SessionDriverEvent) :
    SteadyAt (h.ingestNow serde order ev) st key := by
  unfold SessionHub.ingestNow
  cases hj : h.journals ev.sid with
  | none => exact hs
  | some j =>
    have happend : ∀ j' : SessionJournal, j'.epoch = j.epoch →
        SteadyAt ((h.setJournal ev.sid j').sendFocused ev.sid (.event ev j'.epoch j'.seq))
          st key := by
      intro j' hepoch c' hc'
      unfold SessionHub.sendFocused at hc'
      rw [client_sendWhere] at hc'
      obtain ⟨c, hc, rfl⟩ := Option.map_eq_some_iff.mp hc'
      have hsteady := hs c hc
      by_cases hfocus : c.focusedId = some ev.sid
      · simp only [hfocus, decide_true, if_true]
        rw [hfocus] at hsteady
        refine hsteady.append rfl ?_
        intro epoch he
        have hnew : ((h.setJournal ev.sid j').sendFocused ev.sid
            (.event ev j'.epoch j'.seq)).epochOf (some ev.sid) = some j'.epoch := by
          show Option.map _ ((h.journals.insert ev.sid j') ev.sid) = _
          rw [PMap.insert_self]
          rfl
        rw [hnew, hepoch] at he
        rw [← he, SessionHub.epochOf, Option.bind_some, hj]
        rfl
      · simp only [hfocus, decide_false, Bool.false_eq_true, if_false]
        refine hsteady.of_epoch ?_
        intro epoch he
        rwa [← @epochOf_setJournal_of_ne h ev.sid j' c.focusedId hfocus]
    cases ev with
    | sessionReset base =>
      intro c' hc'
      dsimp only at hc' ⊢
      unfold SessionHub.sendFocused at hc'
      rw [client_sendWhere] at hc'
      obtain ⟨c, hc, rfl⟩ := Option.map_eq_some_iff.mp hc'
      by_cases hfocus : c.focusedId = some (SessionDriverEvent.sessionReset base).sid
      · simp only [hfocus, decide_true, if_true]
        obtain ⟨mark, hmark, ha⟩ := aligned_seedMsg
          (h.nextEpoch.setJournal (SessionDriverEvent.sessionReset base).sid
            (resetJournal order j (.sessionReset base) h.nextEpoch.epochCounter))
          (some (SessionDriverEvent.sessionReset base).sid)
        exact steady_seed hmark ha
      · simp only [hfocus, decide_false, Bool.false_eq_true, if_false]
        refine (hs c hc).of_epoch ?_
        intro epoch he
        show h.nextEpoch.epochOf c.focusedId = some epoch
        rwa [← @epochOf_setJournal_of_ne h.nextEpoch _ (resetJournal order j (.sessionReset base)
          h.nextEpoch.epochCounter) c.focusedId hfocus]
    | _ => exact happend _ rfl

theorem SteadyAt.sendToClient (hs : SteadyAt h st key) (k : ℕ) {msg : ServerMessage}
    (hmsg : msg.seedMark = none) : SteadyAt (h.sendToClient k msg) st key := by
  intro c' hc'
  by_cases hk : k = key
  · subst hk
    rw [client_sendToClient_self] at hc'
    obtain ⟨c, hc, rfl⟩ := Option.map_eq_some_iff.mp hc'
    exact (hs c hc).append hmsg fun _ he => he
  · rw [client_sendToClient_of_ne hk] at hc'
    exact hs c' hc'

theorem seedMark_of_isNote {msg : ServerMessage} (hmsg : msg.isNote = true) :
    msg.seedMark = none := by
  cases msg with
  | seed | event => cases hmsg
  | hello | promptResult | error | switchError => rfl

/-- A change of connections that keeps what they view and what they are sent. -/
theorem SteadyAt.map {g : ClientConn → ClientConn} (hs : SteadyAt h st key)
    (hg : ∀ c, (g c).key = c.key ∧ (g c).focusedId = c.focusedId ∧ (g c).send = c.send)
    (hclients : h'.clients = h.clients.map g) (hj : h'.journals = h.journals) :
    SteadyAt h' st key := by
  intro c' hc'
  rw [client_map (fun c => (hg c).1) hclients] at hc'
  obtain ⟨c, hc, rfl⟩ := Option.map_eq_some_iff.mp hc'
  rw [(hg c).2.1, (hg c).2.2]
  refine (hs c hc).of_epoch ?_
  intro epoch he
  unfold SessionHub.epochOf at he ⊢
  rwa [hj] at he

theorem SteadyAt.move (hs : SteadyAt h st key) (hm : Move serde h h') : SteadyAt h' st key := by
  cases hm with
  | buffer hj he hc hn hd => exact hs.map (g := id) (fun _ => ⟨rfl, rfl, rfl⟩) (by simp [hc]) hj
  | stamp order ev => exact hs.stamp order ev
  | close ev =>
    cases ev with
    | sessionClosed base reason =>
      simp only [SessionHub.closeJournal]
      split_ifs
      · intro c hc
        refine (hs c hc).of_epoch ?_
        intro epoch he
        cases hfocus : c.focusedId with
        | none =>
          rw [hfocus] at he
          exact he
        | some sid =>
          rw [hfocus] at he
          change Option.map _ ((h.journals.erase _) sid) = some epoch at he
          rw [PMap.erase_apply] at he
          split at he
          · cases he
          · exact he
      · exact hs
    | _ => exact hs
  | note k hmsg => exact hs.sendToClient k (seedMark_of_isNote hmsg)
  | @mark k f only queues =>
    refine hs.map (g := fun c => if c.key = k then f c else c) ?_ rfl rfl
    intro c
    split
    · rw [only]
      exact ⟨rfl, rfl, rfl⟩
    · exact ⟨rfl, rfl, rfl⟩

theorem SteadyAt.moves (hs : SteadyAt h st key) (hm : Moves serde h h') : SteadyAt h' st key := by
  induction hm with
  | refl => exact hs
  | tail _ hstep ih => exact ih.move hstep

end Moves

/-! ### The events of a channel ascend -/

/-- The epoch and the sequence number of a message. -/
def ServerMessage.position : ServerMessage → Option (ℕ × ℕ)
  | .seed _ epoch seq _ | .event _ epoch seq => some (epoch, seq)
  | _ => none

/-- The message comes before the other: an event is beyond what is before it in its epoch. -/
def ServerMessage.Before (msg msg' : ServerMessage) : Prop :=
  ∀ ev epoch seq, msg' = .event ev epoch seq → ∀ n, msg.position = some (epoch, n) → n < seq

/-- What the client holds, as a seed it was delivered. -/
def Store.mark (st : Store) : ServerMessage := .seed st.seedSessionId st.seedEpoch st.seedSeq []

/-- Every event of the channel is beyond what the client holds, and what is before it in the
channel, of its epoch. -/
def Ascending (st : Store) (ch : List ServerMessage) : Prop :=
  (st.mark :: ch).Pairwise ServerMessage.Before

/-- The connection, if it is there, has an ascending channel. -/
def AscendingAt (h : SessionHub) (st : Store) (key : ℕ) : Prop :=
  ∀ c, h.client key = some c → Ascending st c.send

section Ascending

open SessionHub

variable {serde : Serde} {B : Builds} {h h' : SessionHub} {st : Store} {key : ℕ}
  {ch : List ServerMessage}

theorem before_of_ne_event {msg msg' : ServerMessage}
    (hmsg : ∀ ev epoch seq, msg' ≠ .event ev epoch seq) : msg.Before msg' :=
  fun ev epoch seq heq => absurd heq (hmsg ev epoch seq)

theorem Ascending.concat (ha : Ascending st ch) {msg : ServerMessage}
    (hmsg : ∀ msg' ∈ st.mark :: ch, msg'.Before msg) : Ascending st (ch ++ [msg]) := by
  unfold Ascending at ha ⊢
  rw [← List.cons_append, List.pairwise_append]
  refine ⟨ha, List.pairwise_singleton _ _, ?_⟩
  intro msg' hmem m hm
  rw [List.mem_singleton.mp hm]
  exact hmsg msg' hmem

theorem HubOk.zero (hh : HubOk serde B h) : B 0 = none := by
  cases hb : B 0 with
  | none => rfl
  | some b => exact absurd (hh.fresh 0 b hb).1 (Nat.lt_irrefl 0)

/-- A message of a build is not beyond it. -/
theorem MsgOk.le {msg : ServerMessage} (hm : MsgOk B msg) (hB : B 0 = none) {epoch n : ℕ}
    {b : SessionBuild} (hb : B epoch = some b) (hpos : msg.position = some (epoch, n)) :
    n ≤ b.stamped.length := by
  cases msg with
  | seed sessionId e q events =>
    cases hpos
    rcases hm with ⟨rfl, -, -⟩ | ⟨b', hb', -, hle, -⟩
    · rw [hB] at hb
      cases hb
    · rw [hb] at hb'
      cases hb'
      exact hle
  | event ev e q =>
    cases hpos
    obtain ⟨b', hb', hpos, hev⟩ := hm
    rw [hb] at hb'
    cases hb'
    have := (List.getElem?_eq_some_iff.mp hev).1
    omega
  | hello | promptResult | error | switchError => cases hpos

/-- What a client holds of a build is not beyond it. -/
theorem StoreOk.le (hst : StoreOk B st) (hB : B 0 = none) {epoch n : ℕ} {b : SessionBuild}
    (hb : B epoch = some b) (hpos : st.mark.position = some (epoch, n)) :
    n ≤ b.stamped.length := by
  cases hpos
  rcases hst with ⟨hzero, -, -⟩ | ⟨b', hb', -, hle, -⟩
  · rw [hzero, hB] at hb
    cases hb
  · rw [hb] at hb'
    cases hb'
    exact hle

theorem AscendingAt.stamp (hh : HubOk serde B h) (hst : StoreOk B st)
    (ha : AscendingAt h st key) (order : HashOrder) (ev : SessionDriverEvent) :
    AscendingAt (h.ingestNow serde order ev) st key := by
  unfold SessionHub.ingestNow
  cases hj : h.journals ev.sid with
  | none => exact ha
  | some j =>
    have hsend : ∀ (h₁ : SessionHub) (msg : ServerMessage), h₁.clients = h.clients →
        (∀ c ∈ h.clients, ∀ msg' ∈ st.mark :: c.send, msg'.Before msg) →
        AscendingAt (h₁.sendFocused ev.sid msg) st key := by
      intro h₁ msg hclients hmsg c' hc'
      unfold SessionHub.sendFocused at hc'
      rw [client_sendWhere] at hc'
      obtain ⟨c, hc, rfl⟩ := Option.map_eq_some_iff.mp hc'
      have hc₀ : h.client key = some c := by
        unfold SessionHub.client at hc ⊢
        rwa [← hclients]
      split_ifs
      · exact (ha c hc₀).concat (hmsg c (mem_of_client hc₀))
      · exact ha c hc₀
    -- the number of the event is beyond the build there was
    have hevent : AscendingAt ((h.setJournal ev.sid (appendEvent serde j ev)).sendFocused ev.sid
        (.event ev (appendEvent serde j ev).epoch (appendEvent serde j ev).seq)) st key := by
      refine hsend _ _ rfl ?_
      obtain ⟨b, hb, -, hrep⟩ := hh.journal ev.sid j hj
      have hseq : j.seq = b.stamped.length := hrep.seq_eq
      intro c hc msg' hmem ev' epoch seq heq n hpos
      cases heq
      show n < j.seq + 1
      rcases List.mem_cons.mp hmem with rfl | hmem
      · have := hst.le hh.zero hb hpos
        omega
      · have := (hh.sent c hc msg' hmem).le hh.zero hb hpos
        omega
    cases ev with
    | sessionReset base =>
      refine hsend _ _ rfl ?_
      intro c _ msg' _
      apply before_of_ne_event
      intro ev epoch seq heq
      obtain ⟨mark, hmark, -⟩ := aligned_seedMsg (h.nextEpoch.setJournal
        (SessionDriverEvent.sessionReset base).sid
        (resetJournal order j (.sessionReset base) h.nextEpoch.epochCounter))
        (some (SessionDriverEvent.sessionReset base).sid)
      rw [heq] at hmark
      cases hmark
    | _ => exact hevent

theorem AscendingAt.sendToClient (ha : AscendingAt h st key) (k : ℕ) {msg : ServerMessage}
    (hmsg : ∀ ev epoch seq, msg ≠ .event ev epoch seq) :
    AscendingAt (h.sendToClient k msg) st key := by
  intro c' hc'
  by_cases hk : k = key
  · subst hk
    rw [client_sendToClient_self] at hc'
    obtain ⟨c, hc, rfl⟩ := Option.map_eq_some_iff.mp hc'
    exact (ha c hc).concat fun _ _ => before_of_ne_event hmsg
  · rw [client_sendToClient_of_ne hk] at hc'
    exact ha c' hc'

theorem AscendingAt.map {g : ClientConn → ClientConn} (ha : AscendingAt h st key)
    (hg : ∀ c, (g c).key = c.key ∧ (g c).send = c.send)
    (hclients : h'.clients = h.clients.map g) : AscendingAt h' st key := by
  intro c' hc'
  rw [client_map (fun c => (hg c).1) hclients] at hc'
  obtain ⟨c, hc, rfl⟩ := Option.map_eq_some_iff.mp hc'
  rw [(hg c).2]
  exact ha c hc

theorem AscendingAt.move (hh : HubOk serde B h) (hst : StoreOk B st) (ha : AscendingAt h st key)
    (hm : Move serde h h') : AscendingAt h' st key := by
  cases hm with
  | buffer hj he hc hn hd => exact ha.map (g := id) (fun _ => ⟨rfl, rfl⟩) (by simp [hc])
  | stamp order ev => exact ha.stamp hh hst order ev
  | close ev =>
    cases ev with
    | sessionClosed base reason =>
      simp only [SessionHub.closeJournal]
      split_ifs <;> exact ha
    | _ => exact ha
  | @note k msg hmsg =>
    apply ha.sendToClient
    rintro ev epoch seq rfl
    cases hmsg
  | @mark k f only queues =>
    refine ha.map (g := fun c => if c.key = k then f c else c) ?_ rfl
    intro c
    split
    · rw [only]
      exact ⟨rfl, rfl⟩
    · exact ⟨rfl, rfl⟩

theorem AscendingAt.moves (hh : HubOk serde B h) (hst : StoreOk B st) (ha : AscendingAt h st key)
    (hm : Moves serde h h') : AscendingAt h' st key := by
  induction hm using Relation.ReflTransGen.head_induction_on generalizing B with
  | refl => exact ha
  | head hstep _ ih =>
    obtain ⟨B', hB, hh'⟩ := hh.move hstep
    exact ih hh' (hst.mono hB) (ha.move hh hst hstep)

end Ascending

/-- A seed that is built and not yet sent is one. -/
def Phase.SeedReady (p : Phase) : Prop :=
  ∀ msg, p.unsent = some msg → msg.seedMark.isSome = true

section Sections

open SessionHub

variable {serde : Serde} {B : Builds} {s : Server} {st : Store} {key : ℕ}

theorem ne_event_of_seedMark {msg : ServerMessage} (hmsg : msg.seedMark.isSome = true)
    (ev : SessionDriverEvent) (epoch seq : ℕ) : msg ≠ .event ev epoch seq := by
  rintro rfl
  cases hmsg

theorem seedMark_seedMsg (h : SessionHub) (sid : Option SessionId) :
    (h.seedMsg sid).seedMark.isSome = true := by
  obtain ⟨mark, hmark, -⟩ := aligned_seedMsg h sid
  rw [hmark]
  rfl

theorem seedReady_tick (h : s.phase.SeedReady) (m : Moment) (answer : Answer) :
    (s.tick serde m answer).phase.SeedReady := by
  intro msg hmsg
  rcases @unsent_tick serde s m answer with hnone | hsame | ⟨sid, hseed⟩
  · rw [hnone] at hmsg
    cases hmsg
  · rw [hsame] at hmsg
    exact h msg hmsg
  · rw [hseed] at hmsg
    cases hmsg
    exact seedMark_seedMsg s.hub (some sid)

/-- A section of the applier sends events by moves alone. -/
theorem AscendingAt.tick (hs : ServerOk serde B s) (hst : StoreOk B st)
    (hready : s.phase.SeedReady) (ha : AscendingAt s.hub st key) (m : Moment) (answer : Answer) :
    AscendingAt (s.tick serde m answer).hub st key := by
  have hmark : ∀ (h : SessionHub) (k : ℕ) (f : ClientConn → ClientConn),
      (∀ c, (f c).key = c.key ∧ (f c).send = c.send) → AscendingAt h st key →
      AscendingAt (h.updateClient k f) st key := by
    intro h k f hf hat
    refine hat.map (g := fun c => if c.key = k then f c else c) ?_ rfl
    intro c
    split
    · exact hf c
    · exact ⟨rfl, rfl⟩
  rcases @tick_hub serde s m answer with hm | ⟨k, sw, first, c, hphase, hc, hmarked⟩ |
    ⟨k, sw, seed, sid, first, hphase⟩ | ⟨k, sw, sid, msg, viewer, viewers, first, hphase⟩
  · exact ha.moves hs.hub hst hm
  · simp only [Server.tick, hphase, Server.tickSwitch, hc, hmarked, if_true]
    exact hmark s.hub k _ (fun _ => ⟨rfl, rfl⟩) ha
  · have hjournal : AscendingAt (Server.installJournal s.hub sw seed sid) st key := by
      refine ha.map (g := id) (fun _ => ⟨rfl, rfl⟩) ?_
      rw [(installJournal_clients s.hub sw seed sid).1, List.map_id]
    simp only [Server.tick, hphase, Server.tickSwitch, Server.install]
    split
    · exact hjournal
    · have hfocus := hmark _ k (fun c => { c with focusedId := some sid })
        (fun _ => ⟨rfl, rfl⟩) hjournal
      apply AscendingAt.sendToClient hfocus
      exact ne_event_of_seedMark (seedMark_seedMsg _ _)
  · have hmsg : msg.seedMark.isSome = true := by
      apply hready
      rw [hphase]
      rfl
    simp only [Server.tick, hphase, Server.tickSwitch]
    exact ha.sendToClient viewer (ne_event_of_seedMark hmsg)

theorem AscendingAt.receive (ha : AscendingAt s.hub st key) (k : ℕ) (msg : ClientMessage) :
    AscendingAt (s.receive k msg).hub st key := by
  have hnote : ∀ promptId op, AscendingAt (s.enqueueOnce k promptId op).hub st key := by
    intro promptId op
    unfold Server.enqueueOnce
    split
    · apply ha.sendToClient
      rintro ev epoch seq ⟨⟩
    · exact ha
  cases msg with
  | prompt | newSession => exact hnote _ _
  | requestSeed sid =>
    apply ha.sendToClient
    exact ne_event_of_seedMark (seedMark_seedMsg _ _)
  | openSession | reloadSession | branch | detachSession => exact ha

theorem AscendingAt.input (hs : ServerOk serde B s) (hst : StoreOk B st)
    (ha : AscendingAt s.hub st key) (hkey : key < s.hub.nextClientKey) (i : Server.Input) :
    AscendingAt (s.input serde i).hub st key := by
  cases i with
  | event m ev => exact ha.moves hs.hub hst (moves_onEvent m ev)
  | connect resume =>
    intro c hc
    apply ha c
    rwa [← client_addClient resume hkey]
  | disconnect k =>
    intro c hc
    exact ha c (client_removeClient k hc)
  | receive k msg => exact ha.receive k msg
  | timer | liveTimer | evict | disposeIdle => exact ha

end Sections

/-! ### The server serves the connection -/

/-- The connection, if it is there, has a channel that brings its client to its focus, or a
seed is owed. -/
def Served (s : Server) (st : Store) (key : ℕ) (up : List ClientMessage) : Prop :=
  ∀ c, s.hub.client key = some c →
    Steady s.hub st c.focusedId c.send ∨ Owed s key c.focusedId up

section Served

open SessionHub

variable {serde : Serde} {s s' : Server} {st : Store} {key : ℕ} {up : List ClientMessage}

theorem Asked.mono {up' : List ClientMessage} (h : Asked s key up) (hup : up ⊆ up')
    (hqueue : s.queue ⊆ s'.queue) : Asked s' key up' := by
  rcases h with h | h
  · obtain ⟨msg, hmem, hmsg⟩ := List.any_eq_true.mp h
    exact .inl (List.any_eq_true.mpr ⟨msg, hup hmem, hmsg⟩)
  · obtain ⟨op, hmem, hop⟩ := List.any_eq_true.mp h
    exact .inr (List.any_eq_true.mpr ⟨op, hqueue hmem, hop⟩)

/-- Moves of the hub, where what was owed still is, or nothing is needed. -/
theorem Served.of_moves {up' : List ClientMessage} (h : Served s st key up)
    (hm : Moves serde s.hub s'.hub)
    (howed : ∀ c, s.hub.client key = some c → Owed s key c.focusedId up →
      Steady s.hub st c.focusedId c.send ∨ Owed s' key c.focusedId up') :
    Served s' st key up' := by
  intro c' hc'
  obtain ⟨g, hg, heq⟩ := SessionHub.Moves.sameSeats hm
  have hmap := hc'
  rw [client_map hg.key heq] at hmap
  obtain ⟨c, hc, rfl⟩ := Option.map_eq_some_iff.mp hmap
  have hsteady : Steady s.hub st c.focusedId c.send →
      Steady s'.hub st (g c).focusedId (g c).send := by
    intro hsteady
    have hat : SteadyAt s.hub st key := by
      intro c₀ hc₀
      rw [hc] at hc₀
      cases hc₀
      exact hsteady
    exact hat.moves hm (g c) hc'
  rcases h c hc with h | h
  · exact .inl (hsteady h)
  · rw [hg.focusedId]
    exact (howed c hc h).imp_left fun h => hg.focusedId c ▸ hsteady h

theorem afterSwitch_queue (s : Server) (key : ℕ) (sid : Option SessionId)
    (first : Option FirstPrompt) : (s.afterSwitch key sid first).queue = s.queue := by
  unfold Server.afterSwitch
  split
  · rfl
  · split <;> rfl

theorem queue_subset_release (s : Server) (key : ℕ) (sid : Option SessionId)
    (first : Option FirstPrompt) : s.queue ⊆ (s.release key sid first).queue := by
  unfold Server.release
  dsimp only
  rw [afterSwitch_queue]
  split
  · exact List.subset_cons_self _ _
  · exact List.Subset.refl _

/-- A section of a switch that ends nothing of the connection. -/
theorem Served.tickSwitch (serde : Serde) {k : ℕ} {sw : Switch} {stage : Stage}
    {first : Option FirstPrompt} (h : Served s st key up)
    (hphase : s.phase = .switching k sw stage first) (answer : Answer)
    (hkeeps : ∀ c, s.hub.client key = some c → Conversation.KeepsTick s st key up c answer)
    (hbegin : ∀ c, stage = .begin → s.hub.client k = some c → c.switchInFlight = false)
    (hfolded : ∀ seed sid, stage ≠ .folded seed sid)
    (hreseeding : ∀ sid msg viewer viewers, stage ≠ .reseeding sid msg (viewer :: viewers)) :
    Served (s.tickSwitch k sw stage first answer) st key up := by
  have hm : Moves serde s.hub (s.tickSwitch k sw stage first answer).hub :=
    moves_tickSwitch k sw first answer hbegin hfolded hreseeding
  refine h.of_moves hm ?_
  intro c hc howed
  have hstage : Asked s key up ∨ stage.seeds k key c.focusedId := by
    unfold Owed at howed
    rwa [hphase] at howed
  have hkeep := hkeeps c hc
  cases stage with
  | begin =>
    right
    simp only [Server.tickSwitch]
    split
    · next c₀ hc₀ =>
      rw [hbegin c₀ rfl hc₀, if_neg Bool.false_ne_true]
      exact hstage
    · exact hstage
  | waiting =>
    right
    simp only [Server.tickSwitch]
    split
    · exact howed
    · refine .inl (Asked.mono (hstage.resolve_right id) (List.Subset.refl _) ?_)
      rw [afterSwitch_queue]
      exact List.Subset.refl _
  | entered | fetched => exact .inr hstage
  | returned result => cases result <;> exact .inr hstage
  | fetching =>
    simp only [Conversation.KeepsTick, hphase] at hkeep
    cases answer with
    | seed seed =>
      rcases hstage with hasked | rfl
      · exact .inr (.inl hasked)
      · cases hsid : SessionHub.seedSid seed.events with
        | some sid => exact .inr (.inr ⟨rfl, by rw [hsid]; rfl⟩)
        | none =>
          have hno : Conversation.noSession (.seed seed) = true := by
            simp only [Conversation.noSession, hsid, Option.isNone_none]
          exact (hkeep rfl hno).imp_right .inl
    | failed | panicked =>
      rcases hstage with hasked | rfl
      · exact .inr (.inl hasked)
      · exact (hkeep rfl rfl).imp_right .inl
    | ok | usages => exact .inr howed
  | landed result =>
    right
    cases result with
    | error raw => exact .inl (hstage.resolve_right id)
    | ok seed =>
      simp only [Server.tickSwitch]
      split
      · exact hstage.imp_right fun h => h.1
      · next hnone =>
        rcases hstage with hasked | ⟨-, hsome⟩
        · exact .inl hasked
        · rw [hnone] at hsome
          cases hsome
  | folded seed sid => exact absurd rfl (hfolded seed sid)
  | installed sid => exact .inr hstage
  | seedBuilt sid msg =>
    right
    refine hstage.imp_right ?_
    rintro ⟨hne, hfocus⟩
    show key ∈ (s.hub.clients.filter fun c => c.key ≠ k ∧ c.focusedId = some sid).map (·.key)
    have hkey := key_of_client hc
    refine List.mem_map.mpr ⟨c, List.mem_filter.mpr ⟨mem_of_client hc, ?_⟩, hkey⟩
    rw [hkey]
    simp [hne.symm, hfocus]
  | reseeding sid msg viewers =>
    right
    cases viewers with
    | nil => exact .inl (hstage.resolve_right List.not_mem_nil)
    | cons viewer viewers => exact absurd rfl (hreseeding sid msg viewer viewers)
  | finished sid =>
    right
    refine .inl (Asked.mono (hstage.resolve_right id) (List.Subset.refl _) ?_)
    exact queue_subset_release s k sid first

/-- The client a switch is installed for ends on a seed of its new focus. -/
theorem steady_seedRequester (h : SessionHub) (st : Store) (k : ℕ) (sid : SessionId) :
    SteadyAt (Server.seedRequester h k sid) st k := by
  intro c' hc'
  unfold Server.seedRequester at hc'
  rw [client_sendToClient_self] at hc'
  obtain ⟨c₁, hc₁, rfl⟩ := Option.map_eq_some_iff.mp hc'
  have hfocus : c₁.focusedId = some sid := by
    unfold SessionHub.setClientFocus at hc₁
    rw [client_updateClient _ k k (fun c => { c with focusedId := some sid })
      fun _ => rfl] at hc₁
    obtain ⟨c, hc, rfl⟩ := Option.map_eq_some_iff.mp hc₁
    rw [if_pos (key_of_client hc)]
  obtain ⟨mark, hmark, ha⟩ := aligned_seedMsg (h.setClientFocus k sid) (some sid)
  refine steady_seed hmark ?_
  show Aligned _ c₁.focusedId mark
  rw [hfocus]
  exact ha

/-- Another client keeps its focus and its channel. -/
theorem client_seedRequester_of_ne (h : SessionHub) {k : ℕ} (hk : k ≠ key) (sid : SessionId)
    {c : ClientConn} (hc : (Server.seedRequester h k sid).client key = some c) :
    h.client key = some c := by
  unfold Server.seedRequester at hc
  rw [client_sendToClient_of_ne hk] at hc
  unfold SessionHub.setClientFocus at hc
  rw [client_updateClient _ k key (fun c => { c with focusedId := some sid }) fun _ => rfl] at hc
  obtain ⟨c₀, hc₀, rfl⟩ := Option.map_eq_some_iff.mp hc
  have hne : c₀.key ≠ k := by
    rw [key_of_client hc₀]
    exact hk.symm
  rw [if_neg hne]
  exact hc₀

theorem epochOf_installJournal_of_ne (h : SessionHub) (sw : Switch) (seed : SwapSeed)
    {sid : SessionId} {focusedId : Option SessionId} (hne : focusedId ≠ some sid) :
    (Server.installJournal h sw seed sid).epochOf focusedId = h.epochOf focusedId := by
  unfold Server.installJournal
  split
  · exact @epochOf_setJournal_of_ne h sid _ focusedId hne
  · rfl

/-- The client a switch is installed for is seeded; the viewers of a reseeded journal are
seeded after it. -/
theorem Served.install {k : ℕ} {sw : Switch} {seed : SwapSeed} {sid : SessionId}
    {first : Option FirstPrompt} (h : Served s st key up) (hseated : s.Seated)
    (hphase : s.phase = .switching k sw (.folded seed sid) first) :
    Served (s.install k sw seed sid first) st key up := by
  have hpending : s.hub.NoPending := by
    apply hseated.noPending
    intro key' sw' first' heq
    rw [hphase] at heq
    cases heq
  obtain ⟨hhub, hphase'⟩ := install_hub hpending k sw seed sid first
  intro c' hc'
  rw [hhub] at hc' ⊢
  by_cases hk : k = key
  · subst hk
    exact .inl (steady_seedRequester _ st k sid c' hc')
  · have hc : s.hub.client key = some c' := by
      have hclients := (installJournal_clients s.hub sw seed sid).1
      have hkept := client_seedRequester_of_ne _ hk sid hc'
      unfold SessionHub.client at hkept ⊢
      rwa [hclients] at hkept
    have howed : Owed s key c'.focusedId up →
        Owed (s.install k sw seed sid first) key c'.focusedId up := by
      rintro (hasked | hseeds)
      · exact .inl hasked
      · rw [hphase] at hseeds
        exact absurd hseeds hk
    by_cases hfocus : c'.focusedId = some sid
    · have hviewed : s.hub.hasJournal sid = true := by
        apply hseated.viewed sid
        refine .inl (List.any_eq_true.mpr ⟨c', mem_of_client hc, ?_⟩)
        simp [hfocus]
      cases hreseed : sw.reseed with
      | true =>
        right
        refine .inr ?_
        rw [hphase', hreseed]
        exact ⟨hk, hfocus⟩
      | false =>
        have hkept : Server.installJournal s.hub sw seed sid = s.hub := by
          unfold Server.installJournal
          rw [if_neg (by simp [hreseed, hviewed])]
        rw [hkept]
        exact (h c' hc).imp (fun hsteady => hsteady.of_epoch fun _ he => he) howed
    · refine (h c' hc).imp (fun hsteady => hsteady.of_epoch ?_) howed
      intro epoch he
      rw [← epochOf_installJournal_of_ne s.hub sw seed hfocus]
      exact he

/-- A switch that waits behind a panicked one. -/
theorem Served.tickWaiting {k : ℕ} {sw : Switch} {first : Option FirstPrompt}
    (h : Served s st key up) (hphase : s.phase = .switching k sw .begin first) (answer : Answer)
    (hkeeps : ∀ c, s.hub.client key = some c → Conversation.KeepsTick s st key up c answer)
    {c₀ : ClientConn} (hc₀ : s.hub.client k = some c₀) (hmarked : c₀.switchInFlight = true) :
    Served (s.tickSwitch k sw .begin first answer) st key up := by
  have hnext : s.tickSwitch k sw .begin first answer = { s with
      hub := s.hub.updateClient k fun c => { c with pendingSwitch := some sw }
      phase := .switching k sw .waiting first } := by
    simp only [Server.tickSwitch, hc₀, hmarked, if_true]
  rw [hnext]
  intro c' hc'
  rw [client_updateClient _ k key (fun c => { c with pendingSwitch := some sw })
    fun _ => rfl] at hc'
  obtain ⟨c, hc, rfl⟩ := Option.map_eq_some_iff.mp hc'
  have hsame : (if c.key = k then { c with pendingSwitch := some sw } else c).focusedId =
      c.focusedId ∧
      (if c.key = k then { c with pendingSwitch := some sw } else c).send = c.send := by
    split <;> exact ⟨rfl, rfl⟩
  rw [hsame.1, hsame.2]
  have hkeep := hkeeps c hc
  simp only [Conversation.KeepsTick, hphase] at hkeep
  have hkept : Steady s.hub st c.focusedId c.send ∨ Asked s key up := by
    rcases h c hc with hsteady | hasked | hseeds
    · exact .inl hsteady
    · exact .inr hasked
    · rw [hphase] at hseeds
      obtain rfl : k = key := hseeds
      obtain rfl : c₀ = c := Option.some.inj (hc₀.symm.trans hc)
      exact hkeep rfl hmarked
  exact hkept.imp (fun hsteady => hsteady.of_epoch fun _ he => he) .inl

/-- The seed of a co-viewer is sent. -/
theorem Served.tickReseeding {k : ℕ} {sw : Switch} {sid : SessionId} {msg : ServerMessage}
    {viewer : ℕ} {viewers : List ℕ} {first : Option FirstPrompt} (h : Served s st key up)
    (hphase : s.phase = .switching k sw (.reseeding sid msg (viewer :: viewers)) first)
    (answer : Answer)
    (hkeeps : ∀ c, s.hub.client key = some c → Conversation.KeepsTick s st key up c answer) :
    Served (s.tickSwitch k sw (.reseeding sid msg (viewer :: viewers)) first answer) st key up := by
  intro c' hc'
  simp only [Server.tickSwitch] at hc' ⊢
  by_cases hviewer : viewer = key
  · subst hviewer
    rw [client_sendToClient_self] at hc'
    obtain ⟨c, hc, rfl⟩ := Option.map_eq_some_iff.mp hc'
    have hkeep := hkeeps c hc
    simp only [Conversation.KeepsTick, hphase] at hkeep
    rcases hkeep trivial with ⟨mark, hmark, ha⟩ | hasked
    · exact .inl (steady_seed hmark ha)
    · exact .inr (.inl hasked)
  · rw [client_sendToClient_of_ne hviewer] at hc'
    rcases h c' hc' with hsteady | hasked | hseeds
    · exact .inl (hsteady.of_epoch fun _ he => he)
    · exact .inr (.inl hasked)
    · rw [hphase] at hseeds
      rcases List.mem_cons.mp hseeds with heq | hmem
      · exact absurd heq.symm hviewer
      · exact .inr (.inr hmem)

theorem start_queue (m : Moment) (answer : Answer) (op : HubOp) :
    (s.start serde m answer op).queue = s.queue := by
  cases op with
  | prompt | switch | newSession | deltaFlush => rfl
  | liveRefresh => cases answer <;> rfl
  | detachSession key path =>
    simp only [Server.start]
    split <;> rfl

/-- A switch of the connection is under way when it is off the queue. -/
theorem seeds_start (m : Moment) (answer : Answer) {op : HubOp} (hop : op.seeds key = true)
    (focusedId : Option SessionId) : (s.start serde m answer op).phase.seeds key focusedId := by
  cases op with
  | switch k sw | newSession k sw first => exact (of_decide_eq_true hop : k = key)
  | prompt | deltaFlush | liveRefresh | detachSession => cases hop

/-- An operation is taken off the queue: a switch of the connection is under way. -/
theorem Served.start (h : Served s st key up) (hphase : s.phase = .idle) {op : HubOp}
    {queue : List HubOp} (hqueue : s.queue = op :: queue) (m : Moment) (answer : Answer) :
    Served (Server.start serde { s with queue := queue } m answer op) st key up := by
  refine h.of_moves (@moves_start serde { s with queue := queue } m answer op) ?_
  intro c _ howed
  right
  have hasked : Asked s key up := by
    unfold Owed at howed
    rw [hphase] at howed
    exact howed.resolve_right id
  have hcases : Asked { s with queue := queue } key up ∨ op.seeds key = true := by
    rcases hasked with hup | hop
    · exact .inl (.inl hup)
    · rw [hqueue, List.any_cons, Bool.or_eq_true] at hop
      exact hop.symm.imp_left .inr
  rcases hcases with hasked | hop
  · refine .inl (hasked.mono (List.Subset.refl _) ?_)
    rw [start_queue]
    exact List.Subset.refl _
  · exact .inr (seeds_start m answer hop c.focusedId)

/-- The applier's next section, for a client whose switches and seeds it does not lose. -/
theorem Served.tick (h : Served s st key up) (hseated : s.Seated) (m : Moment) (answer : Answer)
    (hkeeps : ∀ c, s.hub.client key = some c → Conversation.KeepsTick s st key up c answer) :
    Served (s.tick serde m answer) st key up := by
  cases hphase : s.phase with
  | idle =>
    cases hqueue : s.queue with
    | nil =>
      have hnext : s.tick serde m answer = s := by simp only [Server.tick, hphase, hqueue]
      rw [hnext]
      exact h
    | cons op queue =>
      have hnext : s.tick serde m answer = Server.start serde { s with queue := queue } m answer op
          := by simp only [Server.tick, hphase, hqueue]
      rw [hnext]
      exact h.start hphase hqueue m answer
  | prompting k call =>
    have hnext : s.tick serde m answer = s.tickPrompting k call answer := by
      simp only [Server.tick, hphase]
    rw [hnext]
    refine h.of_moves (@moves_tickPrompting serde s k call answer) ?_
    intro c _ howed
    right
    unfold Owed at howed
    rw [hphase] at howed
    refine .inl (Asked.mono (howed.resolve_right id) (List.Subset.refl _) ?_)
    cases answer <;> exact List.Subset.refl _
  | switching k sw stage first =>
    have hnext : s.tick serde m answer = s.tickSwitch k sw stage first answer := by
      simp only [Server.tick, hphase]
    rw [hnext]
    by_cases hbegin : ∃ c, stage = .begin ∧ s.hub.client k = some c ∧ c.switchInFlight = true
    · obtain ⟨c, rfl, hc, hmarked⟩ := hbegin
      exact h.tickWaiting hphase answer hkeeps hc hmarked
    by_cases hfolded : ∃ seed sid, stage = .folded seed sid
    · obtain ⟨seed, sid, rfl⟩ := hfolded
      exact h.install hseated hphase
    by_cases hseeding : ∃ sid msg viewer viewers, stage = .reseeding sid msg (viewer :: viewers)
    · obtain ⟨sid, msg, viewer, viewers, rfl⟩ := hseeding
      exact h.tickReseeding hphase answer hkeeps
    apply h.tickSwitch serde hphase answer hkeeps
    · intro c hstage hc
      exact Bool.eq_false_iff.mpr fun hmarked => hbegin ⟨c, hstage, hc, hmarked⟩
    · intro seed sid hstage
      exact hfolded ⟨seed, sid, hstage⟩
    · intro sid msg viewer viewers hstage
      exact hseeding ⟨sid, msg, viewer, viewers, hstage⟩

/-- The connection, the journals and what is owed are left alone. -/
theorem Served.of_client (h : Served s st key up)
    (hc : ∀ c, s'.hub.client key = some c → s.hub.client key = some c)
    (hj : s'.hub.journals = s.hub.journals) (hphase : s'.phase = s.phase)
    (hqueue : s.queue ⊆ s'.queue) : Served s' st key up := by
  intro c hc'
  rcases h c (hc c hc') with hsteady | hasked | hseeds
  · left
    apply hsteady.of_epoch
    intro epoch he
    unfold SessionHub.epochOf at he ⊢
    rwa [← hj]
  · exact .inr (.inl (hasked.mono (List.Subset.refl _) hqueue))
  · rw [← hphase] at hseeds
    exact .inr (.inr hseeds)

theorem receive_queue (s : Server) (k : ℕ) (msg : ClientMessage) :
    s.queue ⊆ (s.receive k msg).queue := by
  have honce : ∀ promptId op, s.queue ⊆ (s.enqueueOnce k promptId op).queue := by
    intro promptId op
    unfold Server.enqueueOnce
    split
    · exact List.Subset.refl _
    · exact List.subset_append_left _ _
  cases msg with
  | prompt | newSession => exact honce _ _
  | requestSeed => exact List.Subset.refl _
  | openSession | reloadSession | branch | detachSession => exact List.subset_append_left _ _

/-- A message of another client. -/
theorem Served.receive_of_ne (h : Served s st key up) {k : ℕ} (hk : k ≠ key)
    (msg : ClientMessage) : Served (s.receive k msg) st key up := by
  have hphase := (sameStore_receive s k msg).2
  have hclient : (s.receive k msg).hub.client key = s.hub.client key := by
    have honce : ∀ promptId op, (s.enqueueOnce k promptId op).hub.client key =
        s.hub.client key := by
      intro promptId op
      unfold Server.enqueueOnce
      split
      · exact client_sendToClient_of_ne hk _
      · rfl
    cases msg with
    | prompt | newSession => exact honce _ _
    | requestSeed => exact client_sendToClient_of_ne hk _
    | openSession | reloadSession | branch | detachSession => rfl
  refine h.of_client ?_ ?_ hphase (receive_queue s k msg)
  · intro c hc
    rwa [← hclient]
  · exact (sameStore_receive s k msg).1.1

theorem asked_enqueue {op : HubOp} (hop : op.seeds key = true) (s : Server)
    (up : List ClientMessage) : Asked (s.enqueue op) key up := by
  refine .inr (List.any_eq_true.mpr ⟨op, ?_, hop⟩)
  exact List.mem_append_right _ (List.mem_singleton_self op)

/-- A message that asks for no seed is read. -/
theorem Owed.of_cons {msg : ClientMessage} (h : Owed s key focusedId (msg :: up))
    (hmsg : msg.asksSeed = false) (hqueue : s.queue ⊆ s'.queue) (hphase : s'.phase = s.phase) :
    Owed s' key focusedId up := by
  rcases h with hasked | hseeds
  · refine .inl (Asked.mono (s := s) ?_ (List.Subset.refl _) hqueue)
    rcases hasked with hup | hop
    · rw [List.any_cons, hmsg, Bool.false_or] at hup
      exact .inl hup
    · exact .inr hop
  · rw [← hphase] at hseeds
    exact .inr hseeds

/-- A message of the client: a request is answered at once, or queued. -/
theorem Served.receive_own {msg : ClientMessage} (h : Served s st key (msg :: up))
    (hown : ∀ sid, msg = .requestSeed sid → sid = none)
    (hkeeps : ∀ opts prompt images promptId, msg = .newSession opts prompt images promptId →
      (checkPromptIdempotency s.hub.prompts promptId).isSome = true →
      ∀ c, s.hub.client key = some c →
        Steady s.hub st c.focusedId c.send ∨ Owed s key c.focusedId up) :
    Served (s.receive key msg) st key up := by
  have hphase := (sameStore_receive s key msg).2
  cases msg with
  | requestSeed sid =>
    obtain rfl := hown sid rfl
    intro c' hc'
    left
    change (s.hub.sendToClient key (s.hub.seedMsg
      ((s.hub.client key).bind (·.focusedId)))).client key = some c' at hc'
    rw [client_sendToClient_self] at hc'
    obtain ⟨c, hc, rfl⟩ := Option.map_eq_some_iff.mp hc'
    obtain ⟨mark, hmark, ha⟩ := aligned_seedMsg s.hub c.focusedId
    rw [hc, Option.bind_some]
    exact steady_seed hmark ha
  | openSession | reloadSession | branch =>
    intro c _
    refine .inr (.inl (asked_enqueue ?_ s up))
    exact decide_eq_true rfl
  | newSession opts prompt images promptId =>
    cases hcached : checkPromptIdempotency s.hub.prompts promptId with
    | some cached =>
      have hnext : s.receive key (.newSession opts prompt images promptId) =
          { s with hub := s.hub.sendToClient key (.promptResult cached) } := by
        simp only [Server.receive, Server.enqueueOnce, hcached]
      rw [hnext]
      have hm : Moves ⟨fun _ => 0, fun _ => none⟩ s.hub
          (s.hub.sendToClient key (.promptResult cached)) := moves_note key rfl
      refine h.of_moves hm ?_
      intro c hc _
      exact hkeeps opts prompt images promptId rfl (by rw [hcached]; rfl) c hc
    | none =>
      have hnext : s.receive key (.newSession opts prompt images promptId) = s.enqueue
          (.newSession key ⟨.newSession opts, false, false⟩
            ⟨Server.firstPrompt prompt images, promptId⟩) := by
        simp only [Server.receive, Server.enqueueOnce, hcached]
      rw [hnext]
      intro c _
      refine .inr (.inl (asked_enqueue ?_ s up))
      exact decide_eq_true rfl
  | prompt | detachSession =>
    refine @Served.of_moves ⟨fun _ => 0, fun _ => none⟩ s _ st key _ up h (moves_receive key ?_) ?_
    · intro sid heq
      cases heq
    · intro c _ howed
      exact .inr (howed.of_cons rfl (receive_queue s key _) hphase)

/-- What comes from outside the applier, and not from the client. -/
theorem Served.input (h : Served s st key up) (hkey : key < s.hub.nextClientKey)
    (i : Server.Input) (hi : ∀ msg, i ≠ .receive key msg) :
    Served (s.input serde i) st key up := by
  cases i with
  | event m ev => exact h.of_moves (moves_onEvent m ev) fun _ _ howed => .inr howed
  | connect resume =>
    refine h.of_client ?_ rfl rfl (List.Subset.refl _)
    intro c hc
    rwa [← client_addClient resume hkey]
  | disconnect k =>
    exact h.of_client (fun c hc => client_removeClient k hc) rfl rfl (List.Subset.refl _)
  | receive k msg =>
    apply h.receive_of_ne
    rintro rfl
    exact hi msg rfl
  | timer | liveTimer =>
    exact h.of_client (fun _ hc => hc) rfl rfl (List.subset_append_left _ _)
  | evict | disposeIdle => exact h.of_client (fun _ hc => hc) rfl rfl (List.Subset.refl _)

end Served

/-! ### A hello -/

/-- A set latch: events of the epoch were lost to the client. -/
def Latched (B : Builds) (st : Store) : Prop :=
  st.seedRequested = true → ∃ b, B st.seedEpoch = some b ∧ st.seedSeq < b.stamped.length

section Connect

variable {serde : Serde} {B : Builds} {h : SessionHub} {s : Server} {st : Store} {r : ResumeToken}
  {up : List ClientMessage}

theorem resumeToken_eq (hr : st.resumeToken = some r) :
    st.seedSessionId = some r.sessionId ∧ st.seedEpoch = r.epoch ∧ st.seedSeq = r.seq := by
  unfold Store.resumeToken at hr
  split at hr
  · next sid hsid =>
    split_ifs at hr
    cases hr
    exact ⟨hsid, rfl, rfl⟩
  · cases hr

/-- The connection a hello makes. -/
theorem client_addClient_self (hkeys : ∀ c ∈ h.clients, c.key < h.nextClientKey)
    (token : Option ResumeToken) (focusedId : Option SessionId)
    (hfocus : (match token with
      | some r => if h.resumes r then some r.sessionId else h.defaultFocusId
      | none => h.defaultFocusId) = focusedId) :
    (h.addClient token).client h.nextClientKey =
      some ⟨h.nextClientKey, .hello :: h.greeting focusedId token, focusedId, false, none⟩ := by
  have hnone : h.clients.find? (·.key = h.nextClientKey) = none := by
    rw [List.find?_eq_none]
    intro c hc
    have := hkeys c hc
    simp only [decide_eq_true_eq]
    omega
  subst hfocus
  unfold SessionHub.addClient SessionHub.client
  dsimp only
  rw [List.find?_append, hnone, Option.none_or, List.find?_singleton, decide_eq_true rfl]
  rfl

/-- The replay of a token that resumes. -/
theorem greeting_of_resumes {j : SessionJournal} (hj : h.journals r.sessionId = some j)
    (hres : h.resumes r = true) (focusedId : Option SessionId) :
    h.greeting focusedId (some r) = SessionHub.replay j r.seq ∧ j.epoch = r.epoch ∧
      tailCovers j r.seq = true := by
  refine ⟨?_, ?_⟩
  · simp only [SessionHub.greeting, hj, hres, if_true]
  · simpa [SessionHub.resumes, hj] using hres

/-- A greeting that is no replay is one current seed, unless a refused token's session is not
the focus. -/
theorem greeting_of_not_resumes (focusedId : Option SessionId) (token : Option ResumeToken)
    (hres : ∀ r, token = some r → h.resumes r = false) :
    ∃ sid, h.greeting focusedId token = [h.seedMsg sid] ∧
      (sid = focusedId ∨ ∃ r, token = some r ∧ sid = some r.sessionId ∧
        h.hasJournal r.sessionId = true) := by
  cases token with
  | none => exact ⟨focusedId, rfl, .inl rfl⟩
  | some r =>
    cases hj : h.journals r.sessionId with
    | none =>
      refine ⟨focusedId, ?_, .inl rfl⟩
      simp only [SessionHub.greeting, hj]
    | some j =>
      refine ⟨some r.sessionId, ?_, .inr ⟨r, rfl, rfl, ?_⟩⟩
      · simp only [SessionHub.greeting, hj, hres r rfl, Bool.false_eq_true, if_false]
      · unfold SessionHub.hasJournal
        rw [hj]
        rfl

theorem resumes_hasJournal (hres : h.resumes r = true) :
    ∃ j, h.journals r.sessionId = some j := by
  unfold SessionHub.resumes at hres
  cases hj : h.journals r.sessionId with
  | none =>
    rw [hj] at hres
    cases hres
  | some j => exact ⟨j, rfl⟩

/-- What a token that resumes missed brings its client up to the journal. -/
theorem steady_replay (hh : HubOk serde B h) (hlatched : Latched B st)
    (hr : st.resumeToken = some r) (hres : h.resumes r = true) :
    Steady h st (some r.sessionId) (.hello :: h.greeting (some r.sessionId) (some r)) := by
  obtain ⟨j, hj⟩ := resumes_hasJournal hres
  obtain ⟨hsid, hepoch, hseq⟩ := resumeToken_eq hr
  obtain ⟨hgreeting, hje, hcov⟩ := greeting_of_resumes hj hres (some r.sessionId)
  obtain ⟨b, hb, -, hrep⟩ := hh.journal r.sessionId j hj
  rw [hgreeting]
  have hnone : lastSeed (.hello :: SessionHub.replay j r.seq) = none := by
    have hframes : ∀ fs : List JournalFrame,
        lastSeed (fs.map fun f => ServerMessage.event f.ev j.epoch f.seq) = none := by
      intro fs
      induction fs with
      | nil => rfl
      | cons f fs ih => rw [List.map_cons, lastSeed, ih, Option.none_or]; rfl
    rw [lastSeed, SessionHub.replay, hframes]
    rfl
  refine ⟨?_, ?_⟩
  · intro epoch he
    unfold Store.headed Store.held
    rw [hnone, Option.getD_none, hsid, hepoch]
    rw [SessionHub.epochOf, Option.bind_some, hj] at he
    cases he
    rw [← hje]
  · -- a latched client lacks an event, and the tail covers it
    intro hlatch
    right
    obtain ⟨b', hb', hlt⟩ := hlatched hlatch
    rw [hepoch, ← hje, hb] at hb'
    cases hb'
    rcases (hrep.tailCovers_iff r.seq).mp hcov with hcurrent | ⟨f, hf, hnext⟩
    · have := hrep.seq_eq
      omega
    · refine ⟨f.ev, List.mem_cons_of_mem _ ?_⟩
      refine List.mem_map.mpr ⟨f, List.mem_filter.mpr ⟨hf, ?_⟩, ?_⟩
      · exact decide_eq_true (by omega)
      · rw [hepoch, hje, hnext, hseq]

/-- Any other client is sent a seed of its focus, which for a refused token the default
session has to be. -/
theorem steady_greeting (token : Option ResumeToken)
    (hres : ∀ r, token = some r → h.resumes r = false)
    (hdefault : ∀ r, token = some r → h.hasJournal r.sessionId = true →
      h.defaultFocusId = none ∨ h.defaultFocusId = some r.sessionId) :
    Steady h st h.defaultFocusId (.hello :: h.greeting h.defaultFocusId token) := by
  obtain ⟨sid, hgreeting, hsid⟩ := greeting_of_not_resumes h.defaultFocusId token hres
  rw [hgreeting]
  obtain ⟨mark, hmark, ha⟩ := aligned_seedMsg h sid
  refine @steady_seed h st h.defaultFocusId [.hello] (h.seedMsg sid) mark hmark ?_
  rcases hsid with rfl | ⟨r, hr, rfl, hjournal⟩
  · exact ha
  · rcases hdefault r hr hjournal with hd | hd
    · intro epoch he
      rw [hd] at he
      cases he
    · rw [hd]
      exact ha

/-- **A hello is answered**: with what the client missed, or with a seed of its focus. -/
theorem served_connect (hh : HubOk serde B s.hub)
    (hkeys : ∀ c ∈ s.hub.clients, c.key < s.hub.nextClientKey) (hlatched : Latched B st)
    {token : Option ResumeToken}
    (htoken : token = st.resumeToken ∨ up.any ClientMessage.asksSeed = true)
    (hkeeps : ∀ r, token = some r → s.hub.hasJournal r.sessionId = true →
      s.hub.resumes r = false → s.hub.defaultFocusId = none ∨
        s.hub.defaultFocusId = some r.sessionId ∨ up.any ClientMessage.asksSeed = true) :
    Served { s with hub := s.hub.addClient token } st s.hub.nextClientKey up := by
  by_cases hasks : up.any ClientMessage.asksSeed = true
  · exact fun _ _ => .inr (.inl (.inl hasks))
  have htoken := htoken.resolve_right hasks
  intro c hc
  left
  by_cases hres : ∃ r, token = some r ∧ s.hub.resumes r = true
  · obtain ⟨r, rfl, hres⟩ := hres
    have hclient := client_addClient_self hkeys (some r) (some r.sessionId) (if_pos hres)
    obtain rfl := Option.some.inj (hclient.symm.trans hc)
    exact (steady_replay hh hlatched htoken.symm hres).of_epoch fun _ he => he
  · have hrefused : ∀ r, token = some r → s.hub.resumes r = false := by
      intro r hr
      exact Bool.eq_false_iff.mpr fun h => hres ⟨r, hr, h⟩
    have hclient := client_addClient_self hkeys token s.hub.defaultFocusId (by
      cases token with
      | none => rfl
      | some r => exact if_neg (by rw [hrefused r rfl]; exact Bool.false_ne_true))
    obtain rfl := Option.some.inj (hclient.symm.trans hc)
    refine (steady_greeting token hrefused ?_).of_epoch fun _ he => he
    intro r hr hjournal
    rcases hkeeps r hr hjournal (hrefused r hr) with hd | hd | hup
    · exact .inl hd
    · exact .inr hd
    · exact absurd hup hasks

/-- A channel without events ascends. -/
theorem ascending_of_no_event {ch : List ServerMessage}
    (hch : ∀ msg ∈ ch, ∀ ev epoch seq, msg ≠ .event ev epoch seq) : Ascending st ch := by
  unfold Ascending
  rw [List.pairwise_cons]
  refine ⟨fun msg hmem => before_of_ne_event (hch msg hmem), ?_⟩
  refine List.Pairwise.imp_of_mem (R := fun _ _ => True) ?_ ?_
  · intro _ msg _ hmem _
    exact before_of_ne_event (hch msg hmem)
  · exact List.pairwise_of_forall fun _ _ => trivial

/-- What a token that resumes missed ascends, from what its client holds, if anything. -/
theorem ascending_replay (hh : HubOk serde B h) (hres : h.resumes r = true)
    (hst : st.resumeToken = some r ∨ st.seedEpoch = 0) (focusedId : Option SessionId) :
    Ascending st (.hello :: h.greeting focusedId (some r)) := by
  obtain ⟨j, hj⟩ := resumes_hasJournal hres
  obtain ⟨hgreeting, hje, hcov⟩ := greeting_of_resumes hj hres focusedId
  obtain ⟨b, hb, -, hrep⟩ := hh.journal r.sessionId j hj
  rw [hgreeting, SessionHub.replay, hrep.filter_tail hcov]
  unfold Ascending
  have hfirst : ∀ f ∈ frames serde r.seq (b.stamped.drop r.seq),
      st.mark.Before (.event f.ev j.epoch f.seq) := by
    intro f hf ev epoch seq heq n hpos
    cases heq
    obtain ⟨he, rfl⟩ : st.seedEpoch = j.epoch ∧ st.seedSeq = n := by
      simpa [Store.mark, ServerMessage.position] using hpos
    have hlt := (seq_le_of_mem_frames serde hf).1
    rcases hst with hr | hzero
    · obtain ⟨-, -, hseq⟩ := resumeToken_eq hr
      omega
    · rw [← he, hzero, hh.zero] at hb
      cases hb
  have hrest : ((frames serde r.seq (b.stamped.drop r.seq)).map fun f =>
      ServerMessage.event f.ev j.epoch f.seq).Pairwise ServerMessage.Before := by
    rw [List.pairwise_map]
    have hseqs : ((frames serde r.seq (b.stamped.drop r.seq)).map (·.seq)).Pairwise (· < ·) := by
      rw [map_seq_frames]
      exact List.pairwise_lt_range'
    rw [List.pairwise_map] at hseqs
    refine hseqs.imp ?_
    intro f f' hlt ev epoch seq heq n hpos
    cases heq
    cases hpos
    exact hlt
  rw [List.pairwise_cons, List.pairwise_cons]
  refine ⟨?_, ?_, hrest⟩
  · intro msg hmem
    rcases List.mem_cons.mp hmem with rfl | hmem
    · apply before_of_ne_event
      rintro ev epoch seq ⟨⟩
    · obtain ⟨f, hf, rfl⟩ := List.mem_map.mp hmem
      exact hfirst f hf
  · rintro msg - ev epoch seq - n ⟨⟩

theorem ascending_connect (hh : HubOk serde B h)
    (hkeys : ∀ c ∈ h.clients, c.key < h.nextClientKey) {token : Option ResumeToken}
    (htoken : token = st.resumeToken ∨ st.seedEpoch = 0) :
    AscendingAt (h.addClient token) st h.nextClientKey := by
  intro c hc
  by_cases hres : ∃ r, token = some r ∧ h.resumes r = true
  · obtain ⟨r, rfl, hres⟩ := hres
    have hclient := client_addClient_self hkeys (some r) (some r.sessionId) (if_pos hres)
    obtain rfl := Option.some.inj (hclient.symm.trans hc)
    exact ascending_replay hh hres (htoken.imp_left Eq.symm) _
  · have hrefused : ∀ r, token = some r → h.resumes r = false := by
      intro r hr
      exact Bool.eq_false_iff.mpr fun h => hres ⟨r, hr, h⟩
    obtain ⟨focusedId, hfocus⟩ : ∃ focusedId, (match token with
      | some r => if h.resumes r then some r.sessionId else h.defaultFocusId
      | none => h.defaultFocusId) = focusedId := ⟨_, rfl⟩
    have hclient := client_addClient_self hkeys token focusedId hfocus
    obtain rfl := Option.some.inj (hclient.symm.trans hc)
    obtain ⟨sid, hgreeting, -⟩ := greeting_of_not_resumes focusedId token hrefused
    apply ascending_of_no_event
    rw [hgreeting]
    intro msg hmem
    rcases List.mem_cons.mp hmem with rfl | hmem
    · rintro ev epoch seq ⟨⟩
    · rw [List.mem_singleton.mp hmem]
      exact ne_event_of_seedMark (seedMark_seedMsg h sid)

end Connect

end Pantoken
