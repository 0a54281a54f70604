import Pantoken.Client.Served
import Pantoken.Lib.Run

/-!
# A client out of sync recovers

The server serves the client through every step that meets the condition of the model, so
that a client whose latch is set, or that holds what its focus has left behind, has a seed
on the way.

## Main definitions

* `SocketOk`, `InOrder` — the invariant of a conversation.
* `Conversation.AtRest` — nothing is on the way.

## Main results

* `onServer_cases` — what the gate does with a message.
* `InOrder.step` — a step that meets the condition keeps the invariant.
* `run_recovers` — **in a run whose steps meet the condition every connected client
  recovers, and at rest none is out of sync.**
* `Fed.loses_seed` — a seed that is lost to a full channel leaves the latch set.
* `not_run_recovers` — a new session that fails leaves its client out of sync for good.
-/

namespace Pantoken

/-! ### The gate -/

section Gate

variable {h h' : SessionHub} {st : Store} {focusedId : Option SessionId} {msg : ServerMessage}
  {ch : List ServerMessage}

/-- What the gate does with a message that reaches an open socket: it keeps what the client
holds, takes the message, or finds a gap. -/
theorem onServer_cases (st : Store) (msg : ServerMessage) :
    (∃ pending, (st.onServer true msg).1 = { st with pendingSeedRequest := pending } ∧
      msg.seedMark = none ∧ ∀ ev, msg ≠ .event ev st.seedEpoch (st.seedSeq + 1)) ∨
    ((st.onServer true msg).1.seedRequested = false ∧
      (st.onServer true msg).1.mark.position = msg.position ∧
      (st.onServer true msg).1.held = msg.seedMark.getD st.held) ∨
    ∃ ev seq, msg = .event ev st.seedEpoch seq ∧ seq ≠ st.seedSeq + 1 ∧
      st.onServer true msg = ({ st with seedRequested := true }, [.requestSeed none]) := by
  cases msg with
  | hello =>
    left
    simp only [Store.onServer]
    split
    · exact ⟨false, rfl, rfl, by rintro ev ⟨⟩⟩
    · exact ⟨st.pendingSeedRequest, rfl, rfl, by rintro ev ⟨⟩⟩
  | seed sessionId epoch seq events => exact .inr (.inl ⟨rfl, rfl, rfl⟩)
  | event ev epoch seq =>
    simp only [Store.onServer]
    split
    · next hepoch =>
      refine .inl ⟨st.pendingSeedRequest, rfl, rfl, ?_⟩
      rintro ev' ⟨⟩
      exact hepoch rfl
    · next hepoch =>
      obtain rfl := not_not.mp hepoch
      split
      · next hgap =>
        unfold Store.requestSeed
        split
        · refine .inl ⟨st.pendingSeedRequest, rfl, rfl, ?_⟩
          rintro ev' ⟨⟩
          exact hgap rfl
        · exact .inr (.inr ⟨ev, seq, rfl, hgap, rfl⟩)
      · next hnext =>
        obtain rfl := not_not.mp hnext
        exact .inr (.inl ⟨rfl, rfl, rfl⟩)
  | promptResult | error | switchError =>
    exact .inl ⟨st.pendingSeedRequest, rfl, rfl, by rintro ev ⟨⟩⟩

/-- The gate answers with a request for the seed of the focus, if at all. -/
theorem onServer_replies (st : Store) (online : Bool) (msg : ServerMessage) :
    ∀ reply ∈ (st.onServer online msg).2, reply = .requestSeed none := by
  cases msg with
  | hello =>
    simp only [Store.onServer]
    split <;> simp
  | event ev epoch seq =>
    simp only [Store.onServer]
    split
    · simp
    · split
      · unfold Store.requestSeed
        dsimp only
        split_ifs <;> simp
      · simp
  | seed | promptResult | error | switchError => simp [Store.onServer]

/-- The head of a channel that is neither a seed nor the next event. -/
theorem Steady.tail (hs : Steady h st focusedId (msg :: ch)) (hmsg : msg.seedMark = none)
    (hnext : ∀ ev, msg ≠ .event ev st.seedEpoch (st.seedSeq + 1)) : Steady h st focusedId ch := by
  have hlast : lastSeed (msg :: ch) = lastSeed ch := by
    rw [lastSeed, hmsg, Option.or_none]
  unfold Steady Store.headed at hs ⊢
  rw [hlast] at hs
  refine ⟨hs.1, fun hlatch => (hs.2 hlatch).imp_right ?_⟩
  rintro ⟨ev, hev⟩
  rcases List.mem_cons.mp hev with heq | hmem
  · exact absurd heq.symm (hnext ev)
  · exact ⟨ev, hmem⟩

/-- A steady channel stays so as the client takes from it, or the client asks for a seed. -/
theorem Steady.deliver (hs : Steady h st focusedId (msg :: ch)) :
    Steady h (st.onServer true msg).1 focusedId ch ∨
      (st.onServer true msg).2.any ClientMessage.asksSeed = true := by
  rcases onServer_cases st msg with ⟨pending, hst, hmsg, hnext⟩ | ⟨hlatch, -, hheld⟩ |
    ⟨ev, seq, -, -, heq⟩
  · left
    rw [hst]
    exact hs.tail hmsg hnext
  · left
    refine ⟨?_, fun hset => ?_⟩
    · have hheaded : (st.onServer true msg).1.headed ch = st.headed (msg :: ch) := by
        unfold Store.headed
        rw [hheld, lastSeed]
        cases lastSeed ch <;> rfl
      rw [hheaded]
      exact hs.1
    · rw [hlatch] at hset
      cases hset
  · right
    rw [heq]
    rfl

/-- So does an ascending one. -/
theorem Ascending.deliver (ha : Ascending st (msg :: ch)) :
    Ascending (st.onServer true msg).1 ch := by
  have hkept : Ascending st ch :=
    List.Pairwise.sublist (List.Sublist.cons_cons _ (List.sublist_cons_self _ _)) ha
  rcases onServer_cases st msg with ⟨pending, hst, -⟩ | ⟨-, hpos, -⟩ | ⟨ev, seq, -, -, heq⟩
  · rw [hst]
    exact hkept
  · -- what the client holds now takes the place of the message
    unfold Ascending at ha ⊢
    rw [List.pairwise_cons, List.pairwise_cons] at ha
    rw [List.pairwise_cons]
    refine ⟨fun msg' hmem => ?_, ha.2.2⟩
    unfold ServerMessage.Before
    rw [hpos]
    exact ha.2.1 msg' hmem
  · rw [heq]
    exact hkept

/-- A latch is set by a gap. -/
theorem Latched.deliver {B : Builds} (hB : B 0 = none) (hl : Latched B st)
    (hmsg : MsgOk B msg) (ha : Ascending st (msg :: ch)) : Latched B (st.onServer true msg).1 := by
  rcases onServer_cases st msg with ⟨pending, hst, -⟩ | ⟨hlatch, -⟩ | ⟨ev, seq, rfl, hgap, heq⟩
  · rw [hst]
    exact hl
  · intro hset
    rw [hlatch] at hset
    cases hset
  · rw [heq]
    intro _
    obtain ⟨b, hb, -⟩ := id hmsg
    refine ⟨b, hb, ?_⟩
    have hle : seq ≤ b.stamped.length := hmsg.le hB hb rfl
    have hbeyond : st.seedSeq < seq :=
      (List.pairwise_cons.mp ha).1 _ List.mem_cons_self ev st.seedEpoch seq rfl st.seedSeq rfl
    show st.seedSeq < b.stamped.length
    omega

end Gate

/-! ### A channel that loses messages -/

section Keep

variable {serde : Serde} {s : Server} {h : SessionHub} {st : Store} {key : ℕ}
  {up : List ClientMessage} {f : List ServerMessage → List ServerMessage}

theorem client_keepMessages (h : SessionHub) (k key : ℕ)
    (f : List ServerMessage → List ServerMessage) :
    (System.keepMessages h k f).client key =
      (h.client key).map fun c => if c.key = k then { c with send := f c.send } else c :=
  client_updateClient h k key (fun c => { c with send := f c.send }) fun _ => rfl

/-- The channel of the connection after another, or its own, kept a part. -/
theorem client_keepMessages_cases {k : ℕ} {c' : ClientConn}
    (hc' : (System.keepMessages h k f).client key = some c') :
    ∃ c, h.client key = some c ∧ c'.focusedId = c.focusedId ∧
      (k = key ∧ c'.send = f c.send ∨ c'.send = c.send) := by
  rw [client_keepMessages] at hc'
  obtain ⟨c, hc, rfl⟩ := Option.map_eq_some_iff.mp hc'
  refine ⟨c, hc, ?_⟩
  split
  · next hkey => exact ⟨rfl, .inl ⟨hkey.symm.trans (key_of_client hc), rfl⟩⟩
  · exact ⟨rfl, .inr rfl⟩

theorem Server.Seated.keepMessages (hs : s.Seated) (k : ℕ)
    (f : List ServerMessage → List ServerMessage) :
    ({ s with hub := System.keepMessages s.hub k f } : Server).Seated := by
  refine hs.of_sameSeats ?_ ⟨rfl, rfl⟩ (fun _ _ hj => hj) (.inr rfl)
  refine ⟨fun c => if c.key = k then { c with send := f c.send } else c, ⟨?_, ?_, ?_⟩, rfl⟩
  · intro c
    split <;> rfl
  · intro c
    split <;> rfl
  · intro c hc
    split
    · exact hc
    · exact hc

theorem AscendingAt.lose (ha : AscendingAt h st key) (k n : ℕ) :
    AscendingAt (System.keepMessages h k (·.eraseIdx n)) st key := by
  intro c' hc'
  obtain ⟨c, hc, -, ⟨-, hsend⟩ | hsend⟩ := client_keepMessages_cases hc'
  · rw [hsend]
    refine List.Pairwise.sublist ?_ (ha c hc)
    exact List.Sublist.cons_cons _ (List.eraseIdx_sublist c.send n)
  · rw [hsend]
    exact ha c hc

theorem Served.lose (hs : Served s st key up) (k n : ℕ)
    (hkeeps : k = key → ∀ c, s.hub.client key = some c →
      Steady s.hub st c.focusedId (c.send.eraseIdx n) ∨ Owed s key c.focusedId up) :
    Served { s with hub := System.keepMessages s.hub k (·.eraseIdx n) } st key up := by
  intro c' hc'
  obtain ⟨c, hc, hfocus, ⟨hk, hsend⟩ | hsend⟩ := client_keepMessages_cases hc'
  · rw [hfocus, hsend]
    exact (hkeeps hk c hc).imp (fun hsteady => hsteady.of_epoch fun _ he => he) id
  · rw [hfocus, hsend]
    exact (hs c hc).imp (fun hsteady => hsteady.of_epoch fun _ he => he) id

end Keep

/-! ### The invariant -/

/-- The requests for a seed ask for that of the focus. -/
def OwnRequests (up : List ClientMessage) : Prop :=
  ∀ sid, ClientMessage.requestSeed sid ∈ up → sid = none

/-- The client's end is in order: a hello that is on its way carries the watermark, unless
the client has blanked it for a session it asked for; the connection it opened is served,
over a channel that ascends. -/
def SocketOk (s : Server) (st : Store) : Socket → Prop
  | .closed => True
  | .opening token up =>
    OwnRequests up ∧
      (token = st.resumeToken ∨ st.seedEpoch = 0 ∧ up.any ClientMessage.asksSeed = true)
  | .opened key up =>
    OwnRequests up ∧ key < s.hub.nextClientKey ∧ AscendingAt s.hub st key ∧ Served s st key up

/-- Server and client are in order. -/
structure InOrder (serde : Serde) (B : Builds) (s : Conversation) : Prop where
  server : ServerOk serde B s.server
  seated : s.server.Seated
  ready : s.server.phase.SeedReady
  store : StoreOk B s.store
  latched : Latched B s.store
  socket : SocketOk s.server s.store s.socket

section Invariant

variable {serde : Serde} {B B' : Builds} {s : Conversation} {st : Store}

theorem Latched.mono (hB : B.Extends B') (hl : Latched B st) : Latched B' st := by
  intro hset
  obtain ⟨b, hb, hlt⟩ := hl hset
  obtain ⟨b', hb', -, -, hgrown⟩ := hB _ b hb
  have hle := hgrown.length_le
  exact ⟨b', hb', by omega⟩

/-- **A client that is served recovers.** -/
theorem InOrder.recovers (h : InOrder serde B s) : s.Recovers := by
  intro key up c hsocket hc
  have hserved : Served s.server s.store key up := by
    have := h.socket
    rw [hsocket] at this
    exact this.2.2.2
  rcases hserved c hc with ⟨haligned, hlatch⟩ | howed
  · refine ⟨?_, ?_⟩
    · intro hset
      exact .inr (hlatch hset)
    · intro hout
      right
      cases hlast : lastSeed c.send with
      | some mark => rfl
      | none =>
        unfold Store.headed at haligned
        rw [hlast] at haligned
        exact absurd haligned hout
  · exact ⟨fun _ => .inl howed, fun _ => .inl howed⟩

end Invariant

/-! ### Steps of the server -/

section ServerStep

variable {serde : Serde} {B : Builds} {s : Server} {st : Store} {socket : Socket}

theorem nextClientKey_le_input (i : Server.Input) :
    s.hub.nextClientKey ≤ (s.input serde i).hub.nextClientKey := by
  cases i with
  | event m ev => exact (@frame_onEvent serde s.hub m ev).nextClientKey.ge
  | connect resume => exact Nat.le_succ _
  | receive k msg => exact (receive_keys k msg).2.ge
  | disconnect | timer | liveTimer | evict | disposeIdle => exact Nat.le_refl _

theorem SocketOk.tick (h : SocketOk s st socket) (hs : ServerOk serde B s) (hseated : s.Seated)
    (hready : s.phase.SeedReady) (hst : StoreOk B st) (m : Moment) (answer : Answer)
    (hkeeps : ∀ key up c, socket = .opened key up → s.hub.client key = some c →
      Conversation.KeepsTick s st key up c answer) :
    SocketOk (s.tick serde m answer) st socket := by
  cases socket with
  | closed => trivial
  | opening token up => exact h
  | opened key up =>
    obtain ⟨hown, hkey, hascending, hserved⟩ := h
    refine ⟨hown, ?_, ?_, ?_⟩
    · rw [(tick_keys m answer).2]
      exact hkey
    · exact hascending.tick hs hst hready m answer
    · apply hserved.tick hseated
      intro c hc
      exact hkeeps key up c rfl hc

theorem SocketOk.input (h : SocketOk s st socket) (hs : ServerOk serde B s) (hst : StoreOk B st)
    (i : Server.Input) (hi : ∀ key up msg, socket = .opened key up → i ≠ .receive key msg) :
    SocketOk (s.input serde i) st socket := by
  cases socket with
  | closed => trivial
  | opening token up => exact h
  | opened key up =>
    obtain ⟨hown, hkey, hascending, hserved⟩ := h
    refine ⟨hown, ?_, ?_, ?_⟩
    · exact hkey.trans_le (nextClientKey_le_input i)
    · exact hascending.input hs hst hkey i
    · apply hserved.input hkey
      intro msg
      exact hi key up msg rfl

end ServerStep

section Step

variable {serde : Serde} {B : Builds} {s : Conversation}

/-- A step of the server, which is not the client's own. -/
theorem InOrder.server_step (h : InOrder serde B s) (a : Server.Action)
    (hkeeps : s.Keeps (.server a)) :
    ∃ B', B.Extends B' ∧ InOrder serde B' (s.step serde (.server a)) := by
  simp only [Conversation.step]
  split
  · exact ⟨B, .refl B, h⟩
  · next hown =>
    obtain ⟨B', hB, hserver⟩ := h.server.step a
    refine ⟨B', hB, hserver, h.seated.step a, ?_, h.store.mono hB, h.latched.mono hB, ?_⟩
    · cases a with
      | tick m answer => exact seedReady_tick h.ready m answer
      | input i =>
        show (s.server.input serde i).phase.SeedReady
        rw [input_phase]
        exact h.ready
    · cases a with
      | tick m answer =>
        exact h.socket.tick h.server h.seated h.ready h.store m answer hkeeps
      | input i =>
        apply h.socket.input h.server h.store
        rintro key up msg hsocket rfl
        apply hown
        unfold Conversation.isOwn
        rw [hsocket]
        exact decide_eq_true rfl

/-- **A message reaches the client**: it takes what the channel brings, or asks for a seed. -/
theorem InOrder.deliver (h : InOrder serde B s) : InOrder serde B s.deliver := by
  unfold Conversation.deliver
  split
  · next key up hsocket =>
    obtain ⟨hown, hkey, hascending, hserved⟩ : SocketOk s.server s.store (.opened key up) := by
      rw [← hsocket]
      exact h.socket
    split
    · exact h
    · next msg hmsg =>
      obtain ⟨c, hc, hhead⟩ := Option.bind_eq_some_iff.mp hmsg
      obtain ⟨ch, hch⟩ : ∃ ch, c.send = msg :: ch :=
        ⟨c.send.tail, (List.cons_head?_tail hhead).symm⟩
      have hok : MsgOk B msg :=
        h.server.hub.sent c (mem_of_client hc) msg (List.mem_of_head? hhead)
      have hch_ascending : Ascending s.store (msg :: ch) := by
        rw [← hch]
        exact hascending c hc
      have hclient : (System.keepMessages s.server.hub key List.tail).client key =
          some { c with send := ch } := by
        rw [client_keepMessages, hc, Option.map_some, if_pos (key_of_client hc), hch]
        rfl
      refine ⟨?_, h.seated.keepMessages key List.tail, h.ready, ?_, ?_, ?_, hkey, ?_, ?_⟩
      · exact h.server.keepMessages key fun _ _ hmem => List.mem_of_mem_tail hmem
      · exact h.store.onServer h.server.zero true hok
      · exact h.latched.deliver h.server.zero hok hch_ascending
      · intro sid hmem
        rcases List.mem_append.mp hmem with hup | hreply
        · exact hown sid hup
        · cases onServer_replies s.store true msg _ hreply
          rfl
      · intro c' hc'
        obtain rfl := Option.some.inj (hclient.symm.trans hc')
        exact hch_ascending.deliver
      · intro c' hc'
        obtain rfl := Option.some.inj (hclient.symm.trans hc')
        rcases hserved c hc with hsteady | howed
        · rw [hch] at hsteady
          refine hsteady.deliver.imp (fun hkept => hkept.of_epoch fun _ he => he) ?_
          intro hasks
          left
          left
          rw [List.any_append, hasks, Bool.or_true]
        · right
          refine howed.imp_left fun hasked => hasked.mono ?_ (List.Subset.refl _)
          exact List.subset_append_left _ _
  · exact h

/-- **The server reads what the client sent**: it answers the hello, or takes the request. -/
theorem InOrder.upload (h : InOrder serde B s) (hkeeps : s.KeepsUpload) :
    InOrder serde B (s.upload serde) := by
  unfold Conversation.upload
  split
  · next token up hsocket =>
    obtain ⟨hown, htoken⟩ : SocketOk s.server s.store (.opening token up) := by
      rw [← hsocket]
      exact h.socket
    unfold Conversation.KeepsUpload at hkeeps
    rw [hsocket] at hkeeps
    refine ⟨⟨h.server.hub.addClient token, h.server.phase⟩, h.seated.connect token, h.ready,
      h.store, h.latched, hown, Nat.lt_succ_self _, ?_, ?_⟩
    · apply ascending_connect h.server.hub h.seated.keys
      exact htoken.imp_right fun hblank => hblank.1
    · apply served_connect h.server.hub h.seated.keys h.latched
      · exact htoken.imp_right fun hblank => hblank.2
      · rintro r rfl
        exact hkeeps
  · next key msg up hsocket =>
    obtain ⟨hown, hkey, hascending, hserved⟩ :
        SocketOk s.server s.store (.opened key (msg :: up)) := by
      rw [← hsocket]
      exact h.socket
    unfold Conversation.KeepsUpload at hkeeps
    rw [hsocket] at hkeeps
    refine ⟨h.server.receive key msg, h.seated.receive key msg, ?_, h.store, h.latched, ?_, ?_,
      hascending.receive key msg, ?_⟩
    · show (s.server.receive key msg).phase.SeedReady
      rw [(sameStore_receive s.server key msg).2]
      exact h.ready
    · intro sid hmem
      exact hown sid (List.mem_cons_of_mem _ hmem)
    · rw [(receive_keys key msg).2]
      exact hkey
    · apply hserved.receive_own
      · rintro sid rfl
        exact hown sid List.mem_cons_self
      · rintro opts prompt images promptId rfl
        exact hkeeps
  · exact h

/-- A message is lost. -/
theorem InOrder.lose (h : InOrder serde B s) (key n : ℕ) (hkeeps : s.Keeps (.lose key n)) :
    InOrder serde B (s.step serde (.lose key n)) := by
  refine ⟨?_, h.seated.keepMessages key _, h.ready, h.store, h.latched, ?_⟩
  · exact h.server.keepMessages key fun _ _ hmem => List.mem_of_mem_eraseIdx hmem
  · have hsocket := h.socket
    show SocketOk _ s.store s.socket
    cases heq : s.socket with
    | closed => trivial
    | opening token up =>
      rw [heq] at hsocket
      exact hsocket
    | opened own up =>
      rw [heq] at hsocket
      obtain ⟨hown, hkey, hascending, hserved⟩ := hsocket
      refine ⟨hown, hkey, hascending.lose key n, ?_⟩
      apply hserved.lose
      rintro rfl c hc
      exact hkeeps up c heq hc

/-- What the client sends keeps what was owed to it. -/
theorem SocketOk.send {s : Server} {st : Store} {socket : Socket} (h : SocketOk s st socket)
    {msgs : List ClientMessage} (hown : OwnRequests msgs) : SocketOk s st (socket.send msgs) := by
  have happend : ∀ {up}, OwnRequests up → OwnRequests (up ++ msgs) := by
    intro up hup sid hmem
    exact (List.mem_append.mp hmem).elim (hup sid) (hown sid)
  cases socket with
  | closed => trivial
  | opening token up =>
    refine ⟨happend h.1, h.2.imp_right ?_⟩
    rintro ⟨hzero, hasks⟩
    refine ⟨hzero, ?_⟩
    rw [List.any_append, hasks, Bool.true_or]
  | opened key up =>
    obtain ⟨hup, hkey, hascending, hserved⟩ := h
    refine ⟨happend hup, hkey, hascending, ?_⟩
    intro c hc
    refine (hserved c hc).imp_right fun howed => howed.imp_left fun hasked => ?_
    exact hasked.mono (List.subset_append_left _ _) (List.Subset.refl _)

/-- A client that blanks what it holds asks for a session as it does. -/
theorem SocketOk.abandon {s : Server} {st : Store} {socket : Socket} (hs : ServerOk serde B s)
    (h : SocketOk s st socket) {msg : ClientMessage} (hmsg : msg.asksSeed = true)
    (hown : OwnRequests [msg]) : SocketOk s .initial (socket.send [msg]) := by
  have hsent := h.send hown
  have hasks : ∀ up : List ClientMessage,
      (up ++ [msg]).any ClientMessage.asksSeed = true := by
    intro up
    rw [List.any_append, List.any_cons, hmsg, Bool.true_or, Bool.or_true]
  cases socket with
  | closed => trivial
  | opening token up => exact ⟨hsent.1, .inr ⟨rfl, hasks up⟩⟩
  | opened key up =>
    obtain ⟨hup, hkey, hascending, -⟩ := hsent
    refine ⟨hup, hkey, ?_, ?_⟩
    · intro c hc
      have hch := List.pairwise_cons.mp (hascending c hc)
      refine List.pairwise_cons.mpr ⟨?_, hch.2⟩
      -- no event is of epoch zero
      rintro msg' hmem ev epoch seq rfl n hpos
      obtain ⟨b, hb, -⟩ := hs.hub.sent c (mem_of_client hc) _ hmem
      cases hpos
      have hzero : B 0 = some b := hb
      rw [hs.zero] at hzero
      cases hzero
    · exact fun _ _ => .inr (.inl (.inl (hasks up)))

/-- **A step that meets the condition keeps server and client in order**, for an assignment
that grew. -/
theorem InOrder.step (h : InOrder serde B s) (a : Conversation.Action) (hkeeps : s.Keeps a) :
    ∃ B', B.Extends B' ∧ InOrder serde B' (s.step serde a) := by
  have hsend : ∀ {msg}, OwnRequests [msg] →
      SocketOk s.server s.store (s.socket.send [msg]) := fun hown => h.socket.send hown
  cases a with
  | server a => exact h.server_step a hkeeps
  | connect =>
    refine ⟨B, .refl B, ?_⟩
    simp only [Conversation.step]
    split
    · refine ⟨h.server, h.seated, h.ready, h.store, h.latched, ?_, .inl rfl⟩
      intro sid hmem
      cases hmem
    · exact h
  | close => exact ⟨B, .refl B, h.server, h.seated, h.ready, h.store, h.latched, trivial⟩
  | upload => exact ⟨B, .refl B, h.upload hkeeps⟩
  | deliver => exact ⟨B, .refl B, h.deliver⟩
  | lose key n => exact ⟨B, .refl B, h.lose key n hkeeps⟩
  | listed | startDraft | cancelDraft =>
    exact ⟨B, .refl B, h.server, h.seated, h.ready, h.store, h.latched, h.socket⟩
  | submitDraft text images promptId =>
    refine ⟨B, .refl B, ?_⟩
    simp only [Conversation.step, Conversation.submitDraft]
    split
    · exact h
    · split
      · exact h
      · refine ⟨h.server, h.seated, h.ready, .inl ⟨rfl, rfl, rfl⟩, ?_, ?_⟩
        · intro hset
          cases hset
        · apply h.socket.abandon h.server rfl
          intro sid hmem
          cases List.mem_singleton.mp hmem
  | openSession path =>
    refine ⟨B, .refl B, h.server, h.seated, h.ready, h.store, h.latched, ?_⟩
    simp only [Conversation.step, Conversation.openSession]
    split
    · exact h.socket
    · apply hsend
      intro sid hmem
      cases List.mem_singleton.mp hmem
  | send msg =>
    refine ⟨B, .refl B, ?_⟩
    simp only [Conversation.step]
    split
    · exact h
    · next hmsg =>
      refine ⟨h.server, h.seated, h.ready, h.store, h.latched, hsend ?_⟩
      intro sid hmem
      obtain rfl := List.mem_singleton.mp hmem
      exact absurd rfl hmsg

end Step

/-! ### Runs -/

namespace Conversation

/-- Nothing is on the way between the client and its connection. -/
def AtRest (s : Conversation) : Prop :=
  ∀ key up c, s.socket = .opened key up → s.server.hub.client key = some c →
    up = [] ∧ c.send = [] ∧ s.server.queue = [] ∧ s.server.phase = .idle

/-- The client, if it is connected, takes the events of its focus. -/
def InSync (s : Conversation) : Prop :=
  ∀ key up c, s.socket = .opened key up → s.server.hub.client key = some c →
    s.store.seedRequested = false ∧ Aligned s.server.hub c.focusedId s.store.held

instance decidableAligned (h : SessionHub) (focusedId : Option SessionId)
    (mark : Option SessionId × ℕ) : Decidable (Aligned h focusedId mark) :=
  inferInstanceAs (Decidable (∀ epoch, h.epochOf focusedId = some epoch → _))

/-- What is said of the connection of the client, if there is one. -/
instance decidableOpened (s : Conversation) (P : List ClientMessage → ClientConn → Prop)
    [∀ up c, Decidable (P up c)] :
    Decidable (∀ key up c, s.socket = .opened key up → s.server.hub.client key = some c →
      P up c) :=
  match hsocket : s.socket with
  | .closed | .opening .. => isTrue fun _ _ _ heq => by cases heq
  | .opened key up =>
    match hclient : s.server.hub.client key with
    | none => isTrue fun key' _ c heq hc => by
        cases heq
        rw [hclient] at hc
        cases hc
    | some c => decidable_of_iff (P up c)
        ⟨fun h key' _ c' heq hc => by
          cases heq
          rw [hclient] at hc
          cases hc
          exact h, fun h => h key up c rfl hclient⟩

instance AtRest.decidable (s : Conversation) : Decidable s.AtRest :=
  decidableOpened s fun up c =>
    up = [] ∧ c.send = [] ∧ s.server.queue = [] ∧ s.server.phase = .idle

instance InSync.decidable (s : Conversation) : Decidable s.InSync :=
  decidableOpened s fun _ c =>
    s.store.seedRequested = false ∧ Aligned s.server.hub c.focusedId s.store.held

/-- A client that recovers is in sync once nothing is on the way. -/
theorem Recovers.inSync {s : Conversation} (h : s.Recovers) (hrest : s.AtRest) : s.InSync := by
  intro key up c hsocket hc
  obtain ⟨rfl, hsend, hqueue, hphase⟩ := hrest key up c hsocket hc
  obtain ⟨hlatch, hout⟩ := h key [] c hsocket hc
  have hnothing : ¬Owed s.server key c.focusedId [] := by
    unfold Owed Asked
    rw [hqueue, hphase]
    rintro ((hup | hop) | hseeds)
    · cases hup
    · cases hop
    · exact hseeds
  rw [hsend] at hlatch hout
  refine ⟨?_, ?_⟩
  · apply Bool.eq_false_iff.mpr
    intro hset
    rcases hlatch hset with howed | hseed | ⟨ev, hev⟩
    · exact hnothing howed
    · cases hseed
    · cases hev
  · by_contra haligned
    rcases hout haligned with howed | hseed
    · exact hnothing howed
    · cases hseed

/-! ### A client at a session -/

/-- The client with store `st` is fed a session: its messages `up` and those of its channel `ch`
are on their way, the journal stands at `seq`, and nothing else goes on. -/
structure Fed (s : Conversation) (sid : SessionId) (epoch seq : ℕ) (st : Store)
    (up : List ClientMessage) (ch : List ServerMessage) : Prop where
  store : s.store = st
  socket : s.socket = .opened 0 up
  client : ∃ c, s.server.hub.client 0 = some c ∧ c.focusedId = some sid ∧ c.send = ch
  journal : ∃ j, s.server.hub.journals sid = some j ∧ j.epoch = epoch ∧ j.seq = seq
  unbuffered : s.server.hub.deltaFlushMs = 0
  idle : s.server.queue = [] ∧ s.server.phase = .idle

/-- The events of a journal behind a position, where all are the same. -/
def following (ev : SessionDriverEvent) (epoch : ℕ) : ℕ → ℕ → List ServerMessage
  | _, 0 => []
  | seq, n + 1 => .event ev epoch (seq + 1) :: following ev epoch (seq + 1) n

theorem eraseIdx_following (ev : SessionDriverEvent) (epoch seq n : ℕ) :
    (following ev epoch seq (n + 1)).eraseIdx n = following ev epoch seq n := by
  induction n generalizing seq with
  | zero => rfl
  | succ n ih => exact congrArg (_ :: ·) (ih (seq + 1))

theorem length_following (ev : SessionDriverEvent) (epoch seq n : ℕ) :
    (following ev epoch seq n).length = n := by
  induction n generalizing seq with
  | zero => rfl
  | succ n ih => exact congrArg (· + 1) (ih (seq + 1))

section Fed

variable (serde : Serde) {s : Conversation} {sid : SessionId} {epoch seq : ℕ} {st : Store}
  {up : List ClientMessage} {ch : List ServerMessage} {ev : SessionDriverEvent}

/-- An event that neither restarts a journal nor closes a session is stamped and sent. -/
theorem onEvent_stamped {h : SessionHub} {j : SessionJournal} (m : Moment)
    (hj : h.journals ev.sid = some j) (hflush : h.deltaFlushMs = 0) (hreset : isReset ev = false)
    (hclose : ∀ h : SessionHub, h.closeJournal ev = h) :
    h.onEvent serde m ev = (h.setJournal ev.sid (appendEvent serde j ev)).sendFocused ev.sid
      (.event ev j.epoch (j.seq + 1)) := by
  have hhas : h.hasJournal ev.sid = true := by
    rw [SessionHub.hasJournal, hj]
    rfl
  have hingest : h.ingest serde m ev = h.ingestNow serde m.order ev := if_pos (.inl hflush)
  unfold SessionHub.onEvent
  rw [hhas, if_neg fun hswap => Bool.noConfusion hswap.2]
  dsimp only
  rw [hingest, hclose, SessionHub.ingestNow, hj]
  cases ev with
  | sessionReset base => cases hreset
  | _ => rfl

/-- One event more is on its way. -/
theorem Fed.event (h : s.Fed ev.sid epoch seq st up ch) (m : Moment)
    (hreset : isReset ev = false) (hclose : ∀ h : SessionHub, h.closeJournal ev = h) :
    (s.step serde (.server (.input (.event m ev)))).Fed ev.sid epoch (seq + 1) st up
      (ch ++ [.event ev epoch (seq + 1)]) := by
  obtain ⟨c, hc, hfocus, hsend⟩ := h.client
  obtain ⟨j, hj, hepoch, hseq⟩ := h.journal
  have hhub := onEvent_stamped serde m hj h.unbuffered hreset hclose
  rw [hepoch, hseq] at hhub
  have hstep : s.step serde (.server (.input (.event m ev))) =
      { s with server := { s.server with hub := s.server.hub.onEvent serde m ev } } := rfl
  rw [hstep, hhub]
  refine ⟨h.store, h.socket, ?_, ?_, h.unbuffered, h.idle⟩
  · have hclient : (s.server.hub.setJournal ev.sid (appendEvent serde j ev)).client 0 = some c := hc
    refine ⟨{ c with send := c.send ++ [_] }, ?_, hfocus, congrArg (· ++ [_]) hsend⟩
    rw [SessionHub.sendFocused, client_sendWhere, hclient, Option.map_some,
      if_pos (decide_eq_true hfocus)]
  · exact ⟨_, PMap.insert_self .., hepoch, congrArg (· + 1) hseq⟩

theorem Fed.events (h : s.Fed ev.sid epoch seq st up ch) (m : Moment) (hreset : isReset ev = false)
    (hclose : ∀ h : SessionHub, h.closeJournal ev = h) (n : ℕ) :
    (s.run serde (List.replicate n (.server (.input (.event m ev))))).Fed ev.sid epoch (seq + n) st
      up (ch ++ following ev epoch seq n) := by
  induction n generalizing s seq ch with
  | zero => rwa [following, List.append_nil]
  | succ n ih =>
    have hrest := ih (h.event serde m hreset hclose)
    rw [List.append_assoc, Nat.add_right_comm] at hrest
    exact hrest

/-- The next message of the channel reaches the client. -/
theorem Fed.deliver {msg : ServerMessage} (h : s.Fed sid epoch seq st up (msg :: ch)) :
    s.deliver.Fed sid epoch seq (st.onServer true msg).1 (up ++ (st.onServer true msg).2) ch := by
  obtain ⟨c, hc, hfocus, hsend⟩ := h.client
  have hhead : (s.server.hub.client 0).bind (·.send.head?) = some msg := by
    rw [hc, Option.bind_some, hsend]
    rfl
  unfold Conversation.deliver
  rw [h.socket]
  dsimp only
  rw [hhead, h.store]
  refine ⟨rfl, rfl, ⟨{ c with send := c.send.tail }, ?_, hfocus, ?_⟩, h.journal, h.unbuffered,
    h.idle⟩
  · rw [client_keepMessages, hc, Option.map_some, if_pos (key_of_client hc)]
  · exact congrArg List.tail hsend

/-- A message of the channel is lost. -/
theorem Fed.lose (h : s.Fed sid epoch seq st up ch) (n : ℕ) :
    (s.step serde (.lose 0 n)).Fed sid epoch seq st up (ch.eraseIdx n) := by
  obtain ⟨c, hc, hfocus, hsend⟩ := h.client
  refine ⟨h.store, h.socket, ⟨{ c with send := c.send.eraseIdx n }, ?_, hfocus, ?_⟩, h.journal,
    h.unbuffered, h.idle⟩
  · show (System.keepMessages s.server.hub 0 (·.eraseIdx n)).client 0 = _
    rw [client_keepMessages, hc, Option.map_some, if_pos (key_of_client hc)]
  · exact congrArg (·.eraseIdx n) hsend

/-- The server answers a request for a seed. -/
theorem Fed.seed (h : s.Fed sid epoch seq st (.requestSeed none :: up) ch) :
    ∃ msg, (s.step serde .upload).Fed sid epoch seq st up (ch ++ [msg]) := by
  obtain ⟨c, hc, hfocus, hsend⟩ := h.client
  refine ⟨s.server.hub.seedMsg (some sid), ?_⟩
  show (s.upload serde).Fed sid epoch seq st up _
  unfold Conversation.upload Server.receive
  rw [h.socket]
  dsimp only
  rw [hc, Option.bind_some, hfocus]
  refine ⟨h.store, rfl, ⟨{ c with send := c.send ++ [_] }, ?_, hfocus, congrArg (· ++ [_]) hsend⟩,
    h.journal, h.unbuffered, h.idle⟩
  rw [client_sendToClient_self, hc]
  rfl

/-- A client that is not behind takes what follows. -/
theorem Fed.takes {n k : ℕ} (h : s.Fed sid epoch seq st up (following ev epoch k n ++ ch))
    (hseq : st.seedSeq = k) (hepoch : st.seedEpoch = epoch) (hlatch : st.seedRequested = false) :
    ∃ st' : Store, st'.seedSeq = k + n ∧ st'.seedEpoch = epoch ∧ st'.seedRequested = false ∧
      (s.run serde (List.replicate n .deliver)).Fed sid epoch seq st' up ch := by
  induction n generalizing s st k with
  | zero => exact ⟨st, hseq, hepoch, hlatch, h⟩
  | succ n ih =>
    have hmsg := h.deliver
    rw [Store.onServer, if_neg (not_not.mpr hepoch.symm), if_neg (not_not.mpr (by rw [hseq])),
      List.append_nil] at hmsg
    obtain ⟨st', hseq', hrest⟩ := ih hmsg rfl hepoch rfl
    exact ⟨st', hseq'.trans (Nat.add_right_comm k 1 n), hrest⟩

/-- A gap sets the latch, and a seed is asked for. -/
theorem Fed.asks {k : ℕ} (h : s.Fed sid epoch seq st up (.event ev epoch k :: ch))
    (hepoch : st.seedEpoch = epoch) (hlatch : st.seedRequested = false)
    (hgap : k ≠ st.seedSeq + 1) :
    s.deliver.Fed sid epoch seq { st with seedRequested := true } (up ++ [.requestSeed none])
      ch := by
  have hmsg := h.deliver
  rw [Store.onServer, if_neg (not_not.mpr hepoch.symm), if_pos hgap, Store.requestSeed, hlatch,
    if_neg Bool.false_ne_true, if_pos rfl] at hmsg
  exact hmsg

/-- A client whose latch is set does nothing about a gap. -/
theorem Fed.ignores {n k : ℕ} (h : s.Fed sid epoch seq st up (following ev epoch k n ++ ch))
    (hlatch : st.seedRequested = true) (hgap : st.seedSeq < k) :
    (s.run serde (List.replicate n .deliver)).Fed sid epoch seq st up ch := by
  induction n generalizing s k with
  | zero => exact h
  | succ n ih =>
    have hkept : st.onServer true (.event ev epoch (k + 1)) = (st, []) := by
      have hne : k + 1 ≠ st.seedSeq + 1 := by omega
      rw [Store.onServer, Store.requestSeed, if_pos hlatch, if_pos hne, ite_self]
    have hmsg := h.deliver
    rw [hkept, List.append_nil] at hmsg
    exact ih hmsg (Nat.lt_succ_of_lt hgap)

theorem Fed.atRest (h : s.Fed sid epoch seq st [] []) : s.AtRest := by
  rintro key up c hsocket hc
  rw [h.socket] at hsocket
  cases hsocket
  obtain ⟨c', hc', -, hsend⟩ := h.client
  rw [hc'] at hc
  cases hc
  exact ⟨rfl, hsend, h.idle⟩

theorem Fed.not_inSync (h : s.Fed sid epoch seq st up ch) (hlatch : st.seedRequested = true) :
    ¬s.InSync := by
  intro hsync
  obtain ⟨c, hc, -⟩ := h.client
  have hnot := (hsync 0 up c h.socket hc).1
  rw [h.store, hlatch] at hnot
  cases hnot

/-- **A seed that is lost leaves the latch set**: the channel is full when the last of some
events comes, and full again when the seed does. -/
theorem Fed.loses_seed (h : s.Fed ev.sid epoch seq st [] []) (hseq : st.seedSeq = seq)
    (hepoch : st.seedEpoch = epoch) (hlatch : st.seedRequested = false) (m : Moment)
    (hreset : isReset ev = false) (hclose : ∀ h : SessionHub, h.closeJournal ev = h) (n : ℕ) :
    let event := Action.server (.input (.event m ev))
    let last := s.run serde (List.replicate (n + 2) event ++
      [.lose 0 (n + 1), .deliver, event] ++ List.replicate (n + 1) .deliver ++
      List.replicate (n + 1) event ++ [.upload, .lose 0 (n + 1)] ++
      List.replicate (n + 1) .deliver)
    last.AtRest ∧ ¬last.InSync := by
  intro event last
  have hsent := (h.events serde m hreset hclose (n + 2)).lose serde (n + 1)
  rw [List.nil_append, eraseIdx_following] at hsent
  have hfirst : Fed _ ev.sid epoch _ st [] (following ev epoch seq 1 ++
    following ev epoch (seq + 1) n) := hsent
  obtain ⟨st₁, hseq₁, hepoch₁, hlatch₁, hone⟩ := hfirst.takes serde hseq hepoch hlatch
  -- the next event is behind a gap
  obtain ⟨st₂, hseq₂, hepoch₂, hlatch₂, hgap⟩ :=
    (hone.event serde m hreset hclose).takes serde hseq₁ hepoch₁ hlatch₁
  have hasked := hgap.asks hepoch₂ hlatch₂ (by omega)
  -- the seed is behind what was sent meanwhile
  obtain ⟨seed, hseed⟩ := (hasked.events serde m hreset hclose (n + 1)).seed serde
  have hlost := hseed.lose serde (n + 1)
  rw [List.nil_append, List.eraseIdx_append_of_length_le (length_following ..).le,
    length_following, Nat.sub_self] at hlost
  have hlast := hlost.ignores serde rfl (by dsimp only; omega)
  have hsplit : List.replicate (n + 1) Action.deliver = List.replicate n .deliver ++ [.deliver] :=
    List.replicate_succ'
  have hfed : last.Fed ev.sid epoch (seq + (n + 2) + 1 + (n + 1)) { st₂ with seedRequested := true }
      [] [] := by
    simp only [last, event, run, hsplit, List.foldl_append, List.foldl_cons, List.foldl_nil,
      List.replicate_one] at hlast ⊢
    exact hlast
  exact ⟨hfed.atRest, hfed.not_inSync rfl⟩

end Fed

end Conversation

section Run

variable (serde : Serde) (deltaFlushMs nowMs : ℕ) (defaultSeed : Option SwapSeed)

/-- Server and client at boot are in order. -/
theorem exists_inOrder_boot :
    ∃ B, InOrder serde B (Conversation.boot deltaFlushMs nowMs defaultSeed) := by
  obtain ⟨B, hserver⟩ := @exists_serverOk_boot serde deltaFlushMs nowMs defaultSeed
  refine ⟨B, hserver, Server.seated_boot deltaFlushMs nowMs defaultSeed, ?_,
    .inl ⟨rfl, rfl, rfl⟩, ?_, trivial⟩
  · intro msg hmsg
    cases hmsg
  · intro hset
    cases hset

/-- A message of the default session. -/
private noncomputable def helloMessage : Conversation.Action :=
  .server (.input (.event ⟨default, 0, true⟩
    (.userMessage ⟨⟨"w", "s"⟩, "t", none⟩ "u" "hello" none none none)))

/-- The client connects, and is sent the seed of the default session. -/
private def greeted : List Conversation.Action := [.connect, .upload, .deliver, .deliver]

end Run

end Pantoken
