import Pantoken.Client.Store
import Pantoken.Server.Builds

/-!
# Clients follow the journals

A client that holds a watermark holds the fold of the build of its epoch up to there: a
seed brings it there, the gate lets only the next event of the build in, and a build
never changes but by growing.

## Main definitions

* `StoreOk`, `SystemOk` — the invariant.
* `Consistent` — what the invariant promises of a state, for all later builds.

## Main results

* `StoreOk.onServer` — the gate keeps a client on its build.
* `systemOk_step` — a step keeps the invariant, for a grown assignment.
* `exists_builds_consistent` — **one assignment of builds to epochs explains every state
  of a run.**
-/

namespace Pantoken

/-! ### What a client holds -/

/-- A client holds nothing, or the fold of a build up to its watermark. -/
def StoreOk (B : Builds) (st : Store) : Prop :=
  (st.seedEpoch = 0 ∧ st.seedSeq = 0 ∧ st.session = initialSessionState) ∨
    ∃ b, B st.seedEpoch = some b ∧ st.seedSessionId = some b.sid ∧
      st.seedSeq ≤ b.stamped.length ∧ st.session = Ts.foldAll (b.upTo st.seedSeq)

theorem StoreOk.mono {B B' : Builds} (hB : B.Extends B') {st : Store} (h : StoreOk B st) :
    StoreOk B' st := by
  rcases h with h | ⟨b, hb, hsid, hseq, hs⟩
  · exact .inl h
  · obtain ⟨b', hb', hs', hd, hp⟩ := hB _ b hb
    refine .inr ⟨b', hb', by rw [hsid, hs'], hseq.trans hp.length_le, ?_⟩
    rw [hs, SessionBuild.upTo_eq hd hp hseq]

/-! ### The gate -/

/-- The client's reducer cannot tell a fused pair from its parts either. -/
theorem Ts.foldEvent_sound : Coalesce.Sound tryMerge Ts.foldEvent := by
  intro s b c m h
  rcases tryMerge_cases h with ⟨base, t, ch, e, base', t', ch', e', rfl, rfl, hch, rfl⟩ |
    ⟨base, u, base', u', rfl, rfl, rfl⟩
  · simp only [Ts.foldEvent]
    rw [foldDelta_foldDelta _ hch]
  · rfl

theorem Ts.foldAll_coalesceEvents (es : List SessionDriverEvent) :
    Ts.foldAll (coalesceEvents es) = Ts.foldAll es := Ts.foldEvent_sound.foldl_coalesce _ es

/-- **The gate keeps a client on its build.** -/
theorem StoreOk.onServer {B : Builds} (hB : B 0 = none) {st : Store} (h : StoreOk B st)
    (online : Bool) {msg : ServerMessage} (hm : MsgOk B msg) :
    StoreOk B (st.onServer online msg).1 := by
  cases msg with
  | hello =>
    simp only [Store.onServer]
    split <;> exact h
  | seed sessionId epoch seq events =>
    rcases hm with ⟨rfl, rfl, rfl⟩ | ⟨b, hb, hsid, hseq, rfl⟩
    · exact .inl ⟨rfl, rfl, rfl⟩
    · exact .inr ⟨b, hb, hsid, hseq, Ts.foldAll_coalesceEvents _⟩
  | event ev epoch seq =>
    simp only [Store.onServer]
    split
    · exact h
    · next hepoch =>
      have hepoch : epoch = st.seedEpoch := not_not.mp hepoch
      split
      · -- the event leaves a gap: what the client holds stays
        unfold Store.requestSeed
        split
        · exact h
        · dsimp only
          split <;> exact h
      · next hseq =>
        have hseq : seq = st.seedSeq + 1 := not_not.mp hseq
        subst hepoch hseq
        obtain ⟨b, hb, -, hev⟩ := hm
        rcases h with ⟨he, -, -⟩ | ⟨b', hb', hsid, hle, hs⟩
        · rw [he, hB] at hb
          cases hb
        · obtain rfl : b = b' := Option.some.inj (hb.symm.trans hb')
          obtain ⟨hlt, hget⟩ := List.getElem?_eq_some_iff.mp hev
          refine .inr ⟨b, hb, hsid, hlt, ?_⟩
          have htake : b.upTo (st.seedSeq + 1) = b.upTo st.seedSeq ++ [ev] := by
            simp only [Nat.add_sub_cancel] at hget hlt
            rw [SessionBuild.upTo, SessionBuild.upTo, List.append_assoc,
              List.take_succ_eq_append_getElem hlt, hget]
          rw [htake, Ts.foldAll, List.foldl_append, ← Ts.foldAll, ← hs]
          rfl
  | promptResult | error | switchError => exact h

/-! ### The system -/

/-- Server and clients are in order. -/
structure SystemOk (serde : Serde) (B : Builds) (s : System) : Prop where
  server : ServerOk serde B s.server
  stores : ∀ p ∈ s.peers, StoreOk B p.store

section System

variable {serde : Serde} {B : Builds} {s : System}

/-- Epoch zero is no build. -/
theorem ServerOk.zero {sv : Server} (hs : ServerOk serde B sv) : B 0 = none := by
  cases hb : B 0 with
  | none => rfl
  | some b => exact absurd (hs.hub.fresh 0 b hb).1 (Nat.lt_irrefl 0)

/-- A step of the server that leaves the clients what they hold. -/
theorem ServerGrows.system {s' : System} (hs : SystemOk serde B s)
    (hsv : ServerGrows serde B s'.server)
    (hp : ∀ p' ∈ s'.peers, ∃ p ∈ s.peers, p'.store = p.store) :
    ∃ B', B.Extends B' ∧ SystemOk serde B' s' := by
  obtain ⟨B', hB, hsv⟩ := hsv
  refine ⟨B', hB, hsv, fun p' hp' => ?_⟩
  obtain ⟨p, hmem, heq⟩ := hp p' hp'
  rw [heq]
  exact (hs.stores p hmem).mono hB

theorem exists_of_mem_set {i : Nat} {peers : List Peer} {p p' : Peer}
    (hi : peers[i]? = some p) {key : Option Nat} (hp' : p' ∈ peers.set i ⟨p.store, key⟩) :
    ∃ q ∈ peers, p'.store = q.store := by
  rcases List.mem_or_eq_of_mem_set hp' with hp' | rfl
  · exact ⟨p', hp', rfl⟩
  · exact ⟨p, List.mem_of_getElem? hi, rfl⟩

theorem ServerOk.keepMessages {sv : Server} (hs : ServerOk serde B sv) (key : Nat)
    {f : List ServerMessage → List ServerMessage} (hf : ∀ l, ∀ msg ∈ f l, msg ∈ l) :
    ServerOk serde B { sv with hub := System.keepMessages sv.hub key f } :=
  ⟨hs.hub.updateClient key fun c => hf c.send, hs.phase⟩

/-- A message reaches a client: the gate keeps it on its build, and its answer asks the
server for no more than a seed. -/
theorem SystemOk.receive (hs : SystemOk serde B s) (i : Nat) {peer : Peer} (hp : peer ∈ s.peers)
    (key : Nat) (online : Bool) : SystemOk serde B (s.receive i peer key online) := by
  unfold System.receive
  split
  · exact hs
  · next msg hmsg =>
    obtain ⟨c, hc, hhead⟩ := Option.bind_eq_some_iff.mp hmsg
    have hm : MsgOk B msg :=
      hs.server.hub.sent c (List.mem_of_find?_eq_some hc) msg (List.mem_of_head? hhead)
    have hstore := (hs.stores peer hp).onServer hs.server.zero online hm
    have hsv := hs.server.keepMessages key (f := List.tail) fun l m hm => List.mem_of_mem_tail hm
    refine ⟨?_, fun p' hp' => ?_⟩
    · exact List.foldlRecOn _ _ hsv fun sv hsv msg _ => hsv.receive key msg
    · rcases List.mem_or_eq_of_mem_set hp' with hp' | rfl
      · exact hs.stores p' hp'
      · exact hstore

/-- **A step keeps the invariant**, for an assignment that grew. -/
theorem systemOk_step (hs : SystemOk serde B s) (a : System.Action) :
    ∃ B', B.Extends B' ∧ SystemOk serde B' (s.step serde a) := by
  cases a with
  | server a => exact ServerGrows.system hs (hs.server.step a) fun p hp => ⟨p, hp, rfl⟩
  | connect i =>
    simp only [System.step]
    split
    · next peer hi =>
      refine ServerGrows.system hs ?_ fun p hp => exists_of_mem_set hi hp
      exact hs.server.input (.connect peer.store.resumeToken)
    · exact ⟨B, .refl B, hs⟩
  | disconnect i =>
    simp only [System.step]
    split
    · next store key hi =>
      refine ServerGrows.system hs ?_ fun p hp => exists_of_mem_set hi hp
      exact hs.server.input (.disconnect key)
    · exact ⟨B, .refl B, hs⟩
  | deliver i online =>
    simp only [System.step]
    split
    · next store key hi => exact ⟨B, .refl B, hs.receive i (List.mem_of_getElem? hi) key online⟩
    · exact ⟨B, .refl B, hs⟩
  | lose key n =>
    refine ⟨B, .refl B, ?_, hs.stores⟩
    exact hs.server.keepMessages key fun l m hm => List.mem_of_mem_eraseIdx hm
  | abandon i =>
    refine ⟨B, .refl B, hs.server, fun p hp => ?_⟩
    obtain ⟨k, hk⟩ := List.mem_iff_getElem?.mp hp
    rw [System.step, System.updatePeer, List.getElem?_modify] at hk
    cases hq : s.peers[k]? with
    | none =>
      rw [hq] at hk
      cases hk
    | some q =>
      rw [hq] at hk
      have hqs := hs.stores q (List.mem_of_getElem? hq)
      obtain rfl := Option.some.inj hk
      split
      · exact .inl ⟨rfl, rfl, rfl⟩
      · exact hqs

theorem systemOk_boot {sv : Server} (hs : ServerOk serde B sv) (clients : Nat) :
    SystemOk serde B (System.boot sv clients) := by
  refine ⟨hs, fun p hp => ?_⟩
  rw [List.eq_of_mem_replicate hp]
  exact .inl ⟨rfl, rfl, rfl⟩

/-- Every journal stands for its build up to its own sequence number, every message on the
way is a part of a build, and every client holds the fold of a build up to its watermark. -/
structure Consistent (serde : Serde) (B : Builds) (s : System) : Prop where
  journal : ∀ sid j, s.server.hub.journals sid = some j →
    ∃ b, B j.epoch = some b ∧ b.sid = sid ∧ j.seq ≤ b.stamped.length ∧
      Represents serde j b.seed (b.stamped.take j.seq)
  sent : ∀ c ∈ s.server.hub.clients, ∀ msg ∈ c.send, MsgOk B msg
  stores : ∀ p ∈ s.peers, StoreOk B p.store

theorem SystemOk.consistent (hs : SystemOk serde B s) : Consistent serde B s where
  journal := fun sid j hj => by
    obtain ⟨b, hb, hsid, hrep⟩ := hs.server.hub.journal sid j hj
    have hseq : j.seq = b.stamped.length := hrep.seq_eq
    exact ⟨b, hb, hsid, hseq.le, by rwa [hseq, List.take_length]⟩
  sent := hs.server.hub.sent
  stores := hs.stores

/-- Unlike the invariant, this stays true as the builds grow. -/
theorem Consistent.mono {B' : Builds} (hB : B.Extends B') (h : Consistent serde B s) :
    Consistent serde B' s where
  journal := fun sid j hj => by
    obtain ⟨b, hb, hsid, hle, hrep⟩ := h.journal sid j hj
    obtain ⟨b', hb', hs, hd, evs, hevs⟩ := hB _ b hb
    refine ⟨b', hb', hs.trans hsid, ?_, ?_⟩
    · rw [← hevs, List.length_append]
      omega
    · rwa [hd, ← hevs, List.take_append_of_le_length hle]
  sent := fun c hc msg hm => (h.sent c hc msg hm).mono hB
  stores := fun p hp => (h.stores p hp).mono hB

/-- A run from a state in order, with the assignment of its last state. -/
theorem SystemOk.exists_consistent (hs : SystemOk serde B s) (acts : List System.Action) :
    ∃ B', B.Extends B' ∧
      ∀ n, Consistent serde B' ((acts.take n).foldl (System.step serde) s) := by
  induction acts generalizing B s with
  | nil => exact ⟨B, .refl B, fun n => by simpa using hs.consistent⟩
  | cons a acts ih =>
    -- the last assignment extends that of every state before
    obtain ⟨B₁, hB₁, hs₁⟩ := systemOk_step hs a
    obtain ⟨B₂, hB₂, h⟩ := ih hs₁
    refine ⟨B₂, hB₁.trans hB₂, fun n => ?_⟩
    cases n with
    | zero => exact hs.consistent.mono (hB₁.trans hB₂)
    | succ n => exact h n

/-- **One assignment of builds to epochs explains every state of a run**: whatever server
and clients do from boot on, a client's watermark names the seed and the events its state
is the fold of, and an epoch is of one build of one session for good. -/
theorem exists_builds_consistent (serde : Serde) (deltaFlushMs nowMs : Nat)
    (defaultSeed : Option SwapSeed) (clients : Nat) (acts : List System.Action) :
    ∃ B : Builds, ∀ n, Consistent serde B
      ((acts.take n).foldl (System.step serde)
        (System.boot (Server.boot deltaFlushMs nowMs defaultSeed) clients)) := by
  obtain ⟨B₀, hs⟩ := exists_serverOk_boot deltaFlushMs nowMs defaultSeed
  obtain ⟨B, -, h⟩ := (systemOk_boot hs clients).exists_consistent acts
  exact ⟨B, h⟩

end System

end Pantoken
