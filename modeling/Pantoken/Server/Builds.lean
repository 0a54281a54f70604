import Pantoken.Server.Moves

/-!
# Builds and their epochs

Every epoch belongs to one build of one transcript: a seed and the events stamped on it
since.  A journal stands for the build of its epoch, and what is on the way to a client
is a part of some build.  Each step of the server keeps this for an assignment of builds
to epochs that only ever grows.

## Main definitions

* `SessionBuild`, `Builds`, `Builds.Extends` — builds, their epochs, and growth.
* `MsgOk` — a message is a part of a build.
* `HubOk`, `ServerOk` — the invariant.

## Main results

* `ServerOk.step` — a step of the server keeps the invariant, for a grown assignment.
* `exists_serverOk_boot` — the server at boot is in order.
-/

namespace Pantoken

/-! ### Builds -/

/-- A build of a session's transcript. -/
structure SessionBuild extends Build where
  sid : SessionId

/-- The events of a build up to a sequence number. -/
def SessionBuild.upTo (b : SessionBuild) (seq : Nat) : List SessionDriverEvent :=
  b.seed ++ b.stamped.take seq

/-- Builds by epoch. -/
abbrev Builds := PMap Nat SessionBuild

/-- `B'` has the builds of `B`, perhaps with more events, and perhaps others. -/
def Builds.Extends (B B' : Builds) : Prop :=
  ∀ e b, B e = some b →
    ∃ b', B' e = some b' ∧ b'.sid = b.sid ∧ b'.seed = b.seed ∧ b.stamped <+: b'.stamped

theorem Builds.Extends.refl (B : Builds) : B.Extends B :=
  fun _ b h => ⟨b, h, rfl, rfl, List.prefix_rfl⟩

theorem Builds.Extends.trans {B B' B'' : Builds} (h : B.Extends B') (h' : B'.Extends B'') :
    B.Extends B'' := by
  intro e b hb
  obtain ⟨b', hb', hs, hd, hp⟩ := h e b hb
  obtain ⟨b'', hb'', hs', hd', hp'⟩ := h' e b' hb'
  exact ⟨b'', hb'', hs'.trans hs, hd'.trans hd, hp.trans hp'⟩

/-- A new epoch extends the assignment. -/
theorem Builds.extends_insert_new {B : Builds} {e : Nat} (he : B e = none) (b : SessionBuild) :
    B.Extends (B.insert e b) := by
  intro e' b' hb'
  have hne : e' ≠ e := by
    rintro rfl
    rw [he] at hb'
    cases hb'
  exact ⟨b', by rw [PMap.insert_of_ne _ _ hne, hb'], rfl, rfl, List.prefix_rfl⟩

/-- Stamping an event extends the assignment. -/
theorem Builds.extends_insert_stamped {B : Builds} {e : Nat} {b : SessionBuild} (hb : B e = some b)
    (evs : List SessionDriverEvent) :
    B.Extends (B.insert e { b with stamped := b.stamped ++ evs }) := by
  intro e' b' hb'
  by_cases he : e' = e
  · subst he
    obtain rfl : b = b' := Option.some.inj (hb.symm.trans hb')
    exact ⟨_, PMap.insert_self _ _ _, rfl, rfl, List.prefix_append _ _⟩
  · exact ⟨b', by rw [PMap.insert_of_ne _ _ he, hb'], rfl, rfl, List.prefix_rfl⟩

/-- A build that grew is the same up to where it had come. -/
theorem SessionBuild.upTo_eq {b b' : SessionBuild} (hd : b'.seed = b.seed)
    (hp : b.stamped <+: b'.stamped) {seq : Nat} (hseq : seq ≤ b.stamped.length) :
    b'.upTo seq = b.upTo seq := by
  obtain ⟨evs, hevs⟩ := hp
  rw [upTo, upTo, hd, ← hevs, List.take_append_of_le_length hseq]

/-! ### Messages -/

/-- A message is a part of some build, or seeds a session that has no journal. -/
def MsgOk (B : Builds) : ServerMessage → Prop
  | .seed sessionId epoch seq events =>
    (epoch = 0 ∧ seq = 0 ∧ events = []) ∨
      ∃ b, B epoch = some b ∧ sessionId = some b.sid ∧ seq ≤ b.stamped.length ∧
        events = coalesceEvents (b.upTo seq)
  | .event ev epoch seq => ∃ b, B epoch = some b ∧ 0 < seq ∧ b.stamped[seq - 1]? = some ev
  | _ => True

theorem MsgOk.mono {B B' : Builds} (hB : B.Extends B') {msg : ServerMessage} (h : MsgOk B msg) :
    MsgOk B' msg := by
  cases msg with
  | seed sessionId epoch seq events =>
    rcases h with h | ⟨b, hb, hsid, hseq, hev⟩
    · exact .inl h
    · obtain ⟨b', hb', hs, hd, hp⟩ := hB epoch b hb
      refine .inr ⟨b', hb', by rw [hsid, hs], hseq.trans hp.length_le, ?_⟩
      rw [hev, SessionBuild.upTo_eq hd hp hseq]
  | event ev epoch seq =>
    obtain ⟨b, hb, hpos, hev⟩ := h
    obtain ⟨b', hb', -, -, evs, hevs⟩ := hB epoch b hb
    refine ⟨b', hb', hpos, ?_⟩
    rw [← hevs, List.getElem?_append_left (List.getElem?_eq_some_iff.mp hev).1, hev]
  | hello | promptResult | error | switchError => trivial

/-! ### The hub -/

/-- The journals stand for the builds of their epochs, the epochs are those handed out,
and every channel holds parts of builds. -/
structure HubOk (serde : Serde) (B : Builds) (h : SessionHub) : Prop where
  journal : ∀ sid j, h.journals sid = some j →
    ∃ b, B j.epoch = some b ∧ b.sid = sid ∧ Represents serde j b.seed b.stamped
  fresh : ∀ e b, B e = some b → 0 < e ∧ e ≤ h.epochCounter
  sent : ∀ c ∈ h.clients, ∀ msg ∈ c.send, MsgOk B msg

/-- The hub is in order for some grown assignment. -/
def Grows (serde : Serde) (B : Builds) (h : SessionHub) : Prop :=
  ∃ B', B.Extends B' ∧ HubOk serde B' h

section Hub

variable {serde : Serde} {B : Builds} {h : SessionHub}

theorem HubOk.grows (hh : HubOk serde B h) : Grows serde B h := ⟨B, .refl B, hh⟩

/-- A step from a grown assignment grows further. -/
theorem Grows.bind {h' : SessionHub} (hh : Grows serde B h)
    (hstep : ∀ B', HubOk serde B' h → Grows serde B' h') : Grows serde B h' := by
  obtain ⟨B', hB, hh⟩ := hh
  obtain ⟨B'', hB', hh'⟩ := hstep B' hh
  exact ⟨B'', hB.trans hB', hh'⟩

/-- Losing journals and messages keeps a hub in order. -/
theorem HubOk.of_le {h' : SessionHub} (hh : HubOk serde B h)
    (hj : ∀ sid j, h'.journals sid = some j → h.journals sid = some j)
    (he : h.epochCounter ≤ h'.epochCounter)
    (hs : ∀ c ∈ h'.clients, ∀ msg ∈ c.send, MsgOk B msg) : HubOk serde B h' where
  journal := fun sid j hsid => hh.journal sid j (hj sid j hsid)
  fresh := fun e b hb => ⟨(hh.fresh e b hb).1, (hh.fresh e b hb).2.trans he⟩
  sent := hs

/-- A step that leaves journals, epochs and clients alone. -/
theorem HubOk.frame {h' : SessionHub} (hh : HubOk serde B h) (hj : h'.journals = h.journals)
    (he : h'.epochCounter = h.epochCounter) (hc : h'.clients = h.clients) : HubOk serde B h' :=
  hh.of_le (fun sid j hsid => by rwa [hj] at hsid) he.ge (by rw [hc]; exact hh.sent)

theorem HubOk.sendWhere (hh : HubOk serde B h) (p : ClientConn → Bool) {msg : ServerMessage}
    (hm : MsgOk B msg) : HubOk serde B (h.sendWhere p msg) := by
  refine hh.of_le (fun _ _ hj => hj) le_rfl fun c hc m hmem => ?_
  obtain ⟨c', hc', rfl⟩ := List.mem_map.mp hc
  split at hmem
  · rcases List.mem_append.mp hmem with hmem | hmem
    · exact hh.sent c' hc' m hmem
    · rw [List.mem_singleton.mp hmem]
      exact hm
  · exact hh.sent c' hc' m hmem

theorem HubOk.updateClient (hh : HubOk serde B h) (key : Nat) {f : ClientConn → ClientConn}
    (hf : ∀ c, ∀ msg ∈ (f c).send, msg ∈ c.send) : HubOk serde B (h.updateClient key f) := by
  refine hh.of_le (fun _ _ hj => hj) le_rfl fun c hc m hmem => ?_
  obtain ⟨c', hc', rfl⟩ := List.mem_map.mp hc
  split at hmem
  · exact hh.sent c' hc' m (hf c' m hmem)
  · exact hh.sent c' hc' m hmem

/-- A seed message carries the whole build of the session's journal. -/
theorem HubOk.seedMsg (hh : HubOk serde B h) (sid : Option SessionId) :
    MsgOk B (h.seedMsg sid) := by
  unfold SessionHub.seedMsg SessionHub.seedOf
  cases hj : sid.bind h.journals with
  | none => exact .inl ⟨rfl, rfl, rfl⟩
  | some j =>
    obtain ⟨s, rfl, hs⟩ := Option.bind_eq_some_iff.mp hj
    obtain ⟨b, hb, rfl, hrep⟩ := hh.journal s j hs
    have hseq : j.seq = b.stamped.length := hrep.seq_eq
    refine .inr ⟨b, hb, rfl, hseq.le, ?_⟩
    rw [SessionBuild.upTo, hseq, List.take_length]
    exact hrep.buildSeed_events

/-- A journal under the next epoch begins a build. -/
theorem HubOk.insert_new (hh : HubOk serde B h) (sid : SessionId) {j : SessionJournal}
    {seed : List SessionDriverEvent} (he : j.epoch = h.epochCounter + 1)
    (hj : Represents serde j seed []) : Grows serde B (h.nextEpoch.setJournal sid j) := by
  -- the epochs in use are at most the counter
  have hnew : B (h.epochCounter + 1) = none := by
    rcases hb : B (h.epochCounter + 1) with _ | b
    · rfl
    · have := (hh.fresh _ b hb).2
      omega
  have hB := Builds.extends_insert_new hnew ⟨⟨seed, []⟩, sid⟩
  refine ⟨_, hB, ?_, ?_, fun c hc m hm => (hh.sent c hc m hm).mono hB⟩
  · intro s j' hj'
    by_cases hs : s = sid
    · subst hs
      obtain rfl : j = j' := by simpa [SessionHub.setJournal] using hj'
      exact ⟨_, by rw [he]; exact PMap.insert_self _ _ _, rfl, hj⟩
    · obtain ⟨b, hb, hbs, hrep⟩ :=
        hh.journal s j' (by simpa [SessionHub.setJournal, SessionHub.nextEpoch, hs] using hj')
      have hne : j'.epoch ≠ h.epochCounter + 1 := by
        have := (hh.fresh _ b hb).2
        omega
      exact ⟨b, by rw [PMap.insert_of_ne _ _ hne, hb], hbs, hrep⟩
  · intro e b hb
    rw [PMap.insert_apply] at hb
    split at hb
    · next heq => subst heq; exact ⟨Nat.succ_pos _, le_rfl⟩
    · have := hh.fresh e b hb
      exact ⟨this.1, this.2.trans (Nat.le_succ _)⟩

theorem HubOk.startJournal (hh : HubOk serde B h) (sid : SessionId)
    (seed : List SessionDriverEvent) : Grows serde B (h.startJournal sid seed) :=
  hh.insert_new sid rfl (represents_create _ seed)

/-- Stamping an event extends the build of its journal, and of no other. -/
theorem HubOk.append (hh : HubOk serde B h) {sid : SessionId} {j : SessionJournal}
    (hj : h.journals sid = some j) (ev : SessionDriverEvent) :
    ∃ B', B.Extends B' ∧ HubOk serde B' (h.setJournal sid (appendEvent serde j ev)) ∧
      MsgOk B' (.event ev j.epoch (j.seq + 1)) := by
  obtain ⟨b, hb, hsid, hrep⟩ := hh.journal sid j hj
  have hB := Builds.extends_insert_stamped hb [ev]
  refine ⟨_, hB, ⟨?_, ?_, fun c hc m hm => (hh.sent c hc m hm).mono hB⟩, ?_⟩
  · intro s j' hj'
    by_cases hs : s = sid
    · subst hs
      obtain rfl : appendEvent serde j ev = j' := by
        simpa [SessionHub.setJournal] using hj'
      exact ⟨_, PMap.insert_self _ _ _, hsid, hrep.append ev⟩
    · obtain ⟨b', hb', hbs, hrep'⟩ :=
        hh.journal s j' (by simpa [SessionHub.setJournal, hs] using hj')
      -- an epoch is of one session, so the other journals are of other epochs
      have hne : j'.epoch ≠ j.epoch := by
        intro heq
        rw [heq, hb] at hb'
        cases hb'
        exact hs (hbs.symm.trans hsid)
      exact ⟨b', by rw [PMap.insert_of_ne _ _ hne, hb'], hbs, hrep'⟩
  · intro e b' hb'
    rw [PMap.insert_apply] at hb'
    split at hb'
    · next heq => subst heq; exact hh.fresh _ b hb
    · exact hh.fresh e b' hb'
  · refine ⟨_, PMap.insert_self _ _ _, Nat.succ_pos _, ?_⟩
    simp [hrep.seq_eq]

theorem HubOk.ingestNow (hh : HubOk serde B h) (order : HashOrder) (ev : SessionDriverEvent) :
    Grows serde B (h.ingestNow serde order ev) := by
  unfold SessionHub.ingestNow
  cases hj : h.journals ev.sid with
  | none => exact hh.grows
  | some j =>
    have happ : Grows serde B ((h.setJournal ev.sid (appendEvent serde j ev)).sendFocused ev.sid
        (.event ev j.epoch (j.seq + 1))) := by
      obtain ⟨B', hB, hh', hm⟩ := hh.append hj ev
      exact ⟨B', hB, hh'.sendWhere _ hm⟩
    cases ev with
    | sessionReset base =>
      have hrep := @represents_bump serde j (h.epochCounter + 1)
        (metaSeedEvents order (foldEvent (foldAll (buildSeed j).2.2) (.sessionReset base))
          base.sessionRef base.timestamp)
      refine (hh.insert_new base.sessionRef.sessionId rfl hrep).bind fun B' hh' => ?_
      exact HubOk.grows (hh'.sendWhere _ (hh'.seedMsg _))
    | _ => exact happ

theorem HubOk.closeJournal (hh : HubOk serde B h) (ev : SessionDriverEvent) :
    HubOk serde B (h.closeJournal ev) := by
  unfold SessionHub.closeJournal
  split
  · split
    · refine hh.of_le (fun s j hj => ?_) le_rfl hh.sent
      dsimp only [SessionHub.dropPending] at hj
      rw [PMap.erase_apply] at hj
      split at hj
      · cases hj
      · exact hj
    · exact hh
  · exact hh

/-- A move keeps the hub in order. -/
theorem HubOk.move {h' : SessionHub} (hh : HubOk serde B h) (hm : SessionHub.Move serde h h') :
    Grows serde B h' := by
  cases hm with
  | buffer hj he hc hn hd => exact (hh.frame hj he hc).grows
  | stamp order ev => exact hh.ingestNow order ev
  | close ev => exact (hh.closeJournal ev).grows
  | @note k msg hmsg =>
    refine (hh.sendWhere _ ?_).grows
    cases msg with
    | seed | event => cases hmsg
    | hello | promptResult | error | switchError => trivial
  | @mark k f only queues =>
    refine (hh.updateClient k ?_).grows
    intro c msg hmem
    rw [only] at hmem
    exact hmem

theorem HubOk.moves {h' : SessionHub} (hh : HubOk serde B h)
    (hm : SessionHub.Moves serde h h') : Grows serde B h' := by
  induction hm with
  | refl => exact hh.grows
  | tail _ hstep ih => exact ih.bind fun _ hh' => hh'.move hstep

/-- What a new connection is sent. -/
theorem HubOk.greeting (hh : HubOk serde B h) (focusedId : Option SessionId)
    (resume : Option ResumeToken) : ∀ msg ∈ h.greeting focusedId resume, MsgOk B msg := by
  have hseed : ∀ sid, ∀ msg ∈ [h.seedMsg sid], MsgOk B msg := fun sid msg hm => by
    rw [List.mem_singleton.mp hm]
    exact hh.seedMsg sid
  cases resume with
  | none => exact hseed focusedId
  | some r =>
    simp only [SessionHub.greeting]
    cases hj : h.journals r.sessionId with
    | none => exact hseed focusedId
    | some j =>
      dsimp only
      by_cases hr : h.resumes r = true
      · obtain ⟨b, hb, -, hrep⟩ := hh.journal _ j hj
        have hcov : tailCovers j r.seq = true := by
          simp only [SessionHub.resumes, hj, Bool.decide_and, Bool.and_eq_true] at hr
          simpa using hr.2
        -- the missed frames are the end of the build
        rw [if_pos hr]
        intro msg hm
        obtain ⟨f, hf, rfl⟩ := List.mem_map.mp hm
        rw [hrep.filter_tail hcov] at hf
        obtain ⟨hlt, hget⟩ := getElem?_of_mem_frames serde hf
        refine ⟨b, hb, by omega, ?_⟩
        rw [List.getElem?_drop] at hget
        rw [← hget]
        congr 1
        omega
      · rw [if_neg hr]
        exact hseed _

theorem HubOk.addClient (hh : HubOk serde B h) (resume : Option ResumeToken) :
    HubOk serde B (h.addClient resume) := by
  refine hh.of_le (fun _ _ hj => hj) le_rfl fun c hc msg hm => ?_
  rcases List.mem_append.mp hc with hc | hc
  · exact hh.sent c hc msg hm
  · rw [List.mem_singleton.mp hc] at hm
    rcases List.mem_cons.mp hm with rfl | hm
    · trivial
    · exact hh.greeting _ _ msg hm

theorem HubOk.removeClient (hh : HubOk serde B h) (key : Nat) :
    HubOk serde B (h.removeClient key) :=
  hh.of_le (fun _ _ hj => hj) le_rfl fun c hc => hh.sent c (List.mem_filter.mp hc).1

end Hub

/-! ### The server -/

/-- A seed the applier has built and not yet sent. -/
def StageOk (B : Builds) : Stage → Prop
  | .seedBuilt _ msg | .reseeding _ msg _ => MsgOk B msg
  | _ => True

/-- The phase holds no seed but parts of builds. -/
def PhaseOk (B : Builds) : Phase → Prop
  | .switching _ _ stage _ => StageOk B stage
  | _ => True

theorem PhaseOk.mono {B B' : Builds} (hB : B.Extends B') {p : Phase} (h : PhaseOk B p) :
    PhaseOk B' p := by
  cases p with
  | idle | prompting => trivial
  | switching key sw stage first =>
    cases stage with
    | seedBuilt sid msg => exact MsgOk.mono hB h
    | reseeding sid msg viewers => exact MsgOk.mono hB h
    | _ => trivial

/-- The server is in order. -/
structure ServerOk (serde : Serde) (B : Builds) (s : Server) : Prop where
  hub : HubOk serde B s.hub
  phase : PhaseOk B s.phase

/-- The server is in order for some grown assignment. -/
def ServerGrows (serde : Serde) (B : Builds) (s : Server) : Prop :=
  ∃ B', B.Extends B' ∧ ServerOk serde B' s

section Server

variable {serde : Serde} {B : Builds} {s : Server}

theorem ServerOk.grows (hs : ServerOk serde B s) : ServerGrows serde B s := ⟨B, .refl B, hs⟩

/-- A step of the hub, the phase holding no more seeds than before. -/
theorem Grows.server {s' : Server} (hh : Grows serde B s'.hub)
    (hp : ∀ B', B.Extends B' → PhaseOk B' s'.phase) : ServerGrows serde B s' := by
  obtain ⟨B', hB, hh⟩ := hh
  exact ⟨B', hB, hh, hp B' hB⟩

theorem ServerOk.enqueueOnce (hs : ServerOk serde B s) (key : Nat) (promptId : Option String)
    (op : HubOp) : ServerOk serde B (s.enqueueOnce key promptId op) := by
  unfold Server.enqueueOnce
  split
  · exact ⟨hs.hub.sendWhere _ trivial, hs.phase⟩
  · exact ⟨hs.hub, hs.phase⟩

theorem ServerOk.receive (hs : ServerOk serde B s) (key : Nat) (msg : ClientMessage) :
    ServerOk serde B (s.receive key msg) := by
  cases msg with
  | prompt | newSession => exact hs.enqueueOnce _ _ _
  | requestSeed => exact ⟨hs.hub.sendWhere _ (hs.hub.seedMsg _), hs.phase⟩
  | openSession | reloadSession | branch | detachSession => exact ⟨hs.hub, hs.phase⟩

theorem HubOk.installJournal {h : SessionHub} (hh : HubOk serde B h) (sw : Switch)
    (seed : SwapSeed) (sid : SessionId) : Grows serde B (Server.installJournal h sw seed sid) := by
  unfold Server.installJournal
  split
  · have hd : HubOk serde B (h.dropPending sid) := hh.frame rfl rfl rfl
    exact hd.startJournal sid seed.events
  · exact hh.grows

theorem HubOk.seedRequester {h : SessionHub} (hh : HubOk serde B h) (key : Nat)
    (sid : SessionId) : HubOk serde B (Server.seedRequester h key sid) := by
  have hf : HubOk serde B (h.setClientFocus key sid) := hh.updateClient key fun _ _ hm => hm
  exact hf.sendWhere _ (hf.seedMsg _)

theorem HubOk.install (hs : HubOk serde B s.hub) (key : Nat) (sw : Switch) (seed : SwapSeed)
    (sid : SessionId) (first : Option FirstPrompt) :
    Grows serde B (s.install key sw seed sid first).hub := by
  refine (hs.installJournal sw seed sid).bind ?_
  intro B' hh
  simp only [Server.install]
  split
  · exact hh.grows
  · exact (hh.seedRequester key sid).grows

theorem phaseOk_iff {p : Phase} : PhaseOk B p ↔ ∀ msg, p.unsent = some msg → MsgOk B msg := by
  cases p with
  | idle | prompting => simp [PhaseOk, Phase.unsent]
  | switching key sw stage first => cases stage <;> simp [PhaseOk, StageOk, Phase.unsent]

/-- What a section builds is a part of a build. -/
theorem ServerOk.phase_tick (hs : ServerOk serde B s) (m : Moment) (answer : Answer) :
    PhaseOk B (s.tick serde m answer).phase := by
  rw [phaseOk_iff]
  intro msg hmsg
  rcases @unsent_tick serde s m answer with hnone | hsame | ⟨sid, hseed⟩
  · rw [hnone] at hmsg
    cases hmsg
  · rw [hsame] at hmsg
    exact phaseOk_iff.mp hs.phase msg hmsg
  · rw [hseed] at hmsg
    cases hmsg
    exact hs.hub.seedMsg _

theorem ServerOk.tick (hs : ServerOk serde B s) (m : Moment) (answer : Answer) :
    ServerGrows serde B (s.tick serde m answer) := by
  refine Grows.server ?_ fun B' hB => (hs.phase_tick m answer).mono hB
  rcases @tick_hub serde s m answer with hm | ⟨key, sw, first, c, hphase, hc, hmarked⟩ |
    ⟨key, sw, seed, sid, first, hphase⟩ | ⟨key, sw, sid, msg, viewer, viewers, first, hphase⟩
  · exact hs.hub.moves hm
  · simp only [Server.tick, hphase, Server.tickSwitch, hc, hmarked, if_true]
    exact HubOk.grows (hs.hub.updateClient key fun _ _ hmem => hmem)
  · simp only [Server.tick, hphase, Server.tickSwitch]
    exact hs.hub.install key sw seed sid first
  · have hmsg : MsgOk B msg := by
      apply phaseOk_iff.mp hs.phase
      rw [hphase]
      rfl
    simp only [Server.tick, hphase, Server.tickSwitch]
    exact HubOk.grows (hs.hub.sendWhere _ hmsg)

theorem ServerOk.input (hs : ServerOk serde B s) (i : Server.Input) :
    ServerGrows serde B (s.input serde i) := by
  cases i with
  | event m ev =>
    exact Grows.server (hs.hub.moves (moves_onEvent m ev)) fun B' hB => hs.phase.mono hB
  | connect resume => exact ServerOk.grows ⟨hs.hub.addClient resume, hs.phase⟩
  | disconnect key => exact ServerOk.grows ⟨hs.hub.removeClient key, hs.phase⟩
  | receive key msg => exact (hs.receive key msg).grows
  | timer | liveTimer | evict | disposeIdle => exact ServerOk.grows ⟨hs.hub, hs.phase⟩

theorem ServerOk.step (hs : ServerOk serde B s) (a : Server.Action) :
    ServerGrows serde B (s.step serde a) := by
  cases a with
  | tick m answer => exact hs.tick m answer
  | input i => exact hs.input i

/-- The server at boot: its only journal, if any, begins the first build. -/
theorem exists_serverOk_boot (deltaFlushMs nowMs : Nat) (defaultSeed : Option SwapSeed) :
    ∃ B, ServerOk serde B (Server.boot deltaFlushMs nowMs defaultSeed) := by
  have hnew : HubOk serde .empty (SessionHub.new deltaFlushMs nowMs none) := by
    refine ⟨fun sid j hj => ?_, fun e b hb => ?_, fun c hc => ?_⟩
    · exact absurd hj (by simp [SessionHub.new, SessionHub.seedDefault])
    · exact absurd hb (by simp)
    · exact absurd hc (by simp [SessionHub.new, SessionHub.seedDefault])
  have hboot : Grows serde .empty (SessionHub.new deltaFlushMs nowMs defaultSeed) := by
    cases defaultSeed with
    | none => exact hnew.grows
    | some seed =>
      unfold SessionHub.new SessionHub.seedDefault
      dsimp only
      split
      · exact hnew.grows
      · next ev evs _ =>
        refine (hnew.startJournal ev.sid (ev :: evs)).bind fun B' hh => ?_
        exact HubOk.grows (hh.frame rfl rfl rfl)
  obtain ⟨B, -, hh⟩ := hboot
  exact ⟨B, hh, trivial⟩

end Server

end Pantoken
