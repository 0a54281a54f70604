import Pantoken.Server.Applier
import Pantoken.Server.Ingest

/-!
# Transcripts over a run of the server

From boot on the hub of every server is sound, so what reaches it is carried.  The one
step that can break a transcript is the install of a switch: it starts the session's
journal from a seed the driver read some steps before, and it keeps the journal when
there is one and the switch does not ask for another.

## Main definitions

* `Server.Sound` — the hub is sound, and a seed about to be installed names its session.
* `Server.Action.delivered` — the events an action delivers.
* `windowStage` — the stages between the driver's reading of a seed and its install.

## Main results

* `Server.Sound.run` — every reachable server is sound.
* `transcript_ingest` — **a session's journal and pending delta stand for all it received.**
* `window_complete_iff` — **when a switch loses no event.**
* `reopen_fresh_iff` — **when opening a cold session leaves a fresh journal.**
-/

namespace Pantoken

/-! ### Soundness -/

/-- A folded seed names its session. -/
def Stage.Sound : Stage → Prop
  | .folded seed sid => SessionHub.seedSid seed.events = some sid
  | _ => True

/-- The seed under way names its session. -/
def Phase.Sound : Phase → Prop
  | .switching _ _ stage _ => stage.Sound
  | _ => True

/-- The hub is sound, and a seed about to be installed names its session. -/
structure Server.Sound (serde : Serde) (s : Server) : Prop where
  hub : s.hub.Sound serde
  phase : s.phase.Sound

/-- A seed that names a session opens it. -/
theorem SwapSeed.isSome_sessionRef {seed : SwapSeed} {sid : SessionId}
    (h : SessionHub.seedSid seed.events = some sid) : (foldAll seed.events).sessionRef.isSome := by
  rcases seed.opened with hnil | ⟨base, snapshot, rest, hev⟩
  · rw [hnil] at h
    cases h
  · rw [hev, foldAll, foldAllFrom_cons]
    refine isSome_sessionRef_foldAllFrom ?_ rest
    simp only [foldEvent, foldSnapshot]
    split <;> rfl

section Server

variable {serde : Serde} {s : Server}

/-- A step that leaves the store alone, and no seed to be installed. -/
theorem Server.Sound.of_sameStore {s' : Server} (hs : s.Sound serde)
    (h : s.hub.SameStore s'.hub ∧ s'.phase.Sound) : s'.Sound serde :=
  ⟨h.1.sound hs.hub, h.2⟩

theorem sameStore_receive (s : Server) (key : Nat) (msg : ClientMessage) :
    s.hub.SameStore (s.receive key msg).hub ∧ (s.receive key msg).phase = s.phase := by
  have honce : ∀ promptId op, s.hub.SameStore (s.enqueueOnce key promptId op).hub ∧
      (s.enqueueOnce key promptId op).phase = s.phase := by
    intro promptId op
    unfold Server.enqueueOnce
    split <;> exact ⟨⟨rfl, rfl, rfl⟩, rfl⟩
  cases msg with
  | prompt | newSession => exact honce _ _
  | requestSeed | openSession | reloadSession | branch | detachSession =>
    exact ⟨⟨rfl, rfl, rfl⟩, rfl⟩

theorem input_phase (i : Server.Input) : (s.input serde i).phase = s.phase := by
  cases i with
  | receive key msg => exact (sameStore_receive s key msg).2
  | event | connect | disconnect | timer | liveTimer | evict | disposeIdle => rfl

theorem sameStore_recordResult (key : Nat) (promptId : Option String) (result : PromptResult) :
    s.hub.SameStore (s.recordResult key promptId result).hub ∧
      (s.recordResult key promptId result).phase.Sound := by
  cases promptId <;> exact ⟨⟨rfl, rfl, rfl⟩, trivial⟩

theorem sameStore_tickPrompting (hp : s.phase.Sound) (key : Nat) (call : PromptCall)
    (answer : Answer) : s.hub.SameStore (s.tickPrompting key call answer).hub ∧
      (s.tickPrompting key call answer).phase.Sound := by
  cases answer with
  | ok | failed => exact sameStore_recordResult _ _ _
  | panicked => exact ⟨⟨rfl, rfl, rfl⟩, trivial⟩
  | seed | usages => exact ⟨⟨rfl, rfl, rfl⟩, hp⟩

theorem sameStore_afterSwitch (key : Nat) (sid : Option SessionId) (first : Option FirstPrompt) :
    s.hub.SameStore (s.afterSwitch key sid first).hub ∧
      (s.afterSwitch key sid first).phase.Sound := by
  unfold Server.afterSwitch
  split
  · exact ⟨⟨rfl, rfl, rfl⟩, trivial⟩
  · split
    · exact ⟨⟨rfl, rfl, rfl⟩, trivial⟩
    · exact ⟨⟨rfl, rfl, rfl⟩, trivial⟩
    · exact sameStore_recordResult _ _ _
    · exact ⟨⟨rfl, rfl, rfl⟩, trivial⟩

theorem sameStore_release (key : Nat) (sid : Option SessionId) (first : Option FirstPrompt) :
    s.hub.SameStore (s.release key sid first).hub ∧ (s.release key sid first).phase.Sound := by
  unfold Server.release
  cases (s.hub.client key).bind (·.pendingSwitch) <;> exact sameStore_afterSwitch key sid first

/-- Only the install of a switch touches a journal. -/
theorem sameStore_tickSwitch (hp : s.phase.Sound) (key : Nat) (sw : Switch) {stage : Stage}
    (hstage : ∀ seed sid, stage ≠ .folded seed sid) (first : Option FirstPrompt)
    (answer : Answer) : s.hub.SameStore (s.tickSwitch key sw stage first answer).hub ∧
      (s.tickSwitch key sw stage first answer).phase.Sound := by
  cases stage with
  | begin =>
    simp only [Server.tickSwitch]
    split
    · split <;> exact ⟨⟨rfl, rfl, rfl⟩, trivial⟩
    · exact ⟨⟨rfl, rfl, rfl⟩, trivial⟩
  | waiting =>
    simp only [Server.tickSwitch]
    split
    · exact ⟨⟨rfl, rfl, rfl⟩, hp⟩
    · exact sameStore_afterSwitch key none first
  | fetching =>
    cases answer with
    | seed | failed | panicked => exact ⟨⟨rfl, rfl, rfl⟩, trivial⟩
    | ok | usages => exact ⟨⟨rfl, rfl, rfl⟩, hp⟩
  | landed result =>
    cases result with
    | error raw =>
      simp only [Server.tickSwitch]
      split <;> exact ⟨⟨rfl, rfl, rfl⟩, trivial⟩
    | ok seed =>
      simp only [Server.tickSwitch]
      split
      · next sid hsid => exact ⟨⟨rfl, rfl, rfl⟩, hsid⟩
      · exact ⟨⟨rfl, rfl, rfl⟩, trivial⟩
  | folded seed sid => exact absurd rfl (hstage seed sid)
  | reseeding sid msg viewers => cases viewers <;> exact ⟨⟨rfl, rfl, rfl⟩, trivial⟩
  | finished sid => exact sameStore_release key sid first
  | entered | fetched | returned | installed | seedBuilt => exact ⟨⟨rfl, rfl, rfl⟩, trivial⟩

theorem SessionHub.Sound.installJournal {h : SessionHub} (hs : h.Sound serde) (sw : Switch)
    {seed : SwapSeed} {sid : SessionId} (hsid : SessionHub.seedSid seed.events = some sid) :
    (Server.installJournal h sw seed sid).Sound serde := by
  unfold Server.installJournal
  split
  · exact (hs.dropPending sid).startJournal (SwapSeed.isSome_sessionRef hsid)
  · exact hs

/-- The section after the folding of a seed installs it. -/
theorem tick_folded {key : Nat} {sw : Switch} {seed : SwapSeed} {sid : SessionId}
    {first : Option FirstPrompt} (hphase : s.phase = .switching key sw (.folded seed sid) first)
    (m : Moment) (answer : Answer) :
    s.tick serde m answer = s.install key sw seed sid first := by
  simp only [Server.tick, hphase, Server.tickSwitch]

/-- An install leaves the store the journal makes of it: the rest is focus and messages. -/
theorem sameStore_install (s : Server) (key : Nat) (sw : Switch) (seed : SwapSeed) (sid : SessionId)
    (first : Option FirstPrompt) :
    (Server.installJournal s.hub sw seed sid).SameStore (s.install key sw seed sid first).hub ∧
      (s.install key sw seed sid first).phase.Sound := by
  unfold Server.install
  refine ⟨?_, ?_⟩
  · dsimp only
    split <;> exact ⟨rfl, rfl, rfl⟩
  · dsimp only [Phase.Sound]
    split <;> trivial

theorem Server.Sound.start (hs : s.Sound serde) (m : Moment) (answer : Answer) (op : HubOp) :
    (s.start serde m answer op).Sound serde := by
  cases op with
  | prompt | switch | newSession => exact ⟨hs.hub, trivial⟩
  | deltaFlush sid => exact ⟨hs.hub.flushPending m.order sid, hs.phase⟩
  | liveRefresh =>
    cases answer with
    | usages nowIso usages => exact ⟨hs.hub.refreshUsage m nowIso usages, hs.phase⟩
    | ok | failed | panicked | seed => exact hs
  | detachSession key path =>
    simp only [Server.start]
    split
    · exact ⟨hs.hub, hs.phase⟩
    · exact hs.of_sameStore ⟨⟨rfl, rfl, rfl⟩, hs.phase⟩

theorem Server.Sound.tick (hs : s.Sound serde) (m : Moment) (answer : Answer) :
    (s.tick serde m answer).Sound serde := by
  have hphase := hs.phase
  unfold Server.tick
  split
  · split
    · exact hs
    · next op queue _ =>
      have hs' : Server.Sound serde { s with queue := queue } := ⟨hs.hub, hs.phase⟩
      exact hs'.start m answer op
  · next key call _ => exact hs.of_sameStore (sameStore_tickPrompting hs.phase key call answer)
  · next key sw stage first hp =>
    rw [hp] at hphase
    by_cases hstage : ∃ seed sid, stage = .folded seed sid
    · obtain ⟨seed, sid, rfl⟩ := hstage
      -- the one section that touches a journal
      obtain ⟨hstore, hp'⟩ := sameStore_install (s := s) key sw seed sid first
      exact ⟨hstore.sound (hs.hub.installJournal sw hphase), hp'⟩
    · have hstage : ∀ seed sid, stage ≠ .folded seed sid := fun seed sid h =>
        hstage ⟨seed, sid, h⟩
      exact hs.of_sameStore (sameStore_tickSwitch hs.phase key sw hstage first answer)

/-- The events an input delivers. -/
def Server.Input.delivered : Server.Input → List SessionDriverEvent
  | .event _ ev => [ev]
  | _ => []

/-- An input is carried and leaves the applier where it is. -/
theorem Server.Sound.input (hs : s.Sound serde) (i : Server.Input) :
    (s.input serde i).Sound serde ∧ Carries s.hub (s.input serde i).hub i.delivered ∧
      (s.input serde i).phase = s.phase := by
  have hframe : ∀ s' : Server, s.hub.SameStore s'.hub → s'.phase = s.phase →
      s'.Sound serde ∧ Carries s.hub s'.hub [] ∧ s'.phase = s.phase := by
    intro s' hstore hp
    exact ⟨hs.of_sameStore ⟨hstore, hp ▸ hs.phase⟩, carries_of_log_eq hstore.log, hp⟩
  cases i with
  | event m ev =>
    obtain ⟨hs', hc⟩ := hs.hub.onEvent m ev
    exact ⟨⟨hs', hs.phase⟩, hc, rfl⟩
  | receive key msg =>
    obtain ⟨hstore, hp⟩ := sameStore_receive s key msg
    exact hframe _ hstore hp
  | connect | disconnect | timer | liveTimer | evict | disposeIdle =>
    exact hframe _ ⟨rfl, rfl, rfl⟩ rfl

theorem Server.Sound.step (hs : s.Sound serde) (a : Server.Action) :
    (s.step serde a).Sound serde := by
  cases a with
  | tick m answer => exact hs.tick m answer
  | input i => exact (hs.input i).1

/-- **Every server of a run is sound.** -/
theorem Server.Sound.run (hs : s.Sound serde) (acts : List Server.Action) :
    (s.run serde acts).Sound serde :=
  List.foldlRecOn acts (Server.step serde) hs fun _ hs a _ => hs.step a

/-- The journal of the default seed is that of a session it opens. -/
theorem SessionHub.Sound.seedDefault {h : SessionHub} (hs : h.Sound serde)
    (defaultSeed : Option SwapSeed) : (h.seedDefault defaultSeed).Sound serde := by
  rcases defaultSeed with _ | ⟨_ | ⟨ev, evs⟩, hopened⟩
  · exact hs
  · exact hs
  · have hsid : SessionHub.seedSid (ev :: evs) ≠ none := by
      unfold SessionHub.seedSid
      split <;> simp
    obtain ⟨sid, hsid⟩ := Option.ne_none_iff_exists'.mp hsid
    have hopen := @SwapSeed.isSome_sessionRef ⟨ev :: evs, hopened⟩ sid hsid
    have hstore : (h.startJournal ev.sid (ev :: evs)).SameStore
        (h.seedDefault (some ⟨ev :: evs, hopened⟩)) := ⟨rfl, rfl, rfl⟩
    exact hstore.sound (hs.startJournal hopen)

theorem Server.sound_boot (serde : Serde) (deltaFlushMs nowMs : Nat)
    (defaultSeed : Option SwapSeed) :
    (Server.boot deltaFlushMs nowMs defaultSeed).Sound serde := by
  have hnew : (SessionHub.new deltaFlushMs nowMs none).Sound serde :=
    ⟨fun _ _ hj => absurd hj (by simp [SessionHub.new, SessionHub.seedDefault]),
      fun _ _ hp => absurd hp (by simp [SessionHub.new, SessionHub.seedDefault]),
      fun _ _ => rfl⟩
  exact ⟨hnew.seedDefault defaultSeed, trivial⟩

end Server

/-! ### Coalescing loses nothing -/

/-- **A session's journal and its pending delta stand for all it received**: at every point
of a run of events and flush timers they fold to the events of the session in the order
received, and short of a reset they are these events up to the fusion of neighbouring
deltas. -/
theorem transcript_ingest (serde : Serde) (deltaFlushMs nowMs : Nat)
    (defaultSeed : Option SwapSeed) (acts : List Server.Action) (ops : List IngestOp)
    (sid : SessionId) :
    let h := ((Server.boot deltaFlushMs nowMs defaultSeed).run serde acts).hub
    let h' := ops.foldl (SessionHub.ingestStep serde) h
    let mine := (received ops).filter (·.sid = sid)
    (h'.hasJournal sid = h.hasJournal sid ∨ ∃ ev ∈ mine, isClosed ev = true) ∧
    ∀ j', h'.journals sid = some j' → ∃ j, h.journals sid = some j ∧
      foldAll ((buildSeed j').2.2 ++ (h'.pendingDeltas sid).toList) =
        foldAll ((buildSeed j).2.2 ++ (h.pendingDeltas sid).toList ++ mine) ∧
      ((∀ ev ∈ mine, isReset ev = false) →
        coalesceEvents ((buildSeed j').2.2 ++ (h'.pendingDeltas sid).toList) =
          coalesceEvents ((buildSeed j).2.2 ++ (h.pendingDeltas sid).toList ++ mine)) := by
  intro h h' mine
  refine ⟨ingest_run_hasJournal ops sid, fun j' hj' => ?_⟩
  have hs := (Server.sound_boot serde deltaFlushMs nowMs defaultSeed).run acts
  obtain ⟨htrans, hlog⟩ := carries_ingest hs.hub ops sid
  obtain ⟨t, ht, hfold⟩ := htrans _ (Option.map_eq_some_iff.mpr ⟨j', hj', rfl⟩)
  obtain ⟨j, hj, rfl⟩ := Option.map_eq_some_iff.mp ht
  refine ⟨j, hj, hfold.trans (foldAll_append _ mine).symm, fun hr => ?_⟩
  obtain ⟨l, hl, heq⟩ := hlog hr _ (Option.map_eq_some_iff.mpr ⟨j', hj', rfl⟩)
  obtain ⟨j₀, hj₀, rfl⟩ := Option.map_eq_some_iff.mp hl
  obtain rfl : j = j₀ := Option.some.inj (hj.symm.trans hj₀)
  rw [heq]
  exact tryMerge_lawful.coalesce_coalesce_append _ _

/-! ### From the reading of a seed to its install -/

/-- The events an action delivers. -/
def Server.Action.delivered : Server.Action → List SessionDriverEvent
  | .input i => i.delivered
  | .tick _ _ => []

/-- The action is a section of the applier. -/
def Server.Action.isTick : Server.Action → Bool
  | .tick _ _ => true
  | .input _ => false

/-- The stages of a switch from the driver's reading of the seed on, by the number of
sections run since. -/
def windowStage (seed : SwapSeed) (sid : SessionId) : Nat → Stage
  | 0 => .fetched seed
  | 1 => .returned (.ok seed)
  | 2 => .landed (.ok seed)
  | _ => .folded seed sid

section Window

variable {serde : Serde} {s : Server} {key : Nat} {sw : Switch} {seed : SwapSeed}
  {sid : SessionId} {first : Option FirstPrompt}

/-- A section of the window leaves the store alone and goes to the next stage. -/
theorem tick_window (hsid : SessionHub.seedSid seed.events = some sid) {n : Nat} (hn : n < 3)
    (hp : s.phase = .switching key sw (windowStage seed sid n) first) (m : Moment)
    (answer : Answer) : s.hub.SameStore (s.tick serde m answer).hub ∧
      (s.tick serde m answer).phase = .switching key sw (windowStage seed sid (n + 1)) first := by
  rw [Server.tick, hp]
  obtain _ | _ | _ | n := n
  · exact ⟨⟨rfl, rfl, rfl⟩, rfl⟩
  · exact ⟨⟨rfl, rfl, rfl⟩, rfl⟩
  · simp only [windowStage, Server.tickSwitch, hsid]
    exact ⟨⟨rfl, rfl, rfl⟩, trivial⟩
  · omega

/-- **What is delivered in the window is carried** to the hub that meets the install. -/
theorem Server.Sound.window (hs : s.Sound serde)
    (hsid : SessionHub.seedSid seed.events = some sid) {n : Nat}
    (hp : s.phase = .switching key sw (windowStage seed sid n) first) (w : List Server.Action)
    (hn : n + w.countP Server.Action.isTick ≤ 3) :
    Carries s.hub (s.run serde w).hub (w.flatMap Server.Action.delivered) ∧
      (s.run serde w).phase =
        .switching key sw (windowStage seed sid (n + w.countP Server.Action.isTick)) first := by
  -- over the window's actions, counting the sections run
  induction w generalizing s n with
  | nil => exact ⟨carries_of_log_eq rfl, hp⟩
  | cons a w ih =>
    cases a with
    | tick m answer =>
      rw [List.countP_cons_of_pos rfl] at hn ⊢
      obtain ⟨hstore, hp'⟩ :=
        @tick_window serde s key sw seed sid first hsid n (by omega) hp m answer
      obtain ⟨hc, hp''⟩ := ih (hs.tick m answer) hp' (by omega)
      refine ⟨(carries_of_log_eq hstore.log).trans hc, ?_⟩
      rwa [Nat.add_right_comm] at hp''
    | input i =>
      rw [List.countP_cons_of_neg (by simp [Server.Action.isTick])] at hn ⊢
      obtain ⟨hs', hc, hp'⟩ := hs.input i
      obtain ⟨hc', hp''⟩ := ih hs' (hp'.trans hp) hn
      exact ⟨hc.trans hc', hp''⟩

/-- What an install makes of the session's transcript. -/
theorem transcript_install :
    (s.install key sw seed sid first).hub.transcript sid =
      if sw.reseed = false ∧ s.hub.hasJournal sid = true then s.hub.transcript sid
      else some (foldAll seed.events) := by
  have hstore := (sameStore_install s key sw seed sid first).1
  rw [SessionHub.transcript_eq, hstore.log, ← SessionHub.transcript_eq, Server.installJournal]
  by_cases hkept : sw.reseed = false ∧ s.hub.hasJournal sid = true
  · rw [if_neg (by simp [hkept]), if_pos hkept]
  · rw [if_pos (by grind), if_neg hkept]
    have hrep := @represents_create ⟨fun _ => 0, fun _ => none⟩ (s.hub.epochCounter + 1) seed.events
    have hfold := foldAll_buildSeed hrep
    simpa [SessionHub.transcript, SessionHub.startJournal, SessionHub.setJournal,
      SessionHub.dropPending, SessionHub.nextEpoch] using hfold

end Window

/-- **When a switch loses no event.**  From the driver's reading of the seed to the install,
whatever is interleaved: the session's transcript takes every event delivered for it
exactly when its journal is kept, or the events change nothing on top of the seed. -/
theorem window_complete_iff (serde : Serde) (deltaFlushMs nowMs : Nat)
    (defaultSeed : Option SwapSeed) (pre w : List Server.Action) (key : Nat) (sw : Switch)
    (seed : SwapSeed) (sid : SessionId) (first : Option FirstPrompt) (m : Moment) (answer : Answer)
    (hsid : SessionHub.seedSid seed.events = some sid)
    (hread : ((Server.boot deltaFlushMs nowMs defaultSeed).run serde pre).phase =
      .switching key sw (.fetched seed) first)
    (hticks : w.countP Server.Action.isTick = 3) :
    let s₀ := (Server.boot deltaFlushMs nowMs defaultSeed).run serde pre
    let s₁ := s₀.run serde w
    let s₂ := s₁.tick serde m answer
    let since := (w.flatMap Server.Action.delivered).filter (·.sid = sid)
    let kept := sw.reseed = false ∧ s₁.hub.hasJournal sid = true
    let base := if kept then s₀.hub.transcript sid else some (foldAll seed.events)
    s₁.phase = .switching key sw (.folded seed sid) first ∧
    (s₂.hub.transcript sid = base.map (foldAllFrom · since) ↔
      kept ∨ foldAllFrom (foldAll seed.events) since = foldAll seed.events) := by
  intro s₀ s₁ s₂ since kept base
  have hs : s₀.Sound serde := (Server.sound_boot serde deltaFlushMs nowMs defaultSeed).run pre
  obtain ⟨hc, hp⟩ := @Server.Sound.window serde s₀ key sw seed sid first hs hsid 0 hread w
    (by omega)
  rw [hticks] at hp
  refine ⟨hp, ?_⟩
  have hinst : s₂.hub.transcript sid = if kept then s₁.hub.transcript sid
      else some (foldAll seed.events) := by
    have htick : s₂ = s₁.install key sw seed sid first := tick_folded hp m answer
    rw [htick, transcript_install]
  rw [hinst]
  by_cases hkept : kept
  · -- a kept journal took the events as they came
    have hsome : (s₁.hub.transcript sid).isSome := by
      rw [SessionHub.isSome_transcript]
      exact hkept.2
    obtain ⟨t', ht'⟩ := Option.isSome_iff_exists.mp hsome
    obtain ⟨t, ht, rfl⟩ := (hc sid).1 t' ht'
    have hbase : base = some t := (if_pos hkept).trans ht
    rw [if_pos hkept, ht', hbase]
    exact iff_of_true rfl (.inl hkept)
  · have hbase : base = some (foldAll seed.events) := if_neg hkept
    -- a fresh one is the seed alone
    rw [if_neg hkept, hbase, Option.map_some, Option.some.injEq, eq_comm]
    exact (or_iff_right hkept).symm

/-- A seed that opens a session under a title. -/
def titledSeed (title : String) : SwapSeed where
  events :=
    [.sessionOpened ⟨⟨"w", "s"⟩, "t", none⟩
      { metaSnapshot initialSessionState ⟨"w", "s"⟩ "t" with title := title }]
  opened := .inr ⟨_, _, _, rfl⟩

/-- Some sections of the applier that need no answer. -/
def ticks (m : Moment) (n : Nat) : List Server.Action := List.replicate n (.tick m .ok)

/-- A client connects and asks for a switch, up to where the driver is awaited. -/
def connectAndSend (m : Moment) (key : Nat) (msg : ClientMessage) : List Server.Action :=
  .input (.connect none) :: .input (.receive key msg) :: ticks m 3

/-- A session is reloaded: a message delivered after the driver has read the seed is in the
old journal and not in the new one. -/
theorem reload_loses_event :
    let serde : Serde := ⟨fun _ => 0, fun _ => none⟩
    let m : Moment := ⟨default, 0, true⟩
    let msg : SessionDriverEvent := .userMessage ⟨⟨"w", "s"⟩, "t", none⟩ "u" "hello" none none none
    let s₀ := (Server.boot 0 0 (some (titledSeed "old"))).run serde
      (connectAndSend m 0 (.reloadSession "p") ++ [.tick m (.seed (titledSeed "new"))])
    let s₁ := s₀.run serde (.input (.event m msg) :: ticks m 3)
    let s₂ := s₁.tick serde m .ok
    s₀.phase = .switching 0 ⟨.reloadSession "p", true, true⟩ (.fetched (titledSeed "new")) none ∧
      (s₁.hub.transcript "s").map (·.items.length) = some 1 ∧
      s₂.hub.transcript "s" ≠ some (foldAllFrom (foldAll (titledSeed "new").events) [msg]) := by
  refine ⟨rfl, by decide, fun heq => ?_⟩
  have hitems := congrArg (Option.map (·.items.length)) heq
  exact absurd hitems (by decide)

/-- With nothing delivered in the window the reload is complete. -/
theorem window_complete_reload :
    let serde : Serde := ⟨fun _ => 0, fun _ => none⟩
    let m : Moment := ⟨default, 0, true⟩
    let sw : Switch := ⟨.reloadSession "p", true, true⟩
    let s₀ := (Server.boot 0 0 (some (titledSeed "old"))).run serde
      (connectAndSend m 0 (.reloadSession "p") ++ [.tick m (.seed (titledSeed "new"))])
    let s₁ := s₀.run serde (ticks m 3)
    let since := ((ticks m 3).flatMap Server.Action.delivered).filter (·.sid = "s")
    let base := if sw.reseed = false ∧ s₁.hub.hasJournal "s" = true then s₀.hub.transcript "s"
      else some (foldAll (titledSeed "new").events)
    (s₁.tick serde m .ok).hub.transcript "s" = base.map (foldAllFrom · since) := by
  intro serde m sw s₀ s₁ since base
  have hcomplete := window_complete_iff serde 0 0 (some (titledSeed "old"))
    (connectAndSend m 0 (.reloadSession "p") ++ [.tick m (.seed (titledSeed "new"))])
    (ticks m 3) 0 sw (titledSeed "new") "s" none m .ok rfl rfl rfl
  exact hcomplete.2.mpr (.inr rfl)

/-- **When opening a session leaves a fresh journal**, be it warm in the driver or cold:
exactly when the hub has no journal of it by then, and what is delivered in between
changes nothing on top of the seed. -/
theorem reopen_fresh_iff (serde : Serde) (deltaFlushMs nowMs : Nat)
    (defaultSeed : Option SwapSeed) (pre w : List Server.Action) (key : Nat) (path : String)
    (seed : SwapSeed) (sid : SessionId) (first : Option FirstPrompt) (m m' : Moment)
    (answer : Answer) (hsid : SessionHub.seedSid seed.events = some sid)
    (hread : ((Server.boot deltaFlushMs nowMs defaultSeed).run serde pre).phase =
      .switching key ⟨.openSession path, false, true⟩ .fetching first)
    (hticks : w.countP Server.Action.isTick = 3) :
    let s₀ := ((Server.boot deltaFlushMs nowMs defaultSeed).run serde pre).tick serde m (.seed seed)
    let s₁ := s₀.run serde w
    let s₂ := s₁.tick serde m' answer
    let since := (w.flatMap Server.Action.delivered).filter (·.sid = sid)
    (s₂.hub.journals sid ≠ s₁.hub.journals sid ∧
        s₂.hub.transcript sid = some (foldAllFrom (foldAll seed.events) since)) ↔
      s₁.hub.hasJournal sid = false ∧
        foldAllFrom (foldAll seed.events) since = foldAll seed.events := by
  intro s₀ s₁ s₂ since
  have hs : s₀.Sound serde :=
    ((Server.sound_boot serde deltaFlushMs nowMs defaultSeed).run pre).tick m (.seed seed)
  have hp₀ : s₀.phase =
      .switching key ⟨.openSession path, false, true⟩ (windowStage seed sid 0) first := by
    show (Server.tick serde _ m (.seed seed)).phase = _
    rw [Server.tick, hread]
    rfl
  obtain ⟨-, hp⟩ := hs.window hsid hp₀ w (by omega)
  rw [hticks] at hp
  have htick : s₂ = s₁.install key ⟨.openSession path, false, true⟩ seed sid first :=
    tick_folded hp m' answer
  have hstore := (sameStore_install s₁ key ⟨.openSession path, false, true⟩ seed sid first).1
  rw [htick, transcript_install, hstore.1, Server.installJournal]
  cases hj : s₁.hub.hasJournal sid with
  | true => simp
  | false =>
    have hnone : s₁.hub.journals sid = none := by
      simpa [SessionHub.hasJournal] using hj
    simp [hnone, SessionHub.startJournal, SessionHub.setJournal, eq_comm]

/-- A session is opened, left, disposed of by the driver and opened again: its journal is
still that of the first time. -/
theorem reopen_stale :
    let serde : Serde := ⟨fun _ => 0, fun _ => none⟩
    let m : Moment := ⟨default, 0, true⟩
    let s := (Server.boot 0 0 none).run serde
      (connectAndSend m 0 (.openSession "p") ++ .tick m (.seed (titledSeed "old")) :: ticks m 5 ++
        [.input (.disconnect 0), .input (.disposeIdle fun _ => false)] ++
        connectAndSend m 1 (.openSession "p"))
    let s₁ := (s.tick serde m (.seed (titledSeed "new"))).run serde (ticks m 3)
    let s₂ := s₁.tick serde m .ok
    s.phase = .switching 1 ⟨.openSession "p", false, true⟩ .fetching none ∧ s.driver.warm = [] ∧
      s₂.hub.transcript "s" = some (foldAll (titledSeed "old").events) ∧
      s₂.hub.transcript "s" ≠ some (foldAll (titledSeed "new").events) := by
  refine ⟨rfl, rfl, rfl, fun heq => ?_⟩
  have htitle := congrArg (Option.map (·.title)) heq
  exact absurd htitle (by decide)

/-- Opened for the first time, a session gets a fresh journal. -/
theorem reopen_fresh_first :
    let serde : Serde := ⟨fun _ => 0, fun _ => none⟩
    let m : Moment := ⟨default, 0, true⟩
    let s := (Server.boot 0 0 none).run serde (connectAndSend m 0 (.openSession "p"))
    let s₁ := (s.tick serde m (.seed (titledSeed "new"))).run serde (ticks m 3)
    (s₁.tick serde m .ok).hub.transcript "s" = some (foldAll (titledSeed "new").events) := by
  intro serde m s s₁
  have hfresh := reopen_fresh_iff serde 0 0 none (connectAndSend m 0 (.openSession "p"))
    (ticks m 3) 0 "p" (titledSeed "new") "s" none m m .ok rfl rfl rfl
  exact (hfresh.mpr ⟨rfl, rfl⟩).2

end Pantoken
