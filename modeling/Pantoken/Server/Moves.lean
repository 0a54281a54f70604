import Mathlib.Logic.Relation
import Pantoken.Server.Transcripts

/-!
# The moves of the hub

Most of what the server does to its hub is made of five moves: buffers are filled and
emptied, an event is stamped and routed, a closed session's journal is dropped, a client
is sent a note, a connection is marked.  None of them moves a focus, opens or closes a
connection, or starts a journal where there was none.  What one move keeps, a section that
is made of moves keeps.

## Main definitions

* `SessionHub.Move`, `SessionHub.Moves` — a move, and any number of them.
* `Phase.unsent` — the seed that is built and not yet sent.

## Main results

* `moves_onEvent`, `moves_refreshUsage`, `moves_receive` — what is made of moves.
* `tick_hub` — **what a section of the applier does to the hub**: moves, but for the three
  sections of a switch that queue it, install its seed and seed a co-viewer.
* `Moves.sameSeats`, `Moves.landing`, `Moves.hasJournal` — what moves keep.
* `tick_keys`, `receive_keys` — only connections that come and go change who is connected.
* `Server.Seated.step` — what is viewed has a journal, and stays so.
-/

namespace Pantoken

/-! ### Moves -/

/-- The message is neither a seed nor an event. -/
def ServerMessage.isNote : ServerMessage → Bool
  | .seed .. | .event .. => false
  | .hello | .promptResult _ | .error _ | .switchError _ => true

namespace SessionHub

/-- A move. -/
inductive Move (serde : Serde) (h : SessionHub) : SessionHub → Prop
  /-- Journals, epochs, connections and the default focus are left alone. -/
  | buffer {h' : SessionHub} (journals : h'.journals = h.journals)
      (epochCounter : h'.epochCounter = h.epochCounter) (clients : h'.clients = h.clients)
      (nextClientKey : h'.nextClientKey = h.nextClientKey)
      (defaultFocusId : h'.defaultFocusId = h.defaultFocusId) : Move serde h h'
  | stamp (order : HashOrder) (ev : SessionDriverEvent) :
      Move serde h (h.ingestNow serde order ev)
  | close (ev : SessionDriverEvent) : Move serde h (h.closeJournal ev)
  | note (key : ℕ) {msg : ServerMessage} (isNote : msg.isNote = true) :
      Move serde h (h.sendToClient key msg)
  /-- Of a connection only the marks of its switches change, and none is queued. -/
  | mark (key : ℕ) {f : ClientConn → ClientConn}
      (only : ∀ c, f c = { c with
        switchInFlight := (f c).switchInFlight, pendingSwitch := (f c).pendingSwitch })
      (queues : ∀ c, c.pendingSwitch = none → (f c).pendingSwitch = none) :
      Move serde h (h.updateClient key f)

/-- Any number of moves. -/
abbrev Moves (serde : Serde) : SessionHub → SessionHub → Prop :=
  Relation.ReflTransGen (Move serde)

end SessionHub

/-! ### What is made of moves -/

section Made

open SessionHub

variable {serde : Serde} {h : SessionHub} {s : Server}

theorem moves_stamp (order : HashOrder) (ev : SessionDriverEvent) :
    Moves serde h (h.ingestNow serde order ev) := .single (.stamp order ev)

theorem moves_buffer {h' : SessionHub} (hj : h'.journals = h.journals)
    (he : h'.epochCounter = h.epochCounter) (hc : h'.clients = h.clients)
    (hn : h'.nextClientKey = h.nextClientKey) (hd : h'.defaultFocusId = h.defaultFocusId) :
    Moves serde h h' := .single (.buffer hj he hc hn hd)

theorem moves_note (key : ℕ) {msg : ServerMessage} (hmsg : msg.isNote = true) :
    Moves serde h (h.sendToClient key msg) := .single (.note key hmsg)

theorem moves_flushPending (order : HashOrder) (sid : SessionId) :
    Moves serde h (h.flushPending serde order sid) := by
  have hdrop : Moves serde h (h.dropPending sid) := moves_buffer rfl rfl rfl rfl rfl
  rw [flushPending_eq]
  split
  · exact hdrop.trans (moves_stamp order _)
  · exact .refl

theorem moves_startPending (m : Moment) (ev : SessionDriverEvent) :
    Moves serde h (h.startPending serde m ev) := by
  unfold SessionHub.startPending
  split
  · exact moves_buffer rfl rfl rfl rfl rfl
  · exact moves_stamp m.order ev

theorem moves_ingest (m : Moment) (ev : SessionDriverEvent) :
    Moves serde h (h.ingest serde m ev) := by
  have hflush := @moves_flushPending serde h m.order ev.sid
  unfold SessionHub.ingest
  split
  · exact moves_stamp m.order ev
  · split
    · exact hflush.trans (moves_stamp m.order ev)
    · split
      · split
        · exact moves_buffer rfl rfl rfl rfl rfl
        · exact hflush.trans (moves_startPending m ev)
      · exact moves_startPending m ev

theorem moves_onEvent (m : Moment) (ev : SessionDriverEvent) :
    Moves serde h (h.onEvent serde m ev) := by
  have hbuffer : Moves serde h (if h.swapsInFlight > 0 ∧ h.hasJournal ev.sid = false then
      h.bufferSwapEvent m.nowMs ev else h) := by
    split
    · exact moves_buffer rfl rfl rfl rfl rfl
    · exact .refl
  exact (hbuffer.trans (moves_ingest m ev)).trans (.single (.close ev))

theorem moves_refreshUsage (m : Moment) (nowIso : String)
    (usages : List (SessionId × SessionUsage)) :
    Moves serde h (h.refreshUsage serde m nowIso usages) := by
  unfold SessionHub.refreshUsage
  refine List.foldlRecOn (motive := Moves serde h) usages _ .refl fun h' hmoves u _ => ?_
  split
  · exact hmoves.trans (moves_ingest m _)
  · exact hmoves

theorem moves_recordResult (key : ℕ) (promptId : Option String) (result : PromptResult) :
    Moves serde s.hub (s.recordResult key promptId result).hub := by
  cases promptId with
  | none => exact moves_note key rfl
  | some p =>
    have hcache : Moves serde s.hub
        { s.hub with prompts := cachePromptResult s.hub.prompts p result } :=
      moves_buffer rfl rfl rfl rfl rfl
    exact hcache.trans (moves_note key rfl)

theorem moves_tickPrompting (key : ℕ) (call : PromptCall) (answer : Answer) :
    Moves serde s.hub (s.tickPrompting key call answer).hub := by
  cases answer with
  | ok | failed => exact moves_recordResult _ _ _
  | panicked | seed | usages => exact .refl

theorem moves_afterSwitch (key : ℕ) (sid : Option SessionId) (first : Option FirstPrompt) :
    Moves serde s.hub (s.afterSwitch key sid first).hub := by
  unfold Server.afterSwitch
  split
  · exact .refl
  · split
    · exact .refl
    · exact .refl
    · exact moves_recordResult _ _ _
    · exact moves_note key rfl

theorem moves_release (key : ℕ) (sid : Option SessionId) (first : Option FirstPrompt) :
    Moves serde s.hub (s.release key sid first).hub := by
  have hmark : Moves serde s.hub (s.hub.updateClient key fun c =>
      { c with switchInFlight := false, pendingSwitch := none }) :=
    .single (.mark key (fun _ => rfl) fun _ _ => rfl)
  have hafter : ∀ s' : Server, Moves serde s.hub s'.hub →
      Moves serde s.hub (s'.afterSwitch key sid first).hub := by
    intro s' hmoves
    exact hmoves.trans (moves_afterSwitch key sid first)
  unfold Server.release
  cases (s.hub.client key).bind (·.pendingSwitch) <;> exact hafter _ hmark

theorem moves_start (m : Moment) (answer : Answer) (op : HubOp) :
    Moves serde s.hub (s.start serde m answer op).hub := by
  cases op with
  | prompt | switch | newSession => exact .refl
  | deltaFlush sid => exact moves_flushPending m.order sid
  | liveRefresh =>
    cases answer with
    | usages nowIso usages => exact moves_refreshUsage m nowIso usages
    | ok | failed | panicked | seed => exact .refl
  | detachSession key path =>
    simp only [Server.start]
    split
    · exact .refl
    · exact moves_note key rfl

theorem moves_enqueueOnce (key : ℕ) (promptId : Option String) (op : HubOp) :
    Moves serde s.hub (s.enqueueOnce key promptId op).hub := by
  unfold Server.enqueueOnce
  split
  · exact moves_note key rfl
  · exact .refl

/-- Only a request for a seed is answered by more than a note. -/
theorem moves_receive (key : ℕ) {msg : ClientMessage} (hmsg : ∀ sid, msg ≠ .requestSeed sid) :
    Moves serde s.hub (s.receive key msg).hub := by
  cases msg with
  | prompt | newSession => exact moves_enqueueOnce _ _ _
  | requestSeed sid => exact absurd rfl (hmsg sid)
  | openSession | reloadSession | branch | detachSession => exact .refl

/-- A section of a switch that neither queues it, nor installs its seed, nor seeds a
co-viewer. -/
theorem moves_tickSwitch (key : ℕ) (sw : Switch) {stage : Stage} (first : Option FirstPrompt)
    (answer : Answer)
    (hbegin : ∀ c, stage = .begin → s.hub.client key = some c → c.switchInFlight = false)
    (hfolded : ∀ seed sid, stage ≠ .folded seed sid)
    (hreseeding : ∀ sid msg viewer viewers, stage ≠ .reseeding sid msg (viewer :: viewers)) :
    Moves serde s.hub (s.tickSwitch key sw stage first answer).hub := by
  cases stage with
  | begin =>
    simp only [Server.tickSwitch]
    split
    · next c hc =>
      rw [hbegin c rfl hc, if_neg Bool.false_ne_true]
      exact .single (.mark key (fun _ => rfl) fun _ hp => hp)
    · exact .refl
  | waiting =>
    simp only [Server.tickSwitch]
    split
    · exact .refl
    · exact moves_afterSwitch key none first
  | entered | returned => exact moves_buffer rfl rfl rfl rfl rfl
  | fetching => cases answer <;> exact .refl
  | landed result =>
    cases result with
    | error raw =>
      simp only [Server.tickSwitch]
      split
      · exact .refl
      · exact moves_note key rfl
    | ok seed =>
      simp only [Server.tickSwitch]
      split
      · exact .refl
      · exact moves_note key rfl
  | folded seed sid => exact absurd rfl (hfolded seed sid)
  | reseeding sid msg viewers =>
    cases viewers with
    | nil => exact .refl
    | cons viewer viewers => exact absurd rfl (hreseeding sid msg viewer viewers)
  | finished sid => exact moves_release key sid first
  | fetched | installed | seedBuilt => exact .refl

/-- **What a section of the applier does to the hub**: moves, but for the three sections of
a switch that queue it, install its seed and seed a co-viewer. -/
theorem tick_hub (m : Moment) (answer : Answer) :
    Moves serde s.hub (s.tick serde m answer).hub ∨
      (∃ key sw first c, s.phase = .switching key sw .begin first ∧
        s.hub.client key = some c ∧ c.switchInFlight = true) ∨
      (∃ key sw seed sid first, s.phase = .switching key sw (.folded seed sid) first) ∨
      ∃ key sw sid msg viewer viewers first,
        s.phase = .switching key sw (.reseeding sid msg (viewer :: viewers)) first := by
  unfold Server.tick
  split
  · left
    split
    · exact .refl
    · next op queue _ => exact @moves_start serde { s with queue := queue } m answer op
  · exact .inl (moves_tickPrompting _ _ answer)
  · next key sw stage first hphase =>
    by_cases hbegin : ∃ c, stage = .begin ∧ s.hub.client key = some c ∧ c.switchInFlight = true
    · obtain ⟨c, rfl, hc, hmarked⟩ := hbegin
      exact .inr (.inl ⟨key, sw, first, c, hphase, hc, hmarked⟩)
    by_cases hfolded : ∃ seed sid, stage = .folded seed sid
    · obtain ⟨seed, sid, rfl⟩ := hfolded
      exact .inr (.inr (.inl ⟨key, sw, seed, sid, first, hphase⟩))
    by_cases hseeding : ∃ sid msg viewer viewers, stage = .reseeding sid msg (viewer :: viewers)
    · obtain ⟨sid, msg, viewer, viewers, rfl⟩ := hseeding
      exact .inr (.inr (.inr ⟨key, sw, sid, msg, viewer, viewers, first, hphase⟩))
    left
    apply moves_tickSwitch
    · intro c hstage hc
      exact Bool.eq_false_iff.mpr fun hmarked => hbegin ⟨c, hstage, hc, hmarked⟩
    · intro seed sid hstage
      exact hfolded ⟨seed, sid, hstage⟩
    · intro sid msg viewer viewers hstage
      exact hseeding ⟨sid, msg, viewer, viewers, hstage⟩

/-! #### Seeds -/

/-- The seed that is built and not yet sent. -/
def Phase.unsent : Phase → Option ServerMessage
  | .switching _ _ (.seedBuilt _ msg) _ | .switching _ _ (.reseeding _ msg _) _ => some msg
  | .idle | .prompting .. | .switching .. => none

theorem unsent_afterSwitch (key : ℕ) (sid : Option SessionId) (first : Option FirstPrompt) :
    (s.afterSwitch key sid first).phase.unsent = none := by
  unfold Server.afterSwitch
  split
  · rfl
  · split <;> rfl

/-- A switch builds the seed of its session, and holds it until it is sent. -/
theorem unsent_tickSwitch {key : ℕ} {sw : Switch} {stage : Stage} {first : Option FirstPrompt}
    (hphase : s.phase = .switching key sw stage first) (answer : Answer) :
    (s.tickSwitch key sw stage first answer).phase.unsent = none ∨
      (s.tickSwitch key sw stage first answer).phase.unsent = s.phase.unsent ∨
        ∃ sid, (s.tickSwitch key sw stage first answer).phase.unsent =
          some (s.hub.seedMsg (some sid)) := by
  cases stage with
  | begin =>
    left
    simp only [Server.tickSwitch]
    split
    · split <;> rfl
    · rfl
  | waiting =>
    simp only [Server.tickSwitch]
    split
    · exact .inr (.inl rfl)
    · exact .inl (unsent_afterSwitch key none first)
  | fetching =>
    cases answer with
    | seed | failed | panicked => exact .inl rfl
    | ok | usages => exact .inr (.inl rfl)
  | landed result =>
    left
    cases result with
    | error raw => rfl
    | ok seed =>
      simp only [Server.tickSwitch]
      split <;> rfl
  | folded seed sid =>
    left
    simp only [Server.tickSwitch, Server.install]
    split <;> rfl
  | installed sid => exact .inr (.inr ⟨sid, rfl⟩)
  | seedBuilt sid msg =>
    right
    left
    rw [hphase]
    rfl
  | reseeding sid msg viewers =>
    cases viewers with
    | nil => exact .inl rfl
    | cons viewer viewers =>
      right
      left
      rw [hphase]
      rfl
  | finished sid => exact .inl (unsent_afterSwitch key sid first)
  | entered | fetched | returned => exact .inl rfl

theorem unsent_tick (m : Moment) (answer : Answer) :
    (s.tick serde m answer).phase.unsent = none ∨
      (s.tick serde m answer).phase.unsent = s.phase.unsent ∨
        ∃ sid, (s.tick serde m answer).phase.unsent = some (s.hub.seedMsg (some sid)) := by
  unfold Server.tick
  split
  · split
    · exact .inr (.inl rfl)
    · next hidle _ op queue _ =>
      cases op with
      | prompt | switch | newSession => exact .inl rfl
      | deltaFlush => exact .inr (.inl rfl)
      | liveRefresh => cases answer <;> exact .inr (.inl rfl)
      | detachSession key path =>
        simp only [Server.start]
        split <;> exact .inr (.inl rfl)
  · cases answer with
    | ok | failed | panicked => exact .inl rfl
    | seed | usages => exact .inr (.inl rfl)
  · next key sw stage first hphase => exact unsent_tickSwitch hphase answer

end Made

/-! ### What moves keep -/

/-- A change of connections that leaves each its key and its focus, and queues no switch
on it. -/
structure KeepsSeat (g : ClientConn → ClientConn) : Prop where
  key : ∀ c, (g c).key = c.key
  focusedId : ∀ c, (g c).focusedId = c.focusedId
  pendingSwitch : ∀ c, c.pendingSwitch = none → (g c).pendingSwitch = none

theorem KeepsSeat.comp {g g' : ClientConn → ClientConn} (hg' : KeepsSeat g') (hg : KeepsSeat g) :
    KeepsSeat (g' ∘ g) where
  key := fun c => (hg'.key _).trans (hg.key c)
  focusedId := fun c => (hg'.focusedId _).trans (hg.focusedId c)
  pendingSwitch := fun c hc => hg'.pendingSwitch _ (hg.pendingSwitch c hc)

theorem keepsSeat_id : KeepsSeat id := ⟨fun _ => rfl, fun _ => rfl, fun _ hc => hc⟩

/-- A send. -/
theorem keepsSeat_send (p : ClientConn → Bool) (msg : ServerMessage) :
    KeepsSeat fun c => if p c then { c with send := c.send ++ [msg] } else c where
  key := fun c => by split <;> rfl
  focusedId := fun c => by split <;> rfl
  pendingSwitch := fun c hc => by
    split
    · exact hc
    · exact hc

section Keeps

open SessionHub

variable {serde : Serde} {h h' : SessionHub}

/-- From one hub to the other every connection keeps its seat. -/
def SessionHub.SameSeats (h h' : SessionHub) : Prop :=
  ∃ g, KeepsSeat g ∧ h'.clients = h.clients.map g

theorem SessionHub.SameSeats.refl (h : SessionHub) : h.SameSeats h :=
  ⟨id, keepsSeat_id, (List.map_id _).symm⟩

theorem SessionHub.SameSeats.trans {h'' : SessionHub} (hs : h.SameSeats h')
    (hs' : h'.SameSeats h'') : h.SameSeats h'' := by
  obtain ⟨g, hg, heq⟩ := hs
  obtain ⟨g', hg', heq'⟩ := hs'
  exact ⟨g' ∘ g, hg'.comp hg, by rw [heq', heq, List.map_map]⟩

theorem sameSeats_sendWhere (p : ClientConn → Bool) (msg : ServerMessage) :
    h.SameSeats (h.sendWhere p msg) := ⟨_, keepsSeat_send p msg, rfl⟩

theorem sameSeats_ingestNow (order : HashOrder) (ev : SessionDriverEvent) :
    h.SameSeats (h.ingestNow serde order ev) := by
  unfold SessionHub.ingestNow
  cases h.journals ev.sid with
  | none => exact .refl h
  | some j => cases ev <;> exact ⟨_, keepsSeat_send _ _, rfl⟩

theorem SessionHub.Move.sameSeats (hm : Move serde h h') : h.SameSeats h' := by
  cases hm with
  | buffer hj he hc hn hd => exact ⟨id, keepsSeat_id, by rw [hc, List.map_id]⟩
  | stamp order ev => exact sameSeats_ingestNow order ev
  | close ev =>
    unfold SessionHub.closeJournal
    split
    · split
      · exact ⟨id, keepsSeat_id, (List.map_id _).symm⟩
      · exact .refl h
    · exact .refl h
  | note key hmsg => exact sameSeats_sendWhere _ _
  | mark key only queues =>
    refine ⟨_, ⟨fun c => ?_, fun c => ?_, fun c hc => ?_⟩, rfl⟩
    · split
      · rw [only]
      · rfl
    · split
      · rw [only]
      · rfl
    · split
      · exact queues c hc
      · exact hc

theorem SessionHub.Moves.sameSeats (hm : Moves serde h h') : h.SameSeats h' := by
  induction hm with
  | refl => exact .refl h
  | tail _ hstep ih => exact ih.trans hstep.sameSeats

theorem SessionHub.SameSeats.hasViewer (hs : h.SameSeats h') (sid : SessionId) :
    h'.hasViewer sid = h.hasViewer sid := by
  obtain ⟨g, hg, heq⟩ := hs
  unfold SessionHub.hasViewer
  rw [heq, List.any_map]
  congr 1
  funext c
  simp only [Function.comp, hg.focusedId]

theorem SessionHub.SameSeats.map_key (hs : h.SameSeats h') :
    h'.clients.map (·.key) = h.clients.map (·.key) := by
  obtain ⟨g, hg, heq⟩ := hs
  rw [heq, List.map_map]
  congr 1
  funext c
  exact hg.key c

/-- A move changes neither the default focus nor the key of the next connection. -/
theorem SessionHub.Move.landing (hm : Move serde h h') :
    h'.defaultFocusId = h.defaultFocusId ∧ h'.nextClientKey = h.nextClientKey := by
  cases hm with
  | buffer hj he hc hn hd => exact ⟨hd, hn⟩
  | stamp order ev =>
    have hframe := @frame_ingestNow serde h order ev
    exact ⟨hframe.defaultFocusId, hframe.nextClientKey⟩
  | close ev =>
    have hframe := @frame_closeJournal h ev
    exact ⟨hframe.defaultFocusId, hframe.nextClientKey⟩
  | note | mark => exact ⟨rfl, rfl⟩

theorem SessionHub.Moves.landing (hm : Moves serde h h') :
    h'.defaultFocusId = h.defaultFocusId ∧ h'.nextClientKey = h.nextClientKey := by
  induction hm with
  | refl => exact ⟨rfl, rfl⟩
  | tail _ hstep ih => exact ⟨hstep.landing.1.trans ih.1, hstep.landing.2.trans ih.2⟩

/-- A journal that is viewed, or the default one, outlives a move. -/
theorem SessionHub.Move.hasJournal (hm : Move serde h h') {sid : SessionId}
    (hview : h.hasViewer sid = true ∨ h.defaultFocusId = some sid)
    (hj : h.hasJournal sid = true) : h'.hasJournal sid = true := by
  cases hm with
  | buffer hjournals =>
    unfold SessionHub.hasJournal at hj ⊢
    rwa [hjournals]
  | stamp order ev => rwa [ingestNow_hasJournal]
  | close ev =>
    cases ev with
    | sessionClosed base reason =>
      simp only [SessionHub.closeJournal]
      split_ifs with hgone
      · have hne : sid ≠ (SessionDriverEvent.sessionClosed base reason).sid := by
          rintro rfl
          rcases hview with hv | hd
          · rw [hgone.2] at hv
            cases hv
          · exact hgone.1 hd
        unfold SessionHub.hasJournal at hj ⊢
        show ((h.journals.erase (SessionDriverEvent.sessionClosed base reason).sid) sid).isSome
        rwa [PMap.erase_of_ne _ hne]
      · exact hj
    | _ => exact hj
  | note | mark => exact hj

theorem SessionHub.Moves.hasJournal (hm : Moves serde h h') {sid : SessionId}
    (hview : h.hasViewer sid = true ∨ h.defaultFocusId = some sid)
    (hj : h.hasJournal sid = true) : h'.hasJournal sid = true := by
  induction hm with
  | refl => exact hj
  | tail hmoves hstep ih =>
    refine hstep.hasJournal ?_ ih
    rwa [(SessionHub.Moves.sameSeats hmoves).hasViewer, (SessionHub.Moves.landing hmoves).1]

end Keeps

/-! ### Seats -/

/-- Every session that is viewed has a journal, and so has the default one; a key is given
once; a switch is queued on a connection only while the applier waits on it. -/
structure Server.Seated (s : Server) : Prop where
  viewed : ∀ sid, s.hub.hasViewer sid = true ∨ s.hub.defaultFocusId = some sid →
    s.hub.hasJournal sid = true
  keys : ∀ c ∈ s.hub.clients, c.key < s.hub.nextClientKey
  pending : ∀ c ∈ s.hub.clients, c.pendingSwitch ≠ none →
    ∃ sw first, s.phase = .switching c.key sw .waiting first

section Seats

open SessionHub

variable {serde : Serde} {s s' : Server}

/-- Nothing is queued on a connection. -/
def SessionHub.NoPending (h : SessionHub) : Prop := ∀ c ∈ h.clients, c.pendingSwitch = none

theorem Server.Seated.noPending (hs : s.Seated)
    (hphase : ∀ key sw first, s.phase ≠ .switching key sw .waiting first) : s.hub.NoPending := by
  intro c hc
  by_contra hpending
  obtain ⟨sw, first, heq⟩ := hs.pending c hc hpending
  exact hphase _ sw first heq

/-- Sections that keep the seats and the journals that are viewed. -/
theorem Server.Seated.of_sameSeats (hs : s.Seated) (hseats : s.hub.SameSeats s'.hub)
    (hlanding : s'.hub.defaultFocusId = s.hub.defaultFocusId ∧
      s'.hub.nextClientKey = s.hub.nextClientKey)
    (hj : ∀ sid, s.hub.hasViewer sid = true ∨ s.hub.defaultFocusId = some sid →
      s.hub.hasJournal sid = true → s'.hub.hasJournal sid = true)
    (hphase : s.hub.NoPending ∨ s'.phase = s.phase) : s'.Seated where
  viewed := fun sid hview => by
    rw [hseats.hasViewer, hlanding.1] at hview
    exact hj sid hview (hs.viewed sid hview)
  keys := fun c hc => by
    obtain ⟨g, hg, heq⟩ := hseats
    rw [heq] at hc
    obtain ⟨c, hmem, rfl⟩ := List.mem_map.mp hc
    rw [hg.key, hlanding.2]
    exact hs.keys c hmem
  pending := fun c hc hpending => by
    obtain ⟨g, hg, heq⟩ := hseats
    rw [heq] at hc
    obtain ⟨c, hmem, rfl⟩ := List.mem_map.mp hc
    have hpending : c.pendingSwitch ≠ none := fun hnone => hpending (hg.pendingSwitch c hnone)
    rcases hphase with hnone | hphase
    · exact absurd (hnone c hmem) hpending
    · rw [hg.key, hphase]
      exact hs.pending c hmem hpending

theorem Server.Seated.of_moves (hs : s.Seated) (hm : Moves serde s.hub s'.hub)
    (hphase : s.hub.NoPending ∨ s'.phase = s.phase) : s'.Seated :=
  hs.of_sameSeats (SessionHub.Moves.sameSeats hm) (SessionHub.Moves.landing hm)
    (fun _ hview hj => SessionHub.Moves.hasJournal hm hview hj) hphase

theorem hasViewer_updateClient (h : SessionHub) (key : ℕ) {f : ClientConn → ClientConn}
    (hf : ∀ c, (f c).focusedId = c.focusedId) (sid : SessionId) :
    (h.updateClient key f).hasViewer sid = h.hasViewer sid := by
  unfold SessionHub.updateClient SessionHub.hasViewer
  rw [List.any_map]
  congr 1
  funext c
  simp only [Function.comp]
  split
  · rw [hf]
  · rfl

theorem superseded_eq_false {h : SessionHub} (hp : h.NoPending) (key : ℕ) :
    Server.superseded h key = false := by
  unfold Server.superseded SessionHub.client
  cases hc : h.clients.find? (·.key = key) with
  | none => rfl
  | some c =>
    have hnone := hp c (List.mem_of_find?_eq_some hc)
    simp [hnone]

/-- The journal of an installed seed is there, and no other is lost. -/
theorem installJournal_hasJournal (h : SessionHub) (sw : Switch) (seed : SwapSeed)
    (sid s : SessionId) : (Server.installJournal h sw seed sid).hasJournal s = true ↔
      s = sid ∨ h.hasJournal s = true := by
  unfold Server.installJournal
  split
  · show (((h.journals).insert sid _) s).isSome = true ↔ _
    rw [PMap.insert_apply]
    split
    · next heq => exact iff_of_true rfl (.inl heq)
    · next hne => exact (or_iff_right hne).symm
  · next hkept =>
    rw [not_or, Bool.not_eq_false] at hkept
    refine ⟨.inr, ?_⟩
    rintro (rfl | hj)
    · exact hkept.2
    · exact hj

theorem installJournal_clients (h : SessionHub) (sw : Switch) (seed : SwapSeed)
    (sid : SessionId) : (Server.installJournal h sw seed sid).clients = h.clients ∧
      (Server.installJournal h sw seed sid).defaultFocusId = h.defaultFocusId ∧
      (Server.installJournal h sw seed sid).nextClientKey = h.nextClientKey := by
  unfold Server.installJournal
  split <;> exact ⟨rfl, rfl, rfl⟩

/-- What an install does when no switch supersedes it. -/
theorem install_hub (hp : s.hub.NoPending) (key : ℕ) (sw : Switch) (seed : SwapSeed)
    (sid : SessionId) (first : Option FirstPrompt) :
    (s.install key sw seed sid first).hub =
        Server.seedRequester (Server.installJournal s.hub sw seed sid) key sid ∧
      (s.install key sw seed sid first).phase = .switching key sw
        (if sw.reseed = false then .finished (some sid) else .installed sid) first := by
  have hnone : Server.superseded (Server.installJournal s.hub sw seed sid) key = false := by
    apply superseded_eq_false
    unfold SessionHub.NoPending
    rw [(installJournal_clients s.hub sw seed sid).1]
    exact hp
  unfold Server.install
  dsimp only
  rw [hnone]
  exact ⟨rfl, by simp⟩

theorem Server.Seated.install (hs : s.Seated) {key : ℕ} {sw : Switch} {seed : SwapSeed}
    {sid : SessionId} {first : Option FirstPrompt}
    (hphase : s.phase = .switching key sw (.folded seed sid) first) :
    (s.install key sw seed sid first).Seated := by
  have hp : s.hub.NoPending := by
    apply hs.noPending
    intro key' sw' first' heq
    rw [hphase] at heq
    cases heq
  obtain ⟨hhub, hphase'⟩ := install_hub hp key sw seed sid first
  obtain ⟨hclients, hdefault, hnext⟩ := installJournal_clients s.hub sw seed sid
  -- the focus of the requester moves, and the journal is there
  have hseat : ∀ c ∈ (s.install key sw seed sid first).hub.clients, ∃ c₀ ∈ s.hub.clients,
      c.key = c₀.key ∧ c.pendingSwitch = c₀.pendingSwitch ∧
        (c.focusedId = c₀.focusedId ∨ c.focusedId = some sid) := by
    intro c hc
    rw [hhub] at hc
    obtain ⟨c₁, hc₁, rfl⟩ := List.mem_map.mp hc
    obtain ⟨c₀, hc₀, rfl⟩ := List.mem_map.mp hc₁
    rw [hclients] at hc₀
    refine ⟨c₀, hc₀, ?_⟩
    split_ifs <;> simp
  have hjournal : ∀ sid', (s.install key sw seed sid first).hub.hasJournal sid' = true ↔
      sid' = sid ∨ s.hub.hasJournal sid' = true := by
    intro sid'
    rw [hhub]
    exact installJournal_hasJournal s.hub sw seed sid sid'
  refine ⟨?_, ?_, ?_⟩
  · intro sid' hview
    rw [hjournal]
    rcases hview with hv | hd
    · obtain ⟨c, hc, hfocus⟩ := List.any_eq_true.mp hv
      obtain ⟨c₀, hc₀, -, -, hsame | hmoved⟩ := hseat c hc
      · refine .inr (hs.viewed sid' (.inl (List.any_eq_true.mpr ⟨c₀, hc₀, ?_⟩)))
        rwa [← hsame]
      · rw [hmoved] at hfocus
        exact .inl (by simpa using hfocus.symm : sid = sid').symm
    · have hd' : s.hub.defaultFocusId = some sid' := by
        rw [hhub] at hd
        exact hdefault.symm.trans hd
      exact .inr (hs.viewed sid' (.inr hd'))
  · intro c hc
    obtain ⟨c₀, hc₀, hkey, -⟩ := hseat c hc
    have hnext' : (s.install key sw seed sid first).hub.nextClientKey = s.hub.nextClientKey := by
      rw [hhub]
      exact hnext
    rw [hkey, hnext']
    exact hs.keys c₀ hc₀
  · intro c hc hpending
    obtain ⟨c₀, hc₀, -, hsame, -⟩ := hseat c hc
    rw [hsame] at hpending
    exact absurd (hp c₀ hc₀) hpending

theorem map_key_updateClient (h : SessionHub) (key : ℕ) {f : ClientConn → ClientConn}
    (hf : ∀ c, (f c).key = c.key) :
    (h.updateClient key f).clients.map (·.key) = h.clients.map (·.key) := by
  unfold SessionHub.updateClient
  rw [List.map_map]
  congr 1
  funext c
  simp only [Function.comp]
  split
  · exact hf c
  · rfl

/-- The applier neither adds nor removes a connection. -/
theorem tick_keys (m : Moment) (answer : Answer) :
    (s.tick serde m answer).hub.clients.map (·.key) = s.hub.clients.map (·.key) ∧
      (s.tick serde m answer).hub.nextClientKey = s.hub.nextClientKey := by
  rcases @tick_hub serde s m answer with hm | ⟨key, sw, first, c, hphase, hc, hmarked⟩ |
    ⟨key, sw, seed, sid, first, hphase⟩ | ⟨key, sw, sid, msg, viewer, viewers, first, hphase⟩
  · exact ⟨(SessionHub.Moves.sameSeats hm).map_key, (SessionHub.Moves.landing hm).2⟩
  · simp only [Server.tick, hphase, Server.tickSwitch, hc, hmarked, if_true]
    exact ⟨map_key_updateClient _ _ fun _ => rfl, rfl⟩
  · obtain ⟨hclients, -, hnext⟩ := installJournal_clients s.hub sw seed sid
    simp only [Server.tick, hphase, Server.tickSwitch, Server.install]
    split
    · exact ⟨by rw [hclients], hnext⟩
    · refine ⟨?_, hnext⟩
      have hfocus := @map_key_updateClient (Server.installJournal s.hub sw seed sid) key
        (fun c => { c with focusedId := some sid }) fun _ => rfl
      rw [hclients] at hfocus
      exact (sameSeats_sendWhere _ _).map_key.trans hfocus
  · simp only [Server.tick, hphase, Server.tickSwitch]
    exact ⟨(sameSeats_sendWhere _ _).map_key, rfl⟩

theorem receive_keys (key : ℕ) (msg : ClientMessage) :
    (s.receive key msg).hub.clients.map (·.key) = s.hub.clients.map (·.key) ∧
      (s.receive key msg).hub.nextClientKey = s.hub.nextClientKey := by
  have honce : ∀ promptId op,
      (s.enqueueOnce key promptId op).hub.clients.map (·.key) = s.hub.clients.map (·.key) ∧
        (s.enqueueOnce key promptId op).hub.nextClientKey = s.hub.nextClientKey := by
    intro promptId op
    have hm := @moves_enqueueOnce ⟨fun _ => 0, fun _ => none⟩ s key promptId op
    exact ⟨(SessionHub.Moves.sameSeats hm).map_key, (SessionHub.Moves.landing hm).2⟩
  cases msg with
  | prompt | newSession => exact honce _ _
  | requestSeed sid => exact ⟨(sameSeats_sendWhere _ _).map_key, rfl⟩
  | openSession | reloadSession | branch | detachSession => exact ⟨rfl, rfl⟩

/-- A switch is queued on a connection, and the applier waits on it. -/
theorem Server.Seated.queueSwitch (hs : s.Seated) {key : ℕ} {sw : Switch}
    {first : Option FirstPrompt} (hphase : s.phase = .switching key sw .begin first) :
    ({ s with
      hub := s.hub.updateClient key fun c => { c with pendingSwitch := some sw }
      phase := .switching key sw .waiting first } : Server).Seated := by
  have hp : s.hub.NoPending := by
    apply hs.noPending
    intro key' sw' first' heq
    rw [hphase] at heq
    cases heq
  refine ⟨?_, ?_, ?_⟩
  · intro sid hview
    rw [@hasViewer_updateClient s.hub key (fun c => { c with pendingSwitch := some sw })
      (fun _ => rfl) sid] at hview
    exact hs.viewed sid hview
  · intro c' hc'
    obtain ⟨c₀, hc₀, rfl⟩ := List.mem_map.mp hc'
    split_ifs <;> exact hs.keys c₀ hc₀
  · intro c' hc' hpending
    obtain ⟨c₀, hc₀, rfl⟩ := List.mem_map.mp hc'
    split_ifs at hpending ⊢ with hkey
    · exact ⟨sw, first, by rw [hkey]⟩
    · exact absurd (hp c₀ hc₀) hpending

theorem Server.Seated.tick (hs : s.Seated) (m : Moment) (answer : Answer) :
    (s.tick serde m answer).Seated := by
  rcases @tick_hub serde s m answer with hm | ⟨key, sw, first, c, hphase, hc, hmarked⟩ |
    ⟨key, sw, seed, sid, first, hphase⟩ | ⟨key, sw, sid, msg, viewer, viewers, first, hphase⟩
  · apply hs.of_moves hm
    by_cases hwaiting : ∃ key sw first, s.phase = .switching key sw .waiting first
    · obtain ⟨key, sw, first, hphase⟩ := hwaiting
      cases hc : s.hub.client key with
      | some c =>
        right
        simp only [Server.tick, hphase, Server.tickSwitch, hc]
      | none =>
        -- the switch was queued on a connection that is gone
        left
        intro c hmem
        by_contra hpending
        obtain ⟨sw', first', heq⟩ := hs.pending c hmem hpending
        rw [hphase] at heq
        cases heq
        exact absurd (List.find?_eq_none.mp hc c hmem) (by simp)
    · left
      apply hs.noPending
      intro key sw first hphase
      exact hwaiting ⟨key, sw, first, hphase⟩
  · simp only [Server.tick, hphase, Server.tickSwitch, hc, hmarked, if_true]
    exact hs.queueSwitch hphase
  · rw [tick_folded hphase]
    exact hs.install hphase
  · refine hs.of_sameSeats ?_ ?_ ?_ ?_
    · simp only [Server.tick, hphase, Server.tickSwitch]
      exact sameSeats_sendWhere _ _
    · simp only [Server.tick, hphase, Server.tickSwitch]
      exact ⟨rfl, rfl⟩
    · intro sid' _ hj
      simp only [Server.tick, hphase, Server.tickSwitch]
      exact hj
    · left
      apply hs.noPending
      intro key' sw' first' heq
      rw [hphase] at heq
      cases heq

theorem Server.Seated.receive (hs : s.Seated) (key : ℕ) (msg : ClientMessage) :
    (s.receive key msg).Seated := by
  by_cases hmsg : ∃ sid, msg = .requestSeed sid
  · obtain ⟨sid, rfl⟩ := hmsg
    exact hs.of_sameSeats (sameSeats_sendWhere _ _) ⟨rfl, rfl⟩ (fun _ _ hj => hj) (.inr rfl)
  · have hmoves : Moves ⟨fun _ => 0, fun _ => none⟩ s.hub (s.receive key msg).hub := by
      apply moves_receive
      intro sid heq
      exact hmsg ⟨sid, heq⟩
    exact hs.of_moves hmoves (.inr (sameStore_receive s key msg).2)

/-- A token is resumed on a session with a journal. -/
theorem Server.Seated.connect (hs : s.Seated) (resume : Option ResumeToken) :
    ({ s with hub := s.hub.addClient resume } : Server).Seated := by
  refine ⟨?_, ?_, ?_⟩
  · intro sid hview
    rcases hview with hv | hd
    · obtain ⟨c, hc, hfocus⟩ := List.any_eq_true.mp hv
      rcases List.mem_append.mp hc with hold | hnew
      · exact hs.viewed sid (.inl (List.any_eq_true.mpr ⟨c, hold, hfocus⟩))
      · obtain rfl := List.mem_singleton.mp hnew
        cases resume with
        | none => exact hs.viewed sid (.inr (by simpa using hfocus))
        | some r =>
          dsimp only at hfocus
          split_ifs at hfocus with hresumes
          · obtain rfl : r.sessionId = sid := by simpa using hfocus
            show s.hub.hasJournal r.sessionId = true
            unfold SessionHub.resumes at hresumes
            unfold SessionHub.hasJournal
            cases hj : s.hub.journals r.sessionId with
            | none =>
              rw [hj] at hresumes
              cases hresumes
            | some j => rfl
          · exact hs.viewed sid (.inr (by simpa using hfocus))
    · exact hs.viewed sid (.inr hd)
  · intro c hc
    rcases List.mem_append.mp hc with hold | hnew
    · exact (hs.keys c hold).trans (Nat.lt_succ_self _)
    · obtain rfl := List.mem_singleton.mp hnew
      exact Nat.lt_succ_self _
  · intro c hc hpending
    rcases List.mem_append.mp hc with hold | hnew
    · exact hs.pending c hold hpending
    · obtain rfl := List.mem_singleton.mp hnew
      exact absurd rfl hpending

theorem Server.Seated.disconnect (hs : s.Seated) (key : ℕ) :
    ({ s with hub := s.hub.removeClient key } : Server).Seated := by
  refine ⟨?_, ?_, ?_⟩
  · intro sid hview
    refine hs.viewed sid (hview.imp_left fun hv => ?_)
    obtain ⟨c, hc, hfocus⟩ := List.any_eq_true.mp hv
    exact List.any_eq_true.mpr ⟨c, (List.mem_filter.mp hc).1, hfocus⟩
  · intro c hc
    exact hs.keys c (List.mem_filter.mp hc).1
  · intro c hc
    exact hs.pending c (List.mem_filter.mp hc).1

theorem Server.Seated.input (hs : s.Seated) (i : Server.Input) : (s.input serde i).Seated := by
  cases i with
  | event m ev => exact hs.of_moves (moves_onEvent m ev) (.inr rfl)
  | connect resume => exact hs.connect resume
  | disconnect key => exact hs.disconnect key
  | receive key msg => exact hs.receive key msg
  | timer | liveTimer | evict | disposeIdle => exact ⟨hs.viewed, hs.keys, hs.pending⟩

theorem Server.Seated.step (hs : s.Seated) (a : Server.Action) : (s.step serde a).Seated := by
  cases a with
  | tick m answer => exact hs.tick m answer
  | input i => exact hs.input i

theorem Server.seated_boot (deltaFlushMs nowMs : ℕ) (defaultSeed : Option SwapSeed) :
    (Server.boot deltaFlushMs nowMs defaultSeed).Seated := by
  have hclients : (Server.boot deltaFlushMs nowMs defaultSeed).hub.clients = [] := by
    rcases defaultSeed with _ | ⟨_ | ⟨ev, evs⟩, hopened⟩ <;> rfl
  refine ⟨?_, ?_, ?_⟩
  · intro sid hview
    rcases hview with hv | hd
    · unfold SessionHub.hasViewer at hv
      rw [hclients] at hv
      cases hv
    · rcases defaultSeed with _ | ⟨_ | ⟨ev, evs⟩, hopened⟩
      · cases hd
      · cases hd
      · obtain rfl : ev.sid = sid := Option.some.inj hd
        show ((PMap.insert _ ev.sid _) ev.sid).isSome = true
        rw [PMap.insert_self]
        rfl
  · intro c hc
    rw [hclients] at hc
    cases hc
  · intro c hc
    rw [hclients] at hc
    cases hc

end Seats

end Pantoken
