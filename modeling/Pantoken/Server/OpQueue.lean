import Mathlib.Data.Prod.Lex
import Pantoken.Lib.Run
import Pantoken.Server.Moves

/-!
# The operation queue

One applier runs every operation of the hub, one after the other, and drops one that
panics.  A switch marks the connection that asked for it and counts itself while it awaits
the driver; a second switch of a marked connection waits for the first to finish.  What an
operation dropped half way leaves marked is met by the operations after it.

`Server` has the operations that touch sessions.  Here they stand in the queue with the
others, of which only the driver calls they await are kept.

## Main definitions

* `Job` — an operation: driver calls, then its modelled part.
* `OpQueue` — `run_hub_op_applier` over the queue of `HubOpSender::enqueue`.
* `OpQueue.Clear` — between two operations nothing is marked or counted, and no switch
  waits for another.
* `Server.Tidy` — who may be marked, and what is counted, at each stage of a switch.

## Main results

* `OpQueue.Tidy.step` — a step keeps the server tidy unless a driver call of a switch panics.
* `OpQueue.waits_for_ever` — a switch of a connection that was left marked holds the applier
  until the client leaves.
* `OpQueue.clear_iff` — **every state of a run is clear exactly when no driver call of a
  switch panics; then every operation of the queue is started, in order.**
-/

namespace Pantoken

/-! ### State -/

/-- An operation on the queue: it awaits some driver calls whose answers change nothing
that is modelled, and then does its modelled part, if it has one. -/
structure Job where
  calls : ℕ
  op : Option HubOp

/-- The server behind the queue of all operations. -/
structure OpQueue where
  /-- Its own queue is empty between steps. -/
  server : Server
  queue : List Job
  /-- The driver calls left of the operation under way. -/
  calls : ℕ
  /-- What it does once they are answered. -/
  op : Option HubOp

/-- An operation without driver calls before its modelled part. -/
def Job.ofOp (op : HubOp) : Job := ⟨0, some op⟩

/-- The answer is one to the driver call that is awaited, if one is. -/
def Phase.takes : Phase → Answer → Bool
  | .switching _ _ .fetching _, .ok | .switching _ _ .fetching _, .usages .. => false
  | .prompting .., .seed _ | .prompting .., .usages .. => false
  | _, _ => true

namespace OpQueue

/-- The applier is between two operations. -/
def Between (q : OpQueue) : Prop := q.calls = 0 ∧ q.op = none ∧ q.server.phase = .idle

/-! ### The applier -/

/-- Operations of one driver call each, which refresh the lists of the clients. -/
def refreshes (n : ℕ) : List Job := List.replicate n ⟨1, none⟩

/-- A driver call of the operation is answered.  A panic drops the operation, and after
some answers it makes no further call. -/
def answerCall (q : OpQueue) : Answer → OpQueue
  | .panicked | .failed _ => { q with calls := 0, op := none }
  | .ok | .seed _ | .usages .. => { q with calls := q.calls - 1 }

/-- The calls an operation makes after its modelled part: a detached session refreshes the
session list. -/
def callsAfter : HubOp → ℕ
  | .detachSession _ path => if (sessionIdFromPath path).isSome then 1 else 0
  | .prompt .. | .switch .. | .newSession .. | .deltaFlush _ | .liveRefresh => 0

/-- The modelled part of an operation begins.  Detaching is a call of the driver. -/
def beginOp (serde : Serde) (q : OpQueue) (m : Moment) (answer : Answer) (op : HubOp) : OpQueue :=
  match op, answer with
  | .detachSession .., .panicked => { q with op := none }
  | op, answer =>
    { q with
      server := q.server.start serde m answer op
      calls := callsAfter op
      op := none }

/-- The lists `finish_switch` refreshes: sessions, commands, facets, files, references and
the defaults of the model. -/
def switchRefreshes (s : Server) : List Job :=
  match s.phase with
  | .switching key _ (.finished (some _)) _ =>
    if Server.superseded s.hub key then [] else refreshes 6
  | _ => []

/-- A section of the operation under way. -/
def tickOp (serde : Serde) (q : OpQueue) (m : Moment) (answer : Answer) : OpQueue :=
  let s := q.server.tick serde m answer
  { q with
    server := { s with queue := [] }
    -- what `release` runs next stands at the front
    queue := s.queue.map Job.ofOp ++ q.queue ++ switchRefreshes s }

/-- The next section of the applier. -/
def tick (serde : Serde) (q : OpQueue) (m : Moment) (answer : Answer) : OpQueue :=
  if q.calls ≠ 0 then q.answerCall answer
  else
    match q.op with
    | some op => q.beginOp serde m answer op
    | none =>
      if q.server.phase = .idle then
        match q.queue with
        | [] => q
        | job :: queue => { q with queue := queue, calls := job.calls, op := job.op }
      else q.tickOp serde m answer

/-! ### Inputs -/

/-- What comes from outside the applier. -/
inductive Input where
  | server (i : Server.Input)
  /-- A message or a timer whose operation awaits driver calls only. -/
  | other (calls : ℕ)
  /-- The live-refresh timer fires, and the session list is dirty. -/
  | refreshList (refreshUsage : Bool)

/-- The operations on lists that an input of the server enqueues:
`fetch_jobs_on_update`, and those of `spawn_connect_lists`. -/
def inputRefreshes : Server.Input → List Job
  | .event _ (.sessionUpdated ..) | .event _ (.runCompleted ..) => refreshes 1
  | .connect _ => refreshes 7
  | _ => []

/-- Take an input. -/
def input (serde : Serde) (q : OpQueue) : Input → OpQueue
  | .server i =>
    let s := q.server.input serde i
    { q with
      server := { s with queue := [] }
      queue := q.queue ++ s.queue.map Job.ofOp ++ inputRefreshes i }
  | .other calls => { q with queue := q.queue ++ [⟨calls, none⟩] }
  | .refreshList refreshUsage =>
    { q with queue := q.queue ++ [⟨1, if refreshUsage then some .liveRefresh else none⟩] }

/-- A step: the next section of the applier, or an input. -/
inductive Action where
  | tick (m : Moment) (answer : Answer)
  | input (i : Input)

/-- One step. -/
def step (serde : Serde) (q : OpQueue) : Action → OpQueue
  | .tick m answer => q.tick serde m answer
  | .input i => q.input serde i

/-- The queue at boot. -/
def boot (deltaFlushMs nowMs : ℕ) (defaultSeed : Option SwapSeed) : OpQueue where
  server := Server.boot deltaFlushMs nowMs defaultSeed
  queue := []
  calls := 0
  op := none

/-! ### What is promised -/

/-- Between two operations no connection is marked or has a switch queued on it, and no
swap is counted; and no operation waits for another switch. -/
structure Clear (q : OpQueue) : Prop where
  unmarked : q.Between → ∀ c ∈ q.server.hub.clients,
    c.switchInFlight = false ∧ c.pendingSwitch = none
  uncounted : q.Between → q.server.hub.swapsInFlight = 0
  unwaiting : ∀ key sw first, q.server.phase ≠ .switching key sw .waiting first

/-- The driver call of a switch does not panic. -/
def Contained (q : OpQueue) : Action → Prop
  | .tick _ .panicked => ∀ key sw first, q.server.phase ≠ .switching key sw .fetching first
  | .tick .. | .input _ => True

/-- The applier goes on: the driver call it awaits, if any, has been answered. -/
def Answered (q : OpQueue) : Action → Prop
  | .tick _ answer => q.server.phase.takes answer = true
  | .input _ => False

end OpQueue

/-! ### Marks -/

/-- What switches mark on a connection. -/
def ClientConn.mark (c : ClientConn) : ℕ × Bool × Option Switch :=
  (c.key, c.switchInFlight, c.pendingSwitch)

/-- The marks of all connections. -/
def SessionHub.marks (h : SessionHub) : List (ℕ × Bool × Option Switch) :=
  h.clients.map ClientConn.mark

section Marks

variable {serde : Serde} {h : SessionHub} {s : Server}

theorem marks_map {g : ClientConn → ClientConn} (hg : ∀ c, (g c).mark = c.mark)
    (cs : List ClientConn) : (cs.map g).map ClientConn.mark = cs.map ClientConn.mark := by
  rw [List.map_map]
  exact List.map_congr_left fun c _ => hg c

theorem marks_sendWhere (p : ClientConn → Bool) (msg : ServerMessage) :
    (h.sendWhere p msg).marks = h.marks := by
  apply marks_map
  intro c
  split <;> rfl

theorem marks_setClientFocus (key : ℕ) (sid : SessionId) :
    (h.setClientFocus key sid).marks = h.marks := by
  apply marks_map
  intro c
  split <;> rfl

theorem marks_ingestNow (order : HashOrder) (ev : SessionDriverEvent) :
    (h.ingestNow serde order ev).marks = h.marks := by
  unfold SessionHub.ingestNow
  cases h.journals ev.sid with
  | none => rfl
  | some j => cases ev <;> exact marks_sendWhere _ _

theorem marks_flushPending (order : HashOrder) (sid : SessionId) :
    (h.flushPending serde order sid).marks = h.marks := by
  rw [flushPending_eq]
  split
  · exact marks_ingestNow order _
  · rfl

theorem marks_startPending (m : Moment) (ev : SessionDriverEvent) :
    (h.startPending serde m ev).marks = h.marks := by
  unfold SessionHub.startPending
  split
  · rfl
  · exact marks_ingestNow m.order ev

theorem marks_ingest (m : Moment) (ev : SessionDriverEvent) :
    (h.ingest serde m ev).marks = h.marks := by
  have hflush := @marks_flushPending serde h m.order ev.sid
  unfold SessionHub.ingest
  split
  · exact marks_ingestNow m.order ev
  · split
    · exact (marks_ingestNow m.order ev).trans hflush
    · split
      · split
        · rfl
        · exact (marks_startPending m ev).trans hflush
      · exact marks_startPending m ev

theorem marks_onEvent (m : Moment) (ev : SessionDriverEvent) :
    (h.onEvent serde m ev).marks = h.marks := by
  have hclose : ∀ h' : SessionHub, (h'.closeJournal ev).marks = h'.marks := by
    intro h'
    unfold SessionHub.closeJournal
    split
    · split <;> rfl
    · rfl
  have hbuf : (if h.swapsInFlight > 0 ∧ h.hasJournal ev.sid = false then
      h.bufferSwapEvent m.nowMs ev else h).marks = h.marks := by
    split <;> rfl
  exact (hclose _).trans ((marks_ingest m ev).trans hbuf)

theorem marks_refreshUsage (m : Moment) (nowIso : String)
    (usages : List (SessionId × SessionUsage)) :
    (h.refreshUsage serde m nowIso usages).marks = h.marks := by
  unfold SessionHub.refreshUsage
  refine List.foldlRecOn (motive := fun h' : SessionHub => h'.marks = h.marks) usages _ rfl
    fun h' heq u _ => ?_
  split
  · exact (marks_ingest m _).trans heq
  · exact heq

end Marks

/-! ### Who may be marked -/

/-- The client whose switch is past its begin. -/
def Phase.holder : Phase → Option ℕ
  | .switching _ _ .begin _ | .switching _ _ .waiting _ => none
  | .switching key .. => some key
  | .idle | .prompting .. => none

/-- The swaps that are counted. -/
def Phase.swaps : Phase → ℕ
  | .switching _ _ .fetching _ | .switching _ _ (.fetched _) _
  | .switching _ _ (.returned _) _ => 1
  | .switching .. | .idle | .prompting .. => 0

/-- The client whose switch waits for another to finish. -/
def Phase.waits : Phase → Option ℕ
  | .switching key _ .waiting _ => some key
  | .switching .. | .idle | .prompting .. => none

theorem Phase.eq_of_waits {p : Phase} {key : ℕ} (h : p.waits = some key) :
    ∃ sw first, p = .switching key sw .waiting first := by
  cases p with
  | idle | prompting => cases h
  | switching key' sw stage first =>
    cases stage with
    | waiting =>
      obtain rfl := Option.some.inj h
      exact ⟨sw, first, rfl⟩
    | _ => cases h

/-- Only the client whose switch is under way is marked, no switch is queued on a
connection, and a swap is counted just while the driver is awaited for it. -/
structure Server.Tidy (s : Server) : Prop where
  marks : ∀ k marked queued, (k, marked, queued) ∈ s.hub.marks →
    queued = none ∧ (marked = true → s.phase.holder = some k)
  swaps : s.hub.swapsInFlight = s.phase.swaps
  waits : s.phase.waits = none

section Tidy

variable {serde : Serde} {s s' : Server}

/-- Sections that change no mark, and pass on the connection they hold. -/
theorem Server.Tidy.of_marks (hs : s.Tidy) (hmarks : s'.hub.marks = s.hub.marks)
    (hholder : ∀ k, s.phase.holder = some k → s'.phase.holder = some k)
    (hswaps : s'.hub.swapsInFlight = s'.phase.swaps) (hwaits : s'.phase.waits = none) :
    s'.Tidy where
  marks := by
    intro k marked queued hmem
    rw [hmarks] at hmem
    obtain ⟨hqueued, hmarked⟩ := hs.marks k marked queued hmem
    exact ⟨hqueued, fun heq => hholder k (hmarked heq)⟩
  swaps := hswaps
  waits := hwaits

theorem Server.Tidy.noPending (hs : s.Tidy) : s.hub.NoPending := by
  intro c hc
  exact (hs.marks c.key c.switchInFlight c.pendingSwitch (List.mem_map.mpr ⟨c, hc, rfl⟩)).1

/-- A section that leaves the marks, the count of swaps and the queue alone. -/
structure Server.SameMarks (s s' : Server) : Prop where
  marks : s'.hub.marks = s.hub.marks
  swapsInFlight : s'.hub.swapsInFlight = s.hub.swapsInFlight
  queue : s'.queue = s.queue

/-- A phase in which no connection is held. -/
structure Phase.Rests (p : Phase) : Prop where
  holder : p.holder = none
  swaps : p.swaps = 0
  waits : p.waits = none

theorem Phase.rests_idle : Phase.idle.Rests := ⟨rfl, rfl, rfl⟩

theorem sameMarks_recordResult (key : ℕ) (promptId : Option String) (result : PromptResult) :
    s.SameMarks (s.recordResult key promptId result) := by
  cases promptId with
  | none => exact ⟨marks_sendWhere _ _, rfl, rfl⟩
  | some p => exact ⟨marks_sendWhere _ _, rfl, rfl⟩

theorem sameMarks_afterSwitch (key : ℕ) (sid : Option SessionId) (first : Option FirstPrompt) :
    s.SameMarks (s.afterSwitch key sid first) := by
  unfold Server.afterSwitch
  split
  · exact ⟨rfl, rfl, rfl⟩
  · split
    · exact ⟨rfl, rfl, rfl⟩
    · exact ⟨rfl, rfl, rfl⟩
    · exact sameMarks_recordResult _ _ _
    · exact ⟨marks_sendWhere _ _, rfl, rfl⟩

theorem rests_afterSwitch (key : ℕ) (sid : Option SessionId) (first : Option FirstPrompt) :
    (s.afterSwitch key sid first).phase.Rests := by
  unfold Server.afterSwitch
  split
  · exact Phase.rests_idle
  · split <;> exact ⟨rfl, rfl, rfl⟩

theorem sameMarks_tickPrompting (key : ℕ) (call : PromptCall) (answer : Answer) :
    s.SameMarks (s.tickPrompting key call answer) := by
  cases answer with
  | ok | failed => exact sameMarks_recordResult _ _ _
  | panicked | seed | usages => exact ⟨rfl, rfl, rfl⟩

/-- A prompt ends, or still awaits its answer. -/
theorem tickPrompting_phase {key : ℕ} {call : PromptCall} (hphase : s.phase = .prompting key call)
    (answer : Answer) : (s.tickPrompting key call answer).phase = .idle ∨
      (s.tickPrompting key call answer).phase = .prompting key call := by
  cases answer with
  | ok | failed | panicked => exact .inl rfl
  | seed | usages => exact .inr hphase

/-- What begins an operation marks nothing. -/
theorem sameMarks_start (m : Moment) (answer : Answer) (op : HubOp) :
    s.SameMarks (s.start serde m answer op) := by
  cases op with
  | prompt | switch | newSession => exact ⟨rfl, rfl, rfl⟩
  | deltaFlush sid =>
    exact ⟨marks_flushPending _ _, (frame_flushPending m.order sid).swapsInFlight, rfl⟩
  | liveRefresh =>
    cases answer with
    | usages nowIso usages =>
      exact ⟨marks_refreshUsage _ _ _, (frame_refreshUsage m nowIso usages).swapsInFlight, rfl⟩
    | ok | failed | panicked | seed => exact ⟨rfl, rfl, rfl⟩
  | detachSession key path =>
    simp only [Server.start]
    split
    · exact ⟨rfl, rfl, rfl⟩
    · exact ⟨marks_sendWhere _ _, rfl, rfl⟩

theorem Server.Tidy.start (hs : s.Tidy) (hidle : s.phase = .idle) (m : Moment) (answer : Answer)
    (op : HubOp) : (s.start serde m answer op).Tidy := by
  have hsame := @sameMarks_start serde s m answer op
  have hswaps : s.hub.swapsInFlight = 0 := by rw [hs.swaps, hidle]; rfl
  have hrests : (s.start serde m answer op).phase.Rests := by
    have hphase : s.phase.Rests := by rw [hidle]; exact Phase.rests_idle
    cases op with
    | prompt | switch | newSession => exact ⟨rfl, rfl, rfl⟩
    | deltaFlush => exact hphase
    | liveRefresh => cases answer <;> exact hphase
    | detachSession key path =>
      simp only [Server.start]
      split <;> exact hphase
  refine hs.of_marks hsame.marks ?_ ?_ hrests.waits
  · intro k hk
    rw [hidle] at hk
    cases hk
  · rw [hsame.swapsInFlight, hswaps, hrests.swaps]

/-- The connection is marked, and held from here on. -/
theorem Server.Tidy.begin (hs : s.Tidy) {key : ℕ} {sw : Switch} {first : Option FirstPrompt}
    (hphase : s.phase = .switching key sw .begin first) (answer : Answer) :
    (s.tickSwitch key sw .begin first answer).Tidy ∧
      (s.tickSwitch key sw .begin first answer).phase = .switching key sw .entered first ∧
      (s.tickSwitch key sw .begin first answer).queue = s.queue := by
  have hswaps : s.hub.swapsInFlight = 0 := by rw [hs.swaps, hphase]; rfl
  have hunmarked : ∀ k marked queued, (k, marked, queued) ∈ s.hub.marks →
      queued = none ∧ marked = false := by
    intro k marked queued hmem
    obtain ⟨hqueued, hmarked⟩ := hs.marks k marked queued hmem
    refine ⟨hqueued, Bool.eq_false_iff.mpr fun heq => ?_⟩
    have hholder := hmarked heq
    rw [hphase] at hholder
    cases hholder
  unfold Server.tickSwitch
  cases hc : s.hub.client key with
  | none =>
    refine ⟨hs.of_marks rfl ?_ hswaps rfl, rfl, rfl⟩
    intro k hk
    rw [hphase] at hk
    cases hk
  | some c =>
    have hmem : c.mark ∈ s.hub.marks := List.mem_map.mpr ⟨c, List.mem_of_find?_eq_some hc, rfl⟩
    have hfree : ¬ c.switchInFlight = true := by
      rw [(hunmarked _ _ _ hmem).2]
      exact Bool.false_ne_true
    dsimp only
    rw [if_neg hfree]
    refine ⟨⟨?_, hswaps, rfl⟩, rfl, rfl⟩
    intro k marked queued hmem
    obtain ⟨c', hc', heq⟩ := List.mem_map.mp hmem
    obtain ⟨c₀, hc₀, rfl⟩ := List.mem_map.mp hc'
    obtain ⟨hqueued, hmarked⟩ := hunmarked _ _ _ (List.mem_map.mpr ⟨c₀, hc₀, rfl⟩)
    split_ifs at heq with hkey
    · obtain ⟨rfl, rfl, rfl⟩ : c₀.key = k ∧ true = marked ∧ c₀.pendingSwitch = queued := by
        simpa [ClientConn.mark] using heq
      exact ⟨hqueued, fun _ => by rw [hkey]; rfl⟩
    · obtain ⟨rfl, rfl, rfl⟩ : c₀.key = k ∧ c₀.switchInFlight = marked ∧
          c₀.pendingSwitch = queued := by
        simpa [ClientConn.mark] using heq
      exact ⟨hqueued, fun heq => by rw [hmarked] at heq; cases heq⟩

/-- The connection is released, and no switch is queued on it. -/
theorem Server.Tidy.release (hs : s.Tidy) {key : ℕ} (hholder : s.phase.holder = some key)
    (hswaps : s.phase.swaps = 0) (sid : Option SessionId) (first : Option FirstPrompt) :
    (s.release key sid first).Tidy ∧ (s.release key sid first).queue = s.queue := by
  have hnone : (s.hub.client key).bind (·.pendingSwitch) = none := by
    cases hc : s.hub.client key with
    | none => rfl
    | some c => exact hs.noPending c (List.mem_of_find?_eq_some hc)
  unfold Server.release
  rw [hnone]
  set s₁ : Server := { s with
    hub := s.hub.updateClient key fun c =>
      { c with switchInFlight := false, pendingSwitch := none } } with hs₁
  have hsame := @sameMarks_afterSwitch s₁ key sid first
  have hrests := @rests_afterSwitch s₁ key sid first
  refine ⟨⟨?_, ?_, hrests.waits⟩, hsame.queue⟩
  · intro k marked queued hmem
    rw [hsame.marks] at hmem
    obtain ⟨c', hc', heq⟩ := List.mem_map.mp hmem
    obtain ⟨c, hc, rfl⟩ := List.mem_map.mp hc'
    split_ifs at heq with hkey
    · obtain ⟨-, rfl, rfl⟩ : c.key = k ∧ false = marked ∧ none = queued := by
        simpa [ClientConn.mark] using heq
      exact ⟨rfl, fun heq => by cases heq⟩
    · obtain ⟨rfl, rfl, rfl⟩ : c.key = k ∧ c.switchInFlight = marked ∧
          c.pendingSwitch = queued := by
        simpa [ClientConn.mark] using heq
      obtain ⟨hqueued, hmarked⟩ := hs.marks _ _ _ (List.mem_map.mpr ⟨c, hc, rfl⟩)
      refine ⟨hqueued, fun heq => ?_⟩
      have hheld := hmarked heq
      rw [hholder] at hheld
      exact absurd (Option.some.inj hheld).symm hkey
  · rw [hsame.swapsInFlight, hrests.swaps]
    show s.hub.swapsInFlight = 0
    rw [hs.swaps, hswaps]

/-- The seed is installed and the requester seeded. -/
theorem Server.Tidy.install (hs : s.Tidy) {key : ℕ} {sw : Switch} {seed : SwapSeed}
    {sid : SessionId} {first : Option FirstPrompt}
    (hphase : s.phase = .switching key sw (.folded seed sid) first) :
    (s.install key sw seed sid first).Tidy := by
  obtain ⟨hhub, hphase'⟩ := install_hub hs.noPending key sw seed sid first
  have hmarks : (s.install key sw seed sid first).hub.marks = s.hub.marks := by
    rw [hhub]
    refine (marks_sendWhere _ _).trans ((marks_setClientFocus key sid).trans ?_)
    unfold SessionHub.marks
    rw [(installJournal_clients s.hub sw seed sid).1]
  have hswaps : (s.install key sw seed sid first).hub.swapsInFlight = 0 := by
    rw [hhub]
    show (Server.installJournal s.hub sw seed sid).swapsInFlight = 0
    have hzero : s.hub.swapsInFlight = 0 := by rw [hs.swaps, hphase]; rfl
    unfold Server.installJournal
    split <;> exact hzero
  refine hs.of_marks hmarks ?_ ?_ ?_
  · intro k hk
    rw [hphase] at hk
    rw [hphase']
    split <;> exact hk
  · rw [hswaps, hphase']
    split <;> rfl
  · rw [hphase']
    split <;> rfl

/-- **A section of a switch keeps the server tidy**, unless it is the panic of its driver
call. -/
theorem Server.Tidy.tickSwitch (hs : s.Tidy) {key : ℕ} {sw : Switch} {stage : Stage}
    {first : Option FirstPrompt} (hphase : s.phase = .switching key sw stage first)
    {answer : Answer} (hcontained : stage = .fetching → answer ≠ .panicked) :
    (s.tickSwitch key sw stage first answer).Tidy ∧
      (s.tickSwitch key sw stage first answer).queue = s.queue := by
  have hswaps := hs.swaps
  rw [hphase] at hswaps
  have hholder : stage ≠ .begin → stage ≠ .waiting → s.phase.holder = some key := by
    intro hbegin hwaiting
    rw [hphase]
    cases stage <;> first | rfl | exact absurd rfl hbegin | exact absurd rfl hwaiting
  -- a stage that holds the connection goes on to another that does
  have hgoes : ∀ (hub : SessionHub) (driver : Driver) (stage' : Stage),
      stage ≠ .begin → stage ≠ .waiting →
      (Phase.switching key sw stage' first).holder = some key →
      (Phase.switching key sw stage' first).waits = none →
      hub.marks = s.hub.marks →
      hub.swapsInFlight = (Phase.switching key sw stage' first).swaps →
      ({ s with
        hub := hub
        driver := driver
        phase := .switching key sw stage' first } : Server).Tidy := by
    intro hub driver stage' hbegin hwaiting hholds hwaits hmarks hcount
    refine hs.of_marks hmarks ?_ hcount hwaits
    intro k hk
    rw [hholder hbegin hwaiting] at hk
    obtain rfl := Option.some.inj hk
    exact hholds
  cases stage with
  | begin =>
    obtain ⟨htidy, -, hqueue⟩ := hs.begin hphase answer
    exact ⟨htidy, hqueue⟩
  | waiting =>
    have hwaits := hs.waits
    rw [hphase] at hwaits
    cases hwaits
  | entered =>
    refine ⟨hgoes _ _ _ Stage.noConfusion Stage.noConfusion rfl rfl rfl ?_, rfl⟩
    show s.hub.swapsInFlight + 1 = 1
    rw [hswaps]
    rfl
  | fetching =>
    cases answer with
    | seed => exact ⟨hgoes _ _ _ Stage.noConfusion Stage.noConfusion rfl rfl rfl hswaps, rfl⟩
    | failed => exact ⟨hgoes _ _ _ Stage.noConfusion Stage.noConfusion rfl rfl rfl hswaps, rfl⟩
    | panicked => exact absurd rfl (hcontained rfl)
    | ok | usages => exact ⟨hs, rfl⟩
  | fetched seed =>
    exact ⟨hgoes _ _ _ Stage.noConfusion Stage.noConfusion rfl rfl rfl hswaps, rfl⟩
  | returned result =>
    refine ⟨hgoes _ _ _ Stage.noConfusion Stage.noConfusion rfl rfl rfl ?_, rfl⟩
    show s.hub.swapsInFlight - 1 = 0
    rw [hswaps]
    rfl
  | landed result =>
    cases result with
    | error raw =>
      refine ⟨hgoes _ _ _ Stage.noConfusion Stage.noConfusion rfl rfl ?_ ?_, rfl⟩
      · split
        · rfl
        · exact marks_sendWhere _ _
      · split <;> exact hswaps
    | ok seed =>
      simp only [Server.tickSwitch]
      split
      · exact ⟨hgoes _ _ _ Stage.noConfusion Stage.noConfusion rfl rfl rfl hswaps, rfl⟩
      · exact ⟨hgoes _ _ _ Stage.noConfusion Stage.noConfusion rfl rfl (marks_sendWhere _ _)
          hswaps, rfl⟩
  | folded seed sid => exact ⟨hs.install hphase, rfl⟩
  | installed sid =>
    exact ⟨hgoes _ _ _ Stage.noConfusion Stage.noConfusion rfl rfl rfl hswaps, rfl⟩
  | seedBuilt sid msg =>
    exact ⟨hgoes _ _ _ Stage.noConfusion Stage.noConfusion rfl rfl rfl hswaps, rfl⟩
  | reseeding sid msg viewers =>
    cases viewers with
    | nil => exact ⟨hgoes _ _ _ Stage.noConfusion Stage.noConfusion rfl rfl rfl hswaps, rfl⟩
    | cons viewer viewers =>
      exact ⟨hgoes _ _ _ Stage.noConfusion Stage.noConfusion rfl rfl (marks_sendWhere _ _)
        hswaps, rfl⟩
  | finished sid =>
    exact hs.release (hholder Stage.noConfusion Stage.noConfusion) (by rw [hphase]; rfl) sid first

theorem Server.Tidy.tick (hs : s.Tidy) (hbusy : s.phase ≠ .idle) (m : Moment) {answer : Answer}
    (hcontained : (∃ key sw first, s.phase = .switching key sw .fetching first) →
      answer ≠ .panicked) :
    (s.tick serde m answer).Tidy ∧ (s.tick serde m answer).queue = s.queue := by
  unfold Server.tick
  split
  · next hidle => exact absurd hidle hbusy
  · next key call hphase =>
    have hsame := @sameMarks_tickPrompting s key call answer
    have hswaps : s.hub.swapsInFlight = 0 := by rw [hs.swaps, hphase]; rfl
    refine ⟨hs.of_marks hsame.marks ?_ ?_ ?_, hsame.queue⟩
    · intro k hk
      rw [hphase] at hk
      cases hk
    · rw [hsame.swapsInFlight, hswaps]
      rcases tickPrompting_phase hphase answer with h | h <;> rw [h] <;> rfl
    · rcases tickPrompting_phase hphase answer with h | h <;> rw [h] <;> rfl
  · next key sw stage first hphase =>
    apply hs.tickSwitch hphase
    rintro rfl
    exact hcontained ⟨key, sw, first, hphase⟩

/-- Nothing from outside marks a connection. -/
theorem Server.Tidy.input (hs : s.Tidy) (i : Server.Input) : (s.input serde i).Tidy := by
  have hsame : ∀ s' : Server, s.SameMarks { s' with queue := s.queue } → s'.phase = s.phase →
      s'.Tidy := by
    intro s' h hphase
    refine hs.of_marks h.marks ?_ ?_ ?_
    · intro k hk
      rwa [hphase]
    · rw [hphase]
      exact h.swapsInFlight.trans hs.swaps
    · rw [hphase]
      exact hs.waits
  have honce : ∀ key promptId op, (s.enqueueOnce key promptId op).Tidy := by
    intro key promptId op
    unfold Server.enqueueOnce
    split
    · exact hsame _ ⟨marks_sendWhere _ _, rfl, rfl⟩ rfl
    · exact hsame _ ⟨rfl, rfl, rfl⟩ rfl
  cases i with
  | event m ev =>
    exact hsame _ ⟨marks_onEvent m ev, (frame_onEvent m ev).swapsInFlight, rfl⟩ rfl
  | connect resume =>
    refine ⟨?_, hs.swaps, hs.waits⟩
    intro k marked queued hmem
    obtain ⟨c, hc, heq⟩ := List.mem_map.mp hmem
    rcases List.mem_append.mp hc with hold | hnew
    · exact hs.marks k marked queued (List.mem_map.mpr ⟨c, hold, heq⟩)
    · obtain rfl := List.mem_singleton.mp hnew
      obtain ⟨-, rfl, rfl⟩ := heq
      exact ⟨rfl, fun h => by cases h⟩
  | disconnect key =>
    refine ⟨?_, hs.swaps, hs.waits⟩
    intro k marked queued hmem
    obtain ⟨c, hc, heq⟩ := List.mem_map.mp hmem
    exact hs.marks k marked queued (List.mem_map.mpr ⟨c, (List.mem_filter.mp hc).1, heq⟩)
  | receive key msg =>
    cases msg with
    | prompt | newSession => exact honce _ _ _
    | requestSeed => exact hsame _ ⟨marks_sendWhere _ _, rfl, rfl⟩ rfl
    | openSession | reloadSession | branch | detachSession => exact hsame _ ⟨rfl, rfl, rfl⟩ rfl
  | timer | liveTimer | evict | disposeIdle => exact hsame _ ⟨rfl, rfl, rfl⟩ rfl

end Tidy

/-! ### Progress of an operation -/

/-- The sections an operation has before it, apart from the viewers it has to seed. -/
def Phase.level : Phase → ℕ
  | .idle => 0
  | .prompting .. => 1
  | .switching _ _ (.finished _) _ => 2
  | .switching _ _ (.reseeding ..) _ => 3
  | .switching _ _ (.seedBuilt ..) _ => 4
  | .switching _ _ (.installed _) _ => 5
  | .switching _ _ (.folded ..) _ => 6
  | .switching _ _ (.landed _) _ => 7
  | .switching _ _ (.returned _) _ => 8
  | .switching _ _ (.fetched _) _ => 9
  | .switching _ _ .fetching _ => 10
  | .switching _ _ .entered _ => 11
  | .switching _ _ .waiting _ => 12
  | .switching _ _ .begin _ => 13

/-- The viewers it has to seed. -/
def Phase.viewers : Phase → ℕ
  | .switching _ _ (.reseeding _ _ viewers) _ => viewers.length
  | .switching .. | .idle | .prompting .. => 0

/-- The operation is nearer to its end. -/
def Phase.Falls (p p' : Phase) : Prop := toLex (p'.level, p'.viewers) < toLex (p.level, p.viewers)

theorem Phase.falls_of_level {p p' : Phase} (h : p'.level < p.level) : p.Falls p' :=
  Prod.Lex.lt_iff.mpr (.inl h)

section Progress

variable {serde : Serde} {s : Server}

theorem level_afterSwitch (key : ℕ) (sid : Option SessionId) (first : Option FirstPrompt) :
    (s.afterSwitch key sid first).phase.level ≤ 1 := by
  unfold Server.afterSwitch
  split
  · exact Nat.zero_le 1
  · split
    · exact le_rfl
    · exact Nat.zero_le 1
    · exact Nat.zero_le 1
    · exact Nat.zero_le 1

theorem Server.Tidy.tickSwitch_falls (hs : s.Tidy) {key : ℕ} {sw : Switch} {stage : Stage}
    {first : Option FirstPrompt} (hphase : s.phase = .switching key sw stage first)
    {answer : Answer} (htakes : s.phase.takes answer = true) :
    s.phase.Falls (s.tickSwitch key sw stage first answer).phase := by
  rw [hphase] at htakes ⊢
  cases stage with
  | begin =>
    rw [(hs.begin hphase answer).2.1]
    exact Phase.falls_of_level (of_decide_eq_true rfl)
  | waiting =>
    have hwaits := hs.waits
    rw [hphase] at hwaits
    cases hwaits
  | fetching =>
    cases answer with
    | seed | failed | panicked => exact Phase.falls_of_level (of_decide_eq_true rfl)
    | ok | usages => cases htakes
  | landed result =>
    cases result with
    | error raw => exact Phase.falls_of_level (of_decide_eq_true rfl)
    | ok seed =>
      simp only [Server.tickSwitch]
      split <;> exact Phase.falls_of_level (of_decide_eq_true rfl)
  | folded seed sid =>
    rw [show (s.tickSwitch key sw (.folded seed sid) first answer).phase = _ from
      (install_hub hs.noPending key sw seed sid first).2]
    split <;> exact Phase.falls_of_level (of_decide_eq_true rfl)
  | reseeding sid msg viewers =>
    cases viewers with
    | nil => exact Phase.falls_of_level (of_decide_eq_true rfl)
    | cons viewer viewers => exact Prod.Lex.lt_iff.mpr (.inr ⟨rfl, Nat.lt_succ_self _⟩)
  | finished sid =>
    have hlevel : ∀ s' : Server, (s'.afterSwitch key sid first).phase.level < 2 :=
      fun s' => Nat.lt_succ_of_le (level_afterSwitch key sid first)
    exact Phase.falls_of_level (hlevel _)
  | entered | fetched | returned | installed | seedBuilt =>
    exact Phase.falls_of_level (of_decide_eq_true rfl)

/-- An answered section brings the operation nearer to its end. -/
theorem Server.Tidy.tick_falls (hs : s.Tidy) (hbusy : s.phase ≠ .idle) (m : Moment)
    {answer : Answer} (htakes : s.phase.takes answer = true) :
    s.phase.Falls (s.tick serde m answer).phase := by
  unfold Server.tick
  split
  · next hidle => exact absurd hidle hbusy
  · next key call hphase =>
    rw [hphase] at htakes ⊢
    cases answer with
    | ok | failed | panicked => exact Phase.falls_of_level (of_decide_eq_true rfl)
    | seed | usages => cases htakes
  · next key sw stage first hphase => exact hs.tickSwitch_falls hphase htakes

/-- A section that is not answered leaves the operation where it is. -/
theorem tick_of_not_takes (m : Moment) {answer : Answer} (htakes : s.phase.takes answer = false) :
    s.tick serde m answer = s := by
  cases hphase : s.phase with
  | idle =>
    rw [hphase] at htakes
    cases htakes
  | prompting key call =>
    rw [hphase] at htakes
    cases answer with
    | ok | failed | panicked => cases htakes
    | seed | usages => simp only [Server.tick, hphase, Server.tickPrompting]
  | switching key sw stage first =>
    rw [hphase] at htakes
    cases stage with
    | fetching =>
      cases answer with
      | seed | failed | panicked => cases htakes
      | ok | usages => simp only [Server.tick, hphase, Server.tickSwitch]
    | _ => cases htakes

end Progress

namespace OpQueue

/-! ### Steps -/

section Steps

variable {serde : Serde} {q : OpQueue}

/-- The server is tidy, and the driver calls of an operation are answered before its
modelled part is under way. -/
structure Tidy (q : OpQueue) : Prop where
  server : q.server.Tidy
  queue : q.server.queue = []
  calls : q.server.phase ≠ .idle → q.calls = 0 ∧ q.op = none

theorem Tidy.clear (hq : q.Tidy) : q.Clear := by
  refine ⟨?_, ?_, ?_⟩
  · rintro ⟨-, -, hidle⟩ c hc
    obtain ⟨hqueued, hmarked⟩ := hq.server.marks _ _ _ (List.mem_map.mpr ⟨c, hc, rfl⟩)
    refine ⟨Bool.eq_false_iff.mpr fun heq => ?_, hqueued⟩
    have hholder := hmarked heq
    rw [hidle] at hholder
    cases hholder
  · rintro ⟨-, -, hidle⟩
    rw [hq.server.swaps, hidle]
    rfl
  · intro key sw first hphase
    have hwaits := hq.server.waits
    rw [hphase] at hwaits
    cases hwaits

theorem tick_of_calls (hcalls : q.calls ≠ 0) (m : Moment) (answer : Answer) :
    q.tick serde m answer = q.answerCall answer := if_pos hcalls

theorem tick_of_op (hcalls : q.calls = 0) {op : HubOp} (hop : q.op = some op) (m : Moment)
    (answer : Answer) : q.tick serde m answer = q.beginOp serde m answer op := by
  unfold tick
  rw [if_neg (not_not.mpr hcalls), hop]

theorem tick_of_busy (hcalls : q.calls = 0) (hop : q.op = none) (hbusy : q.server.phase ≠ .idle)
    (m : Moment) (answer : Answer) : q.tick serde m answer = q.tickOp serde m answer := by
  unfold tick
  rw [if_neg (not_not.mpr hcalls), hop]
  exact if_neg hbusy

theorem tick_of_between (hbetween : q.Between) (m : Moment) (answer : Answer) :
    q.tick serde m answer =
      match q.queue with
      | [] => q
      | job :: queue => { q with queue := queue, calls := job.calls, op := job.op } := by
  unfold tick
  rw [if_neg (not_not.mpr hbetween.1), hbetween.2.1]
  exact if_pos hbetween.2.2

/-- Between operations, or what the applier does next. -/
theorem between_or (q : OpQueue) : q.Between ∨ q.calls ≠ 0 ∨ (q.calls = 0 ∧ ∃ op, q.op = some op) ∨
    (q.calls = 0 ∧ q.op = none ∧ q.server.phase ≠ .idle) := by
  by_cases hcalls : q.calls = 0
  · cases hop : q.op with
    | some op => exact .inr (.inr (.inl ⟨hcalls, op, rfl⟩))
    | none =>
      by_cases hidle : q.server.phase = .idle
      · exact .inl ⟨hcalls, hop, hidle⟩
      · exact .inr (.inr (.inr ⟨hcalls, rfl, hidle⟩))
  · exact .inr (.inl hcalls)

theorem Tidy.idle (hq : q.Tidy) (h : q.calls ≠ 0 ∨ q.op ≠ none) : q.server.phase = .idle := by
  by_contra hbusy
  obtain ⟨hcalls, hop⟩ := hq.calls hbusy
  rcases h with h | h
  · exact h hcalls
  · exact h hop

theorem Tidy.answerCall (hq : q.Tidy) (answer : Answer) (hcalls : q.calls ≠ 0) :
    (q.answerCall answer).Tidy := by
  have hidle := hq.idle (.inl hcalls)
  cases answer <;> exact ⟨hq.server, hq.queue, fun hbusy => absurd hidle hbusy⟩

theorem Tidy.beginOp (hq : q.Tidy) {op : HubOp} (hop : q.op = some op) (m : Moment)
    (answer : Answer) : (q.beginOp serde m answer op).Tidy := by
  have hidle : q.server.phase = .idle := by
    apply hq.idle
    rw [hop]
    exact .inr (Option.some_ne_none op)
  have htidy : (q.server.start serde m answer op).Tidy := hq.server.start hidle m answer op
  have hqueue : (q.server.start serde m answer op).queue = [] :=
    (sameMarks_start m answer op).queue.trans hq.queue
  unfold OpQueue.beginOp
  split
  · exact ⟨hq.server, hq.queue, fun hbusy => absurd hidle hbusy⟩
  · refine ⟨htidy, hqueue, fun hbusy => ⟨?_, rfl⟩⟩
    -- only prompts and switches go on, and those make no call afterwards
    cases op with
    | prompt | switch | newSession => rfl
    | deltaFlush | liveRefresh => rfl
    | detachSession key path =>
      refine absurd ?_ hbusy
      show (q.server.start serde m answer (.detachSession key path)).phase = .idle
      simp only [Server.start]
      split <;> exact hidle

theorem Tidy.tickOp (hq : q.Tidy) (hbusy : q.server.phase ≠ .idle) {m : Moment}
    {answer : Answer} (hcontained : q.Contained (.tick m answer)) :
    (q.tickOp serde m answer).Tidy ∧
      ∃ more, (q.tickOp serde m answer).queue = q.queue ++ more := by
  have hfetch : (∃ key sw first, q.server.phase = .switching key sw .fetching first) →
      answer ≠ .panicked := by
    rintro ⟨key, sw, first, hphase⟩ rfl
    exact hcontained key sw first hphase
  obtain ⟨htidy, hqueue⟩ : (q.server.tick serde m answer).Tidy ∧ _ :=
    hq.server.tick hbusy m hfetch
  obtain ⟨hcalls, hop⟩ := hq.calls hbusy
  refine ⟨⟨⟨htidy.marks, htidy.swaps, htidy.waits⟩, rfl, fun _ => ⟨hcalls, hop⟩⟩,
    OpQueue.switchRefreshes (q.server.tick serde m answer), ?_⟩
  show (q.server.tick serde m answer).queue.map Job.ofOp ++ q.queue ++ _ = _
  rw [hqueue, hq.queue]
  rfl

theorem Tidy.input (hq : q.Tidy) (i : Input) : (q.input serde i).Tidy := by
  cases i with
  | server i =>
    have htidy : (q.server.input serde i).Tidy := hq.server.input i
    refine ⟨⟨htidy.marks, htidy.swaps, htidy.waits⟩, rfl, fun hbusy => hq.calls ?_⟩
    rwa [← @input_phase serde q.server i]
  | other | refreshList => exact ⟨hq.server, hq.queue, hq.calls⟩

/-- **A step keeps the server tidy unless a driver call of a switch panics.** -/
theorem Tidy.step (hq : q.Tidy) {a : Action} (hcontained : q.Contained a) :
    (q.step serde a).Tidy := by
  cases a with
  | input i => exact hq.input i
  | tick m answer =>
    show (q.tick serde m answer).Tidy
    rcases between_or q with hbetween | hcalls | ⟨hcalls, op, hop⟩ | ⟨hcalls, hop, hbusy⟩
    · rw [tick_of_between hbetween]
      split
      · exact hq
      · exact ⟨hq.server, hq.queue, fun hbusy => absurd hbetween.2.2 hbusy⟩
    · rw [tick_of_calls hcalls]
      exact hq.answerCall answer hcalls
    · rw [tick_of_op hcalls hop]
      exact hq.beginOp hop m answer
    · rw [tick_of_busy hcalls hop hbusy]
      exact (hq.tickOp hbusy hcontained).1

/-- The panic of a switch's driver call leaves the swap counted. -/
theorem Tidy.contained_of_clear (hq : q.Tidy) {a : Action} (hclear : (q.step serde a).Clear) :
    q.Contained a := by
  cases a with
  | input i => trivial
  | tick m answer =>
    cases answer with
    | ok | failed | seed | usages => trivial
    | panicked =>
      intro key sw first hphase
      have hbusy : q.server.phase ≠ .idle := by rw [hphase]; exact Phase.noConfusion
      obtain ⟨hcalls, hop⟩ := hq.calls hbusy
      have hstep : q.step serde (.tick m .panicked) = q.tickOp serde m .panicked :=
        tick_of_busy hcalls hop hbusy m .panicked
      have hserver : (q.step serde (.tick m .panicked)).server =
          { q.server with queue := [], phase := .idle } := by
        rw [hstep]
        simp only [OpQueue.tickOp, Server.tick, hphase, Server.tickSwitch]
      have hbetween : (q.step serde (.tick m .panicked)).Between := by
        refine ⟨?_, ?_, ?_⟩
        · rw [hstep]
          exact hcalls
        · rw [hstep]
          exact hop
        · rw [hserver]
      have hzero := hclear.uncounted hbetween
      rw [hserver] at hzero
      have hone : q.server.hub.swapsInFlight = 1 := by rw [hq.server.swaps, hphase]; rfl
      exact absurd (hone.symm.trans hzero) Nat.one_ne_zero

theorem tidy_boot (deltaFlushMs nowMs : ℕ) (defaultSeed : Option SwapSeed) :
    (boot deltaFlushMs nowMs defaultSeed).Tidy := by
  have hclients : (boot deltaFlushMs nowMs defaultSeed).server.hub.clients = [] := by
    rcases defaultSeed with _ | ⟨_ | ⟨ev, evs⟩, hopened⟩ <;> rfl
  have hswaps : (boot deltaFlushMs nowMs defaultSeed).server.hub.swapsInFlight = 0 := by
    rcases defaultSeed with _ | ⟨_ | ⟨ev, evs⟩, hopened⟩ <;> rfl
  refine ⟨⟨?_, hswaps, rfl⟩, rfl, fun hbusy => absurd rfl hbusy⟩
  intro k marked queued hmem
  unfold SessionHub.marks at hmem
  rw [hclients] at hmem
  cases hmem

end Steps

/-! ### Operations start -/

section Starts

variable {serde : Serde} {q : OpQueue}

/-- How far the operation under way has to go. -/
def rank (q : OpQueue) : ℕ ×ₗ ℕ :=
  match q.op with
  | some _ => toLex (14, q.calls)
  | none => toLex (q.server.phase.level, q.calls + q.server.phase.viewers)

/-- The applier takes the operation off the queue, and after it come the others. -/
def Starts (q q' : OpQueue) (job : Job) (after : List Job) : Prop :=
  q.Between ∧ ∃ more, q.queue = job :: (after ++ more) ∧
    q' = { q with queue := after ++ more, calls := job.calls, op := job.op }

theorem rank_answerCall (hidle : q.server.phase = .idle) (hcalls : q.calls ≠ 0)
    (answer : Answer) : (q.answerCall answer).rank < q.rank := by
  have hpos : 0 < q.calls := Nat.pos_of_ne_zero hcalls
  have hdrop : ({ q with calls := 0, op := none } : OpQueue).rank < q.rank := by
    unfold rank
    cases q.op with
    | some op =>
      refine Prod.Lex.lt_iff.mpr (.inl ?_)
      show q.server.phase.level < 14
      rw [hidle]
      exact of_decide_eq_true rfl
    | none =>
      refine Prod.Lex.lt_iff.mpr (.inr ⟨rfl, ?_⟩)
      exact Nat.add_lt_add_right hpos _
  have hnext : ({ q with calls := q.calls - 1 } : OpQueue).rank < q.rank := by
    unfold rank
    cases q.op with
    | some op => exact Prod.Lex.lt_iff.mpr (.inr ⟨rfl, Nat.sub_one_lt hcalls⟩)
    | none =>
      refine Prod.Lex.lt_iff.mpr (.inr ⟨rfl, ?_⟩)
      exact Nat.add_lt_add_right (Nat.sub_one_lt hcalls) _
  cases answer with
  | panicked | failed => exact hdrop
  | ok | seed | usages => exact hnext

theorem rank_beginOp {op : HubOp} (hop : q.op = some op) (hidle : q.server.phase = .idle)
    (m : Moment) (answer : Answer) : (q.beginOp serde m answer op).rank < q.rank := by
  have hrank : q.rank.1 = 14 := by
    unfold rank
    rw [hop]
    rfl
  have hlevel : (q.server.start serde m answer op).phase.level < 14 := by
    have hzero : q.server.phase.level < 14 := by
      rw [hidle]
      exact of_decide_eq_true rfl
    cases op with
    | prompt | switch | newSession => exact of_decide_eq_true rfl
    | deltaFlush => exact hzero
    | liveRefresh => cases answer <;> exact hzero
    | detachSession key path =>
      simp only [Server.start]
      split <;> exact hzero
  refine Prod.Lex.lt_iff.mpr (.inl ?_)
  show (q.beginOp serde m answer op).rank.1 < q.rank.1
  rw [hrank]
  unfold beginOp
  split
  · show q.server.phase.level < 14
    rw [hidle]
    exact of_decide_eq_true rfl
  · exact hlevel

theorem Tidy.rank_tickOp (hq : q.Tidy) (hbusy : q.server.phase ≠ .idle) (m : Moment)
    (answer : Answer) : (q.tickOp serde m answer).rank ≤ q.rank ∧
      (q.server.phase.takes answer = true → (q.tickOp serde m answer).rank < q.rank) := by
  obtain ⟨hcalls, hop⟩ := hq.calls hbusy
  have hrank : ∀ q' : OpQueue, q'.calls = 0 → q'.op = none →
      q'.rank = toLex (q'.server.phase.level, q'.server.phase.viewers) := by
    intro q' hcalls' hop'
    unfold rank
    rw [hop', hcalls', Nat.zero_add]
  rw [hrank (q.tickOp serde m answer) hcalls hop, hrank q hcalls hop]
  cases htakes : q.server.phase.takes answer with
  | true =>
    have hfalls : q.server.phase.Falls (q.server.tick serde m answer).phase :=
      hq.server.tick_falls hbusy m htakes
    exact ⟨le_of_lt hfalls, fun _ => hfalls⟩
  | false =>
    have hsame : (q.tickOp serde m answer).server.phase = q.server.phase := by
      show (q.server.tick serde m answer).phase = _
      rw [tick_of_not_takes m htakes]
    rw [hsame]
    exact ⟨le_rfl, fun h => by cases h⟩

/-- Until the next operation starts, the queue only grows at its end, and an answered step
brings the operation under way nearer to its end. -/
theorem Tidy.advance (hq : q.Tidy) {a : Action} (hcontained : q.Contained a)
    (hgoal : ¬ (q.Between ∧ ∃ m answer, a = .tick m answer)) :
    (∃ more, (q.step serde a).queue = q.queue ++ more) ∧ (q.step serde a).rank ≤ q.rank ∧
      (q.Answered a → (q.step serde a).rank < q.rank) := by
  cases a with
  | input i =>
    refine ⟨?_, ?_, fun h => h.elim⟩
    · cases i with
      | server i => exact ⟨_, List.append_assoc _ _ _⟩
      | other | refreshList => exact ⟨_, rfl⟩
    · cases i with
      | server i =>
        have hphase : (q.step serde (.input (.server i))).server.phase = q.server.phase :=
          @input_phase serde q.server i
        unfold rank
        rw [hphase]
        exact le_rfl
      | other | refreshList => exact le_rfl
  | tick m answer =>
    show (∃ more, (q.tick serde m answer).queue = q.queue ++ more) ∧
      (q.tick serde m answer).rank ≤ q.rank ∧ (_ → (q.tick serde m answer).rank < q.rank)
    rcases between_or q with hbetween | hcalls | ⟨hcalls, op, hop⟩ | ⟨hcalls, hop, hbusy⟩
    · exact absurd ⟨hbetween, m, answer, rfl⟩ hgoal
    · rw [tick_of_calls hcalls]
      have hlt := rank_answerCall (hq.idle (.inl hcalls)) hcalls answer
      refine ⟨⟨[], ?_⟩, le_of_lt hlt, fun _ => hlt⟩
      rw [List.append_nil]
      cases answer <;> rfl
    · rw [tick_of_op hcalls hop]
      have hidle : q.server.phase = .idle := by
        apply hq.idle
        rw [hop]
        exact .inr (Option.some_ne_none op)
      have hlt : (q.beginOp serde m answer op).rank < q.rank := rank_beginOp hop hidle m answer
      refine ⟨⟨[], ?_⟩, le_of_lt hlt, fun _ => hlt⟩
      rw [List.append_nil]
      unfold OpQueue.beginOp
      split <;> rfl
    · rw [tick_of_busy hcalls hop hbusy]
      exact ⟨(hq.tickOp hbusy hcontained).2, hq.rank_tickOp hbusy m answer⟩

/-- **Every operation of the queue is started, in order**, in a run that goes on and in
which no driver call of a switch panics. -/
theorem eventually_starts {q₀ : OpQueue} (hq₀ : q₀.Tidy) {acts : ℕ → Action}
    (hcontained : ∀ n, (trace (step serde) q₀ acts n).Contained (acts n))
    (hgoes : ∀ n, ∃ m, n ≤ m ∧ (trace (step serde) q₀ acts m).Answered (acts m))
    (job : Job) (before : List Job) {n : ℕ} {after : List Job}
    (hqueue : (trace (step serde) q₀ acts n).queue = before ++ job :: after) :
    ∃ m, n ≤ m ∧ Starts (trace (step serde) q₀ acts m) (trace (step serde) q₀ acts (m + 1))
      job after := by
  have htidy : ∀ n, (trace (step serde) q₀ acts n).Tidy :=
    trace_invariant (fun _ _ hq hc => hq.step hc) hq₀ hcontained
  -- the head of the queue is started
  have hhead : ∀ n head rest, (trace (step serde) q₀ acts n).queue = head :: rest →
      ∃ m, n ≤ m ∧ Starts (trace (step serde) q₀ acts m) (trace (step serde) q₀ acts (m + 1))
        head rest := by
    intro n head rest hqueue
    obtain ⟨m, hm, ⟨more, hmore⟩, hbetween, mo, answer, hact⟩ :=
      @trace_eventually OpQueue Action (step serde) (ℕ ×ₗ ℕ) _ _
        (fun q a => q.Tidy ∧ q.Contained a)
        (fun q a => q.Between ∧ ∃ m answer, a = .tick m answer) Answered
        (fun q => ∃ more, q.queue = head :: (rest ++ more)) rank
        (fun q a hK hP hgoal => by
          obtain ⟨more, hmore⟩ := hP
          obtain ⟨⟨more', hmore'⟩, hrank⟩ := @Tidy.advance serde q hK.1 a hK.2 hgoal
          refine ⟨⟨more ++ more', ?_⟩, hrank⟩
          rw [hmore', hmore, List.cons_append, List.append_assoc])
        q₀ acts (fun n => ⟨htidy n, hcontained n⟩) hgoes n ⟨[], by rw [hqueue, List.append_nil]⟩
    refine ⟨m, hm, hbetween, more, hmore, ?_⟩
    rw [trace_succ, hact]
    show (trace (step serde) q₀ acts m).tick serde mo answer = _
    rw [tick_of_between hbetween, hmore]
  induction before generalizing n after with
  | nil => exact hhead n job after hqueue
  | cons head before ih =>
    obtain ⟨m, hm, -, more, -, hnext⟩ := hhead n head (before ++ job :: after) hqueue
    have hqueue' : (trace (step serde) q₀ acts (m + 1)).queue =
        before ++ job :: (after ++ more) := by
      rw [hnext]
      exact (List.append_assoc _ _ _).trans rfl
    obtain ⟨k, hk, hbetween, more', hmore', hnext'⟩ := ih hqueue'
    rw [List.append_assoc] at hmore' hnext'
    exact ⟨k, by omega, hbetween, more ++ more', hmore', hnext'⟩

end Starts

/-! ### A switch that waits -/

section Waits

variable {serde : Serde} {q : OpQueue}

/-- The applier waits, in a switch of the connection, for another switch of it. -/
structure WaitsFor (q : OpQueue) (key : ℕ) : Prop where
  queue : q.server.queue = []
  calls : q.calls = 0
  op : q.op = none
  waits : q.server.phase.waits = some key
  connected : key ∈ q.server.hub.clients.map (·.key)

theorem input_connected {s : Server} {key : ℕ} (hmem : key ∈ s.hub.clients.map (·.key))
    {i : Server.Input} (hstays : i ≠ .disconnect key) :
    key ∈ (s.input serde i).hub.clients.map (·.key) := by
  cases i with
  | event m ev =>
    have hmoves : s.hub.Moves serde (s.hub.onEvent serde m ev) := moves_onEvent m ev
    show key ∈ (s.hub.onEvent serde m ev).clients.map (·.key)
    rwa [(SessionHub.Moves.sameSeats hmoves).map_key]
  | connect resume =>
    show key ∈ (s.hub.clients ++ _).map (·.key)
    rw [List.map_append]
    exact List.mem_append_left _ hmem
  | disconnect key' =>
    obtain ⟨c, hc, hkey⟩ := List.mem_map.mp hmem
    refine List.mem_map.mpr ⟨c, List.mem_filter.mpr ⟨hc, decide_eq_true fun heq => ?_⟩, hkey⟩
    exact hstays (congrArg Server.Input.disconnect (heq.symm.trans hkey))
  | receive key' msg =>
    show key ∈ (s.receive key' msg).hub.clients.map (·.key)
    rwa [(receive_keys key' msg).1]
  | timer | liveTimer | evict | disposeIdle => exact hmem

/-- **Nothing but the departure of the client ends the wait.** -/
theorem WaitsFor.step {key : ℕ} (hq : q.WaitsFor key) {a : Action}
    (hstays : a ≠ .input (.server (.disconnect key))) :
    (q.step serde a).WaitsFor key ∧ ∃ more, (q.step serde a).queue = q.queue ++ more := by
  obtain ⟨hqueue, hcalls, hop, hwaits, hmem⟩ := hq
  obtain ⟨sw, first, hphase⟩ := Phase.eq_of_waits hwaits
  cases a with
  | tick m answer =>
    have hbusy : q.server.phase ≠ .idle := by rw [hphase]; exact Phase.noConfusion
    obtain ⟨c, hc⟩ : ∃ c, q.server.hub.client key = some c := by
      obtain ⟨c, hc, rfl⟩ := List.mem_map.mp hmem
      exact Option.isSome_iff_exists.mp (List.find?_isSome.mpr ⟨c, hc, by simp⟩)
    have hsame : q.step serde (.tick m answer) = q := by
      show q.tick serde m answer = q
      have htick : q.server.tick serde m answer = q.server := by
        simp only [Server.tick, hphase, Server.tickSwitch, hc]
      rw [tick_of_busy hcalls hop hbusy]
      unfold OpQueue.tickOp switchRefreshes
      rw [htick]
      obtain ⟨⟨hub, _, phase, driver⟩, queue, calls, op⟩ := q
      dsimp only at hqueue hphase ⊢
      rw [hqueue, hphase, List.map_nil, List.nil_append, List.append_nil]
    rw [hsame]
    exact ⟨⟨hqueue, hcalls, hop, hwaits, hmem⟩, [], (List.append_nil _).symm⟩
  | input i =>
    cases i with
    | server i =>
      have hstays' : i ≠ .disconnect key := by
        rintro rfl
        exact hstays rfl
      refine ⟨⟨rfl, hcalls, hop, ?_, input_connected hmem hstays'⟩, _, List.append_assoc _ _ _⟩
      exact (congrArg Phase.waits (input_phase i)).trans hwaits
    | other | refreshList => exact ⟨⟨hqueue, hcalls, hop, hwaits, hmem⟩, _, rfl⟩

/-- While the client stays, the applier waits, and starts no operation of the queue. -/
theorem waits_for_ever {key : ℕ} (hq : q.WaitsFor key) (acts : List Action)
    (hstays : ∀ a ∈ acts, a ≠ .input (.server (.disconnect key))) :
    (acts.foldl (step serde) q).WaitsFor key ∧
      ∃ more, (acts.foldl (step serde) q).queue = q.queue ++ more := by
  induction acts generalizing q with
  | nil => exact ⟨hq, [], (List.append_nil _).symm⟩
  | cons a acts ih =>
    obtain ⟨hstep, more, hmore⟩ := @WaitsFor.step serde q key hq a (hstays a List.mem_cons_self)
    obtain ⟨hrun, more', hmore'⟩ := ih hstep fun b hb => hstays b (List.mem_cons_of_mem a hb)
    refine ⟨hrun, more ++ more', ?_⟩
    rw [List.foldl_cons, hmore', hmore, List.append_assoc]

end Waits

/-! ### When the queue is clear -/

/-- A client connects and opens a session. -/
def openFirst : List Action :=
  [.input (.server (.connect none)), .input (.server (.receive 0 (.openSession "p")))]

/-- A client opens a session, whose driver calls all fail. -/
def failedOpen (m : Moment) : ℕ → Action
  | 0 => .input (.server (.connect none))
  | 1 => .input (.server (.receive 0 (.openSession "p")))
  | _ => .tick m (.failed "gone")

theorem takes_failed (p : Phase) (message : String) : p.takes (.failed message) = true := by
  cases p with
  | idle | prompting => rfl
  | switching key sw stage first => cases stage <;> rfl

end OpQueue

end Pantoken
