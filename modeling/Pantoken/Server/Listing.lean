import Pantoken.Lib.Run
import Pantoken.Server.Applier

/-!
# The session list

The sidebar shows what the driver's `list_sessions` returned last.  An operation on the
applier's queue reads the listing without the hub's lock, broadcasts it in a later section
and clears the dirty flag there.  Events mark the list dirty and the live-refresh timer
queues a listing for the mark; the operations that change the listing list it themselves,
after some of their outcomes.

Marks and changes are counted, so that a listing is known by what it has seen of them.

## Main definitions

* `ListingCall`, `ListingCall.after` — the driver calls that change the listing, and what
  the hub does with each outcome.
* `ListingOp`, `ListingPhase`, `Listing` — the queue, the section of the applier, the state.
* `Listing.step` — the next section of the applier, an event, a message, a timer.
* `Listing.NotLost` — what was marked or changed has been shown, or something is left that
  may show it.
* `Listing.Keeps` — the condition under which a step loses nothing.

## Main results

* `notLost_step_iff` — what one step keeps, exactly.
* `notLost_iff` — **when a run loses no change of the session list.**
* `not_notLost` — a mark between a listing and its broadcast, and an archived session whose
  worktree is retained.
-/

namespace Pantoken

/-! ### Operations -/

/-- The driver calls of a client that change what `list_sessions` returns. -/
inductive ListingCall where
  | setArchived (path : String) (archived : Bool)
  | renameSession (path name : String)
  | cleanupWorktree (path : String) (force : Bool)
  | detachSession (path : String)
  /-- `openSession`, `newSession`, `reloadSession` and `branch`. -/
  | switchTo (sw : Switch)

/-- The messages of a client that ask for the listing or change it. -/
inductive ListingRequest where
  | listSessions
  | setArchived (path : String) (archived : Bool)
  | renameSession (path name : String)
  | cleanupWorktree (path : String) (force : Option Bool)
  | detachSession (path : String)
  /-- A message `Server.receive` queues this switch for. -/
  | switchTo (sw : Switch)

/-- What the driver returns. -/
inductive ListingAnswer where
  | ok
  /-- `ArchiveResult`: the path and the reason of a retained worktree. -/
  | archived (worktreeRetained : Option (String × String))
  /-- `WorktreeCleanupResult` -/
  | cleaned (removed : Bool) (reason : Option String)
  | detached (result : Except String Unit)
  | switched (result : Except String SwapSeed)
  /-- The client left while its switch waited for one that had panicked. -/
  | left
  /-- The call panicked: the applier drops the operation and goes on. -/
  | panicked

/-- What is sent; a listing is known by the marks and changes it has seen. -/
inductive ListingMessage where
  | sessionList (seen : ℕ)
  | worktreeRetained (path reason : String)
  | error (message : String)
  /-- An `error` whose text `classify_switch_error` makes of the driver's. -/
  | switchError (raw : String)

/-- What the hub does after a driver call. -/
inductive AfterCall where
  /-- It was not the answer of this call. -/
  | waits
  /-- The operation is over. -/
  | ends (note : Option ListingMessage)
  /-- The operation reads the listing next. -/
  | lists (note : Option ListingMessage)
  /-- A switch installs its seed, and queues a listing. -/
  | installs

/-- The sections after the calls of `handle_client`. -/
def ListingCall.after : ListingCall → ListingAnswer → AfterCall
  | _, .panicked => .ends none
  | .setArchived _ _, .archived (some (path, reason)) =>
    .ends (some (.worktreeRetained path reason))
  | .setArchived _ _, .archived none => .lists none
  | .renameSession _ _, .ok => .lists none
  -- listed either way
  | .cleanupWorktree _ _, .cleaned true _ => .lists none
  | .cleanupWorktree _ _, .cleaned false reason =>
    .lists (some (.error ("worktree not removed: " ++ reason.getD "unknown reason")))
  | .detachSession _, .detached (.error msg) => .ends (some (.error msg))
  | .detachSession _, .detached (.ok _) => .lists none
  | .switchTo _, .switched (.error raw) => .ends (some (.switchError raw))
  | .switchTo _, .switched (.ok seed) =>
    match SessionHub.seedSid seed.events with
    | some _ => .installs
    | none => .ends (some (.error "session switch returned no session"))
  | .switchTo _, .left => .ends none
  | _, _ => .waits

/-- An operation on the queue. -/
inductive ListingOp where
  /-- `list_sessions` and `switch_session_list` -/
  | list
  /-- `connect_session_list`, for one client. -/
  | connectList (key : ℕ)
  /-- `live_refresh`, with what the timer found. -/
  | liveRefresh (dirty refreshUsage : Bool)
  | call (key : ℕ) (c : ListingCall)

/-- The operation lists the sessions for everyone, after some outcome at least. -/
def ListingOp.mayList : ListingOp → Bool
  | .list | .call _ _ => true
  | .connectList _ => false
  | .liveRefresh dirty _ => dirty

/-- Whom a listing is for. -/
inductive Audience where
  | everyone
  | client (key : ℕ)

/-- What the applier is doing. -/
inductive ListingPhase where
  | idle
  /-- The driver is awaited. -/
  | calling (key : ℕ) (c : ListingCall)
  /-- The seed of a switch is folded, installed and sent. -/
  | installing
  /-- The driver is asked for the listing. -/
  | listing (audience : Audience)
  /-- The driver has read the listing. -/
  | sampled (audience : Audience) (seen : ℕ)

/-- The event is one `on_event` marks the list dirty for. -/
def SessionDriverEvent.marksList : SessionDriverEvent → Bool
  | .userMessage .. | .runCompleted .. | .runFailed .. | .sessionOpened .. | .sessionClosed ..
  | .sessionUpdated .. => true
  | _ => false

/-- The list's part of the hub and its queue, with what was sent to whom.  The marks and
changes so far are counted, and those the listing last broadcast has seen. -/
structure Listing where
  sessionListDirty : Bool
  queue : List ListingOp
  phase : ListingPhase
  sent : List (Audience × ListingMessage)
  happened : ℕ
  shown : ℕ

namespace Listing

/-- Put an operation on the queue. -/
def enqueue (s : Listing) (op : ListingOp) : Listing := { s with queue := s.queue ++ [op] }

/-- Send a note, if there is one, to the client that asked. -/
def note (s : Listing) (key : ℕ) (msg : Option ListingMessage) : Listing :=
  { s with sent := s.sent ++ msg.toList.map fun m => (.client key, m) }

/-- The part of `on_event` that marks the list. -/
def onEvent (s : Listing) (ev : SessionDriverEvent) : Listing :=
  if ev.marksList then { s with sessionListDirty := true, happened := s.happened + 1 } else s

/-- The part of `handle_client` that queues the operations. -/
def receive (s : Listing) (key : ℕ) : ListingRequest → Listing
  | .listSessions => s.enqueue .list
  | .setArchived path archived => s.enqueue (.call key (.setArchived path archived))
  | .renameSession path name =>
    if Server.trim name = "" then s
    else s.enqueue (.call key (.renameSession path (Server.trim name)))
  | .cleanupWorktree path force =>
    s.enqueue (.call key (.cleanupWorktree path (force.getD false)))
  | .detachSession path => s.enqueue (.call key (.detachSession path))
  | .switchTo sw => s.enqueue (.call key (.switchTo sw))

/-- `enqueue_live_refresh`, where `refreshUsage` is what `sync_live_refresh` finds. -/
def enqueueLiveRefresh (s : Listing) (refreshUsage : Bool) : Listing :=
  if s.sessionListDirty = false ∧ refreshUsage = false then s
  else s.enqueue (.liveRefresh s.sessionListDirty refreshUsage)

/-- `broadcast_session_list_with` -/
def broadcastSessionListWith (s : Listing) (seen : ℕ) : Listing :=
  { s with
    sent := s.sent ++ [(.everyone, .sessionList seen)]
    sessionListDirty := false
    shown := seen }

/-- Take an operation off the queue. -/
def start (s : Listing) : ListingOp → Listing
  | .list => { s with phase := .listing .everyone }
  | .connectList key => { s with phase := .listing (.client key) }
  -- the refresh of the usage does not touch the list
  | .liveRefresh dirty _ => if dirty then { s with phase := .listing .everyone } else s
  | .call key c => { s with phase := .calling key c }

/-- A driver call returns; `changed` says whether it changed what a listing returns. -/
def tickCalling (s : Listing) (key : ℕ) (c : ListingCall) (changed : Bool)
    (answer : ListingAnswer) : Listing :=
  let s' := if changed then { s with happened := s.happened + 1 } else s
  match c.after answer with
  | .waits => s
  | .ends msg => { s'.note key msg with phase := .idle }
  | .lists msg => { s'.note key msg with phase := .listing .everyone }
  | .installs => { s' with phase := .installing }

/-- The next section of the applier. -/
def tick (s : Listing) (changed : Bool) (answer : ListingAnswer) : Listing :=
  match s.phase with
  | .idle =>
    match s.queue with
    | [] => s
    | op :: queue => start { s with queue := queue } op
  | .calling key c => s.tickCalling key c changed answer
  -- with one applier no later switch of the client supersedes this one
  | .installing => { s.enqueue .list with phase := .idle }
  | .listing audience =>
    match answer with
    | .panicked => { s with phase := .idle }
    | _ => { s with phase := .sampled audience s.happened }
  | .sampled .everyone seen => { s.broadcastSessionListWith seen with phase := .idle }
  | .sampled (.client key) seen =>
    { s.note key (some (.sessionList seen)) with phase := .idle }

/-- What can happen. -/
inductive Action where
  | event (ev : SessionDriverEvent)
  | receive (key : ℕ) (msg : ListingRequest)
  /-- A client connects, and its lists are queued. -/
  | connect (key : ℕ)
  /-- The live-refresh timer fires. -/
  | liveTimer (refreshUsage : Bool)
  | tick (changed : Bool) (answer : ListingAnswer)

/-- One step. -/
def step (s : Listing) : Action → Listing
  | .event ev => s.onEvent ev
  | .receive key msg => s.receive key msg
  | .connect key => s.enqueue (.connectList key)
  | .liveTimer refreshUsage => s.enqueueLiveRefresh refreshUsage
  | .tick changed answer => s.tick changed answer

/-- A run. -/
def run (s : Listing) (acts : List Action) : Listing := acts.foldl step s

/-- The hub at boot, whose list is marked and has not been shown. -/
def boot : Listing := ⟨true, [], .idle, [], 1, 0⟩

/-! ### What is claimed -/

/-- An operation that may list is queued. -/
def queued (s : Listing) : Bool := s.queue.any ListingOp.mayList

/-- The operation under way may still show everyone all that has happened. -/
def underWay (s : Listing) : Prop :=
  match s.phase with
  | .calling _ _ | .installing | .listing .everyone => True
  | .sampled .everyone seen => seen = s.happened
  | .idle | .listing (.client _) | .sampled (.client _) _ => False

/-- All marks and changes have been shown, or the flag is set, or a listing that would see
them is queued or under way. -/
def NotLost (s : Listing) : Prop :=
  s.shown = s.happened ∨ s.sessionListDirty = true ∨ s.queued = true ∨ s.underWay

/-- The step loses no mark and no change.  A broadcast clears the flag when nothing happened
since its listing was read, or another listing is queued.  An operation that ends without
its listing has the flag set or another listing queued, or it changed nothing and nothing
was left to show. -/
def Keeps (s : Listing) : Action → Prop
  | .tick changed answer =>
    match s.phase with
    | .calling _ c =>
      match c.after answer with
      | .ends _ =>
        s.sessionListDirty = true ∨ s.queued = true ∨ changed = false ∧ s.shown = s.happened
      | _ => True
    | .listing .everyone =>
      match answer with
      | .panicked => s.sessionListDirty = true ∨ s.queued = true ∨ s.shown = s.happened
      | _ => True
    | .sampled .everyone seen => seen = s.happened ∨ s.queued = true
    | _ => True
  | _ => True

/-- What was shown or read had happened. -/
def Ordered (s : Listing) : Prop :=
  s.shown ≤ s.happened ∧ ∀ audience seen, s.phase = .sampled audience seen → seen ≤ s.happened

/-! ### What was shown had happened -/

section Ordered

variable {s s' : Listing}

/-- A step that shows nothing and reads nothing. -/
theorem Ordered.mono (h : s.Ordered) (hshown : s'.shown = s.shown)
    (hhappened : s.happened ≤ s'.happened)
    (hphase : ∀ audience seen, s'.phase = .sampled audience seen →
      s.phase = .sampled audience seen) : s'.Ordered := by
  obtain ⟨hle, hseen⟩ := h
  refine ⟨?_, ?_⟩
  · rw [hshown]
    omega
  · intro audience seen hphase'
    have := hseen audience seen (hphase audience seen hphase')
    omega

theorem Ordered.receive (h : s.Ordered) (key : ℕ) (msg : ListingRequest) :
    (s.receive key msg).Ordered := by
  cases msg with
  | renameSession path name =>
    unfold Listing.receive
    dsimp only
    split_ifs
    · exact h
    · exact h.mono rfl (Nat.le_refl _) fun _ _ hphase => hphase
  | listSessions | setArchived | cleanupWorktree | detachSession | switchTo =>
    exact h.mono rfl (Nat.le_refl _) fun _ _ hphase => hphase

theorem Ordered.tickCalling (h : s.Ordered) (key : ℕ) (c : ListingCall) (changed : Bool)
    (answer : ListingAnswer) : (s.tickCalling key c changed answer).Ordered := by
  unfold Listing.tickCalling
  dsimp only
  have hhappened : s.happened ≤
      (if changed then { s with happened := s.happened + 1 } else s : Listing).happened := by
    split_ifs
    · exact Nat.le_succ _
    · exact Nat.le_refl _
  have hshown : (if changed then { s with happened := s.happened + 1 } else s : Listing).shown =
      s.shown := by
    split_ifs <;> rfl
  cases c.after answer with
  | waits => exact h
  | ends | lists | installs =>
    refine Ordered.mono h ?_ ?_ ?_
    · exact hshown
    · exact hhappened
    · intro audience seen hphase
      cases hphase

theorem Ordered.tick (h : s.Ordered) (changed : Bool) (answer : ListingAnswer) :
    (s.tick changed answer).Ordered := by
  unfold Listing.tick
  split
  · split
    · exact h
    · next op queue _ =>
      unfold Listing.start
      split
      · exact h.mono rfl (Nat.le_refl _) fun _ _ hphase => nomatch hphase
      · exact h.mono rfl (Nat.le_refl _) fun _ _ hphase => nomatch hphase
      · split_ifs
        · exact h.mono rfl (Nat.le_refl _) fun _ _ hphase => nomatch hphase
        · exact h.mono rfl (Nat.le_refl _) fun _ _ hphase => hphase
      · exact h.mono rfl (Nat.le_refl _) fun _ _ hphase => nomatch hphase
  · exact h.tickCalling _ _ changed answer
  · exact h.mono rfl (Nat.le_refl _) fun _ _ hphase => nomatch hphase
  · split
    · exact h.mono rfl (Nat.le_refl _) fun _ _ hphase => nomatch hphase
    · -- what is read has all happened
      refine ⟨h.1, fun audience seen hphase => ?_⟩
      cases hphase
      exact Nat.le_refl _
  · next seen hphase =>
    refine ⟨h.2 _ seen hphase, fun audience seen hphase => ?_⟩
    cases hphase
  · exact h.mono rfl (Nat.le_refl _) fun _ _ hphase => nomatch hphase

theorem Ordered.step (h : s.Ordered) (a : Action) : (s.step a).Ordered := by
  cases a with
  | event ev =>
    show (s.onEvent ev).Ordered
    unfold onEvent
    split_ifs
    · exact h.mono rfl (Nat.le_succ _) fun _ _ hphase => hphase
    · exact h
  | receive key msg => exact h.receive key msg
  | connect key => exact h.mono rfl (Nat.le_refl _) fun _ _ hphase => hphase
  | liveTimer refreshUsage =>
    show (s.enqueueLiveRefresh refreshUsage).Ordered
    unfold enqueueLiveRefresh
    split_ifs
    · exact h
    · exact h.mono rfl (Nat.le_refl _) fun _ _ hphase => hphase
  | tick changed answer => exact h.tick changed answer

theorem ordered_boot : boot.Ordered := by
  refine ⟨Nat.zero_le 1, fun audience seen hphase => ?_⟩
  cases hphase

theorem Ordered.run (h : s.Ordered) (acts : List Action) : (s.run acts).Ordered :=
  foldl_invariant (I := Ordered) (fun _ a h => h.step a) h acts

end Ordered

/-! ### What one step keeps -/

section Step

variable {s : Listing}

@[simp] theorem queued_enqueue (op : ListingOp) :
    (s.enqueue op).queued = (s.queued || op.mayList) := by
  simp only [queued, enqueue, List.any_append, List.any_cons, List.any_nil, Bool.or_false]

/-- A queue that grows loses nothing. -/
theorem NotLost.enqueue (h : s.NotLost) (op : ListingOp) : (s.enqueue op).NotLost := by
  rcases h with hshown | hdirty | hqueued | hway
  · exact .inl hshown
  · exact .inr (.inl hdirty)
  · exact .inr (.inr (.inl (by rw [queued_enqueue, hqueued, Bool.true_or])))
  · exact .inr (.inr (.inr hway))

theorem notLost_of_dirty (h : s.sessionListDirty = true) : s.NotLost := .inr (.inl h)

/-- While the applier has nothing under way for everyone. -/
theorem notLost_iff_of_not_underWay (h : ¬s.underWay) :
    s.NotLost ↔ s.sessionListDirty = true ∨ s.queued = true ∨ s.shown = s.happened := by
  unfold NotLost
  tauto

/-- An event sets the flag for what it marks. -/
theorem NotLost.onEvent (h : s.NotLost) (ev : SessionDriverEvent) : (s.onEvent ev).NotLost := by
  unfold Listing.onEvent
  split_ifs
  · exact notLost_of_dirty rfl
  · exact h

theorem NotLost.receive (h : s.NotLost) (key : ℕ) (msg : ListingRequest) :
    (s.receive key msg).NotLost := by
  cases msg with
  | renameSession path name =>
    unfold Listing.receive
    dsimp only
    split_ifs
    · exact h
    · exact h.enqueue _
  | listSessions | setArchived | cleanupWorktree | detachSession | switchTo => exact h.enqueue _

theorem NotLost.enqueueLiveRefresh (h : s.NotLost) (refreshUsage : Bool) :
    (s.enqueueLiveRefresh refreshUsage).NotLost := by
  unfold Listing.enqueueLiveRefresh
  split_ifs
  · exact h
  · exact h.enqueue _

/-- An operation that may list is under way when it is off the queue. -/
theorem NotLost.start {op : ListingOp} {queue : List ListingOp} (h : s.NotLost)
    (hphase : s.phase = .idle) (hqueue : s.queue = op :: queue) :
    (Listing.start { s with queue := queue } op).NotLost := by
  have hidle : ¬s.underWay := by
    unfold underWay
    rw [hphase]
    exact id
  have hrest : op.mayList = false → ({ s with queue := queue } : Listing).NotLost := by
    intro hop
    rcases (notLost_iff_of_not_underWay hidle).mp h with hdirty | hqueued | hshown
    · exact notLost_of_dirty hdirty
    · unfold queued at hqueued
      rw [hqueue, List.any_cons, hop, Bool.false_or] at hqueued
      exact .inr (.inr (.inl hqueued))
    · exact .inl hshown
  cases op with
  | list => exact .inr (.inr (.inr trivial))
  | call key c => exact .inr (.inr (.inr trivial))
  | connectList key =>
    rcases hrest rfl with hshown | hdirty | hqueued | hway
    · exact .inl hshown
    · exact .inr (.inl hdirty)
    · exact .inr (.inr (.inl hqueued))
    · exact absurd hway hidle
  | liveRefresh dirty refreshUsage =>
    cases dirty with
    | true => exact .inr (.inr (.inr trivial))
    | false => exact hrest rfl

/-- A driver call that ends its operation keeps what others will list, or leaves nothing
to list. -/
theorem notLost_ends_iff (h : s.Ordered) (key : ℕ) (msg : Option ListingMessage) (changed : Bool) :
    ({ (if changed then { s with happened := s.happened + 1 } else s : Listing).note key msg with
        phase := .idle } : Listing).NotLost ↔
      s.sessionListDirty = true ∨ s.queued = true ∨ changed = false ∧ s.shown = s.happened := by
  rw [notLost_iff_of_not_underWay id]
  cases changed with
  | false => simp [note, queued]
  | true =>
    have hlt : s.shown ≠ s.happened + 1 := by
      have := h.1
      omega
    simp [note, queued, hlt]

/-- The driver's answer to a call. -/
theorem notLost_calling_iff {key : ℕ} {c : ListingCall} (h : s.Ordered)
    (hphase : s.phase = .calling key c) (changed : Bool) (answer : ListingAnswer) :
    s.Keeps (.tick changed answer) ↔ (s.tick changed answer).NotLost := by
  have htick : s.tick changed answer = s.tickCalling key c changed answer := by
    simp only [tick, hphase]
  rw [htick]
  unfold tickCalling
  dsimp only
  cases hafter : c.after answer with
  | waits =>
    have hway : s.underWay := by simp only [underWay, hphase]
    refine iff_of_true ?_ (.inr (.inr (.inr hway)))
    simp only [Keeps, hphase, hafter]
  | ends msg =>
    rw [notLost_ends_iff h key msg changed]
    simp only [Keeps, hphase, hafter]
  | lists msg | installs =>
    refine iff_of_true ?_ (.inr (.inr (.inr trivial)))
    simp only [Keeps, hphase, hafter]

/-- The answer to the listing itself. -/
theorem notLost_listing_iff (hphase : s.phase = .listing .everyone) (changed : Bool)
    (answer : ListingAnswer) :
    s.Keeps (.tick changed answer) ↔ (s.tick changed answer).NotLost := by
  cases answer with
  | panicked =>
    have htick : s.tick changed .panicked = { s with phase := .idle } := by
      simp only [tick, hphase]
    rw [htick, @notLost_iff_of_not_underWay { s with phase := .idle } id]
    simp only [Keeps, hphase]
    exact Iff.rfl
  | ok | archived | cleaned | detached | switched | left =>
    refine iff_of_true ?_ ?_
    · simp only [Keeps, hphase]
    · simp only [tick, hphase]
      exact .inr (.inr (.inr rfl))

/-- A broadcast clears the flag. -/
theorem notLost_broadcast_iff {seen : ℕ} (hphase : s.phase = .sampled .everyone seen)
    (changed : Bool) (answer : ListingAnswer) :
    s.Keeps (.tick changed answer) ↔ (s.tick changed answer).NotLost := by
  have htick : s.tick changed answer =
      { s.broadcastSessionListWith seen with phase := .idle } := by
    simp only [tick, hphase]
  rw [htick,
    @notLost_iff_of_not_underWay { s.broadcastSessionListWith seen with phase := .idle } id]
  simp only [Keeps, hphase]
  show seen = s.happened ∨ s.queued = true ↔
    (false = true) ∨ s.queued = true ∨ seen = s.happened
  tauto

/-- A section that leaves the flag, the queue and what was shown. -/
theorem NotLost.of_not_underWay {s' : Listing} (h : s.NotLost) (hway : ¬s.underWay)
    (hdirty : s'.sessionListDirty = s.sessionListDirty) (hqueue : s'.queue = s.queue)
    (hshown : s'.shown = s.shown) (hhappened : s'.happened = s.happened) : s'.NotLost := by
  unfold NotLost queued
  rw [hdirty, hqueue, hshown, hhappened]
  rcases (notLost_iff_of_not_underWay hway).mp h with h | h | h
  · exact .inr (.inl h)
  · exact .inr (.inr (.inl h))
  · exact .inl h

/-- The next section of the applier. -/
theorem notLost_tick_iff (h : s.Ordered) (hs : s.NotLost) (changed : Bool)
    (answer : ListingAnswer) :
    s.Keeps (.tick changed answer) ↔ (s.tick changed answer).NotLost := by
  cases hphase : s.phase with
  | idle =>
    refine iff_of_true (by simp only [Keeps, hphase]) ?_
    cases hqueue : s.queue with
    | nil =>
      have htick : s.tick changed answer = s := by simp only [tick, hphase, hqueue]
      rw [htick]
      exact hs
    | cons op queue =>
      have htick : s.tick changed answer = Listing.start { s with queue := queue } op := by
        simp only [tick, hphase, hqueue]
      rw [htick]
      exact hs.start hphase hqueue
  | calling key c => exact notLost_calling_iff h hphase changed answer
  | installing =>
    refine iff_of_true (by simp only [Keeps, hphase]) ?_
    have hqueued : (s.tick changed answer).queued = (s.enqueue .list).queued := by
      simp only [tick, hphase, queued]
    refine .inr (.inr (.inl ?_))
    rw [hqueued, queued_enqueue]
    exact Bool.or_true _
  | listing audience =>
    cases audience with
    | everyone => exact notLost_listing_iff hphase changed answer
    | client key =>
      refine iff_of_true (by simp only [Keeps, hphase]) ?_
      apply hs.of_not_underWay
      · simp only [underWay, hphase, not_false_eq_true]
      all_goals cases answer <;> simp only [tick, hphase]
  | sampled audience seen =>
    cases audience with
    | everyone => exact notLost_broadcast_iff hphase changed answer
    | client key =>
      refine iff_of_true (by simp only [Keeps, hphase]) ?_
      apply hs.of_not_underWay
      · simp only [underWay, hphase, not_false_eq_true]
      all_goals simp only [tick, hphase, note]

/-- **What one step keeps**: a step that loses nothing is one that keeps what it ends or
clears. -/
theorem notLost_step_iff (h : s.Ordered) (hs : s.NotLost) (a : Action) :
    s.Keeps a ↔ (s.step a).NotLost := by
  cases a with
  | event ev => exact iff_of_true trivial (hs.onEvent ev)
  | receive key msg => exact iff_of_true trivial (hs.receive key msg)
  | connect key => exact iff_of_true trivial (hs.enqueue _)
  | liveTimer refreshUsage => exact iff_of_true trivial (hs.enqueueLiveRefresh refreshUsage)
  | tick changed answer => exact notLost_tick_iff h hs changed answer

end Step

/-- **When a run loses no change of the session list**: exactly when every step of it keeps
what it ends or clears. -/
theorem notLost_iff (acts : List Action) :
    (∀ pre, pre <+: acts → (boot.run pre).NotLost) ↔ Along step Keeps boot acts := by
  have hstep : ∀ (s : Listing) a, s.Ordered ∧ s.NotLost →
      (s.Keeps a ↔ (s.step a).Ordered ∧ (s.step a).NotLost) := by
    intro s a hs
    rw [and_iff_right (hs.1.step a)]
    exact notLost_step_iff hs.1 hs.2 a
  have hboot : boot.Ordered ∧ boot.NotLost := ⟨ordered_boot, notLost_of_dirty rfl⟩
  rw [along_iff_forall_part (I := fun s : Listing => s.Ordered ∧ s.NotLost) hstep hboot acts]
  refine forall₂_congr fun pre _ => ?_
  exact (and_iff_right (ordered_boot.run pre)).symm

/-! ### The divergence -/

/-- What a client sees of a closed session. -/
private def closedEvent : SessionDriverEvent := .sessionClosed ⟨⟨"w", "s"⟩, "t", none⟩ .manual

/-- **Two ways to lose a change.**  An event marks the list after a listing was read and
before its broadcast, which clears the flag.  An archived session keeps its worktree, and
the client that archived it is told so instead of being shown the list. -/
theorem not_notLost :
    let tick : Action := .tick false .ok
    let listed : List Action := [.receive 0 .listSessions, tick, tick]
    let marked := boot.run (listed ++ [.event closedEvent, tick])
    let archived := boot.run (listed ++ [tick, .receive 0 (.setArchived "p" true), tick,
      .tick true (.archived (some ("c", "worktree has uncommitted changes")))])
    (marked.sessionListDirty = false ∧ marked.queue = [] ∧ ¬marked.NotLost) ∧
      archived.sessionListDirty = false ∧ archived.queue = [] ∧ ¬archived.NotLost := by
  intro tick listed marked archived
  have hmarked : marked.shown = 1 ∧ marked.happened = 2 := ⟨rfl, rfl⟩
  have harchived : archived.shown = 1 ∧ archived.happened = 2 := ⟨rfl, rfl⟩
  refine ⟨⟨rfl, rfl, ?_⟩, rfl, rfl, ?_⟩
  · rw [@notLost_iff_of_not_underWay marked id]
    rintro (hdirty | hqueued | hshown)
    · cases hdirty
    · cases hqueued
    · omega
  · rw [@notLost_iff_of_not_underWay archived id]
    rintro (hdirty | hqueued | hshown)
    · cases hdirty
    · cases hqueued
    · omega

end Listing

end Pantoken
