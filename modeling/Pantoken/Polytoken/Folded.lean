import Pantoken.Polytoken.LiveEvents

/-!
# Drained queues and snapshots in the folded state

The daemon tells which items of its queue it drained, and the mapper tells the reducer what
started and what is queued.  A snapshot tells the reducer the state of the daemon, and leaves
out the fields that are false, empty or unknown; what is left out stays as it was.

## Main definitions

* `PendingTurnInputItem`, `queueMessagesFromSnapshot` — the daemon's queue, as the client
  shows it.
* `Drains` — the items that were drained start, in order, and the others stay queued.
* `Projects` — the folded fields are those of the daemon's state.

## Main results

* `drains_iff` — **a drain is shown as it is exactly when the queue was one item, and it was
  drained.**
* `projects_iff` — **a snapshot is shown as it is exactly when it leaves nothing out that was
  set before.**
-/

namespace Pantoken

/-! ### Queues -/

structure PendingTurnInputItem where
  id : String
  content : String
  deriving DecidableEq

/-- `queue_message_from_item` -/
def queueMessageFromItem (ts : Timestamp) (item : PendingTurnInputItem) : SessionQueuedMessage :=
  ⟨item.id, .steer, item.content, ts, ts, none⟩

/-- `queue_messages_from_snapshot` -/
def queueMessagesFromSnapshot (items : List PendingTurnInputItem) (ts : Timestamp) :
    List SessionQueuedMessage := items.map (queueMessageFromItem ts)

/-- A queue whose items are marked when they are drained. -/
abbrev MarkedQueue := List (PendingTurnInputItem × Bool)

namespace MarkedQueue

def items (q : MarkedQueue) : List PendingTurnInputItem := q.map (·.1)

def drained (q : MarkedQueue) : List PendingTurnInputItem := (q.filter (·.2)).map (·.1)

def kept (q : MarkedQueue) : List PendingTurnInputItem := (q.filter (!·.2)).map (·.1)

theorem eq_singleton_iff (q : MarkedQueue) :
    (∃ item, q = [(item, true)]) ↔ q.kept = [] ∧ q.drained.length = 1 := by
  constructor
  · rintro ⟨item, rfl⟩
    exact ⟨rfl, rfl⟩
  · rintro ⟨hkept, hdrained⟩
    have hall : ∀ p ∈ q, p.2 = true := by
      intro p hp
      by_contra hfalse
      have hmem : p ∈ q.filter (!·.2) := List.mem_filter.mpr ⟨hp, by simpa using hfalse⟩
      rw [List.map_eq_nil_iff.mp hkept] at hmem
      cases hmem
    have hfilter : q.filter (·.2) = q := List.filter_eq_self.mpr hall
    rw [drained, hfilter, List.length_map] at hdrained
    obtain ⟨⟨item, mark⟩, rfl⟩ := List.length_eq_one_iff.mp hdrained
    exact ⟨item, by rw [← hall (item, mark) List.mem_cons_self]⟩

end MarkedQueue

/-- The event of the daemon that a part of its queue was drained. -/
def MarkedQueue.drainedEvent (q : MarkedQueue) (content : String)
    (resolvedReferences : Option (List ResolvedRef)) : LiveEvent :=
  .ambient (.pendingTurnInputDrained content (q.drained.map (·.id)) resolvedReferences) none

section Drain

variable (fromStr : String → Option Json) (preview : Json → String) (acc : FoldAccumulator)
  (ctx : MapCtx)

/-- The state that shows the queue, once the event is folded. -/
def drainedState (state : SessionState) (q : MarkedQueue) (ts : Timestamp) (content : String)
    (resolvedReferences : Option (List ResolvedRef)) : SessionState :=
  foldAllFrom { state with queued := queueMessagesFromSnapshot q.items ts }
    (mapLiveEvent fromStr preview (q.drainedEvent content resolvedReferences) acc ctx).1.events

/-- The others stay queued, and each drained item starts. -/
structure Drains (state : SessionState) (q : MarkedQueue) (ts : Timestamp)
    (state' : SessionState) : Prop where
  queued : state'.queued = queueMessagesFromSnapshot q.kept ts
  started : ∃ added : List UserItem,
    state'.items = closeOpenAssistant state.items none ++ added.map .user ∧
      added.map (·.id) = q.drained.map (·.id)

/-- What is queued, and which items start. -/
theorem drainedState_spec (state : SessionState) (q : MarkedQueue) (ts : Timestamp)
    (content : String) (resolvedReferences : Option (List ResolvedRef)) :
    let state' := drainedState fromStr preview acc ctx state q ts content resolvedReferences
    (q.drained.length ≤ 1 → state'.queued = []) ∧
      ∃ u : UserItem, state'.items = closeOpenAssistant state.items none ++ [.user u] ∧
        u.id = (q.drained.map (·.id)).head?.getD ("drain-" ++ ctx.now) := by
  unfold drainedState MarkedQueue.drainedEvent mapLiveEvent mapAmbientEvent mapDrained
  simp only [LiveEvent.subagentHandle, Option.isSome_none, Bool.false_eq_true, if_false,
    List.length_map]
  split
  · exact ⟨fun _ => rfl, _, rfl, rfl⟩
  · next hlong => exact ⟨fun hshort => absurd hshort hlong, _, rfl, rfl⟩

/-- **A drain is shown as it is exactly when the queue was one item, and it was drained.** -/
theorem drains_iff (state : SessionState) (q : MarkedQueue) (ts : Timestamp) (content : String)
    (resolvedReferences : Option (List ResolvedRef)) :
    Drains state q ts
        (drainedState fromStr preview acc ctx state q ts content resolvedReferences) ↔
      ∃ item, q = [(item, true)] := by
  obtain ⟨hqueued, u, hitems, hid⟩ :=
    drainedState_spec fromStr preview acc ctx state q ts content resolvedReferences
  rw [q.eq_singleton_iff]
  constructor
  · rintro ⟨hkept, added, hadded, hids⟩
    rw [hitems, List.append_cancel_left_eq] at hadded
    have hone : q.drained.length = 1 := by
      have hadd : added.length = 1 := by simpa using (congrArg List.length hadded).symm
      have hlength := congrArg List.length hids
      rw [List.length_map, List.length_map, hadd] at hlength
      exact hlength.symm
    rw [hqueued hone.le] at hkept
    exact ⟨List.map_eq_nil_iff.mp hkept.symm, hone⟩
  · rintro ⟨hkept, hone⟩
    obtain ⟨item, hitem⟩ := List.length_eq_one_iff.mp hone
    refine ⟨by rw [hqueued hone.le, hkept]; rfl, [u], hitems, ?_⟩
    rw [List.map_singleton, hid, hitem]
    rfl

end Drain

/-- **The queue is emptied with its first item.** -/
theorem drain_clears_queue : ¬ ∀ (fromStr : String → Option Json) (preview : Json → String)
    (acc : FoldAccumulator) (ctx : MapCtx) (state : SessionState) (q : MarkedQueue)
    (ts : Timestamp) (content : String) (resolvedReferences : Option (List ResolvedRef)),
    Drains state q ts
      (drainedState fromStr preview acc ctx state q ts content resolvedReferences) := by
  intro h
  have hqueued := (h (fun _ => none) (fun _ => "") createAccumulator
    ((⟨none, none, none⟩ : WarmCache).ctx (fun _ _ => default) ⟨"w", "s"⟩ ⟨"w", "/w", none⟩ "now")
    initialSessionState [(⟨"a", "first"⟩, true), (⟨"b", "second"⟩, false)] "then" "first"
    none).queued
  cases hqueued

/-! ### Snapshots -/

section Snapshot

variable (percent : Nat → Nat → F64)

/-- The state after the snapshot of a daemon's state is folded. -/
def snapshotState (prior : SessionState) (s : SessionStateSnapshot)
    (base : SessionEventBase) (ref : SessionRef) (workspace : WorkspaceRef)
    (status : SessionStatus) (now : Timestamp) (monitorMode : Option PermissionMonitorMode)
    (autodrainEnabled : Option Bool) : SessionState :=
  foldEvent prior (.sessionUpdated base
    (snapshotFromState percent (some s) ref workspace status now monitorMode autodrainEnabled))

/-- The fields are those of the daemon.  The monitor and the autodrain flag come beside its
state; a handoff flag that is absent is off. -/
structure Projects (s : SessionStateSnapshot) (monitorMode : Option PermissionMonitorMode)
    (autodrainEnabled : Option Bool) (state : SessionState) : Prop where
  adventurousHandoff :
    state.adventurousHandoff.getD false = s.adventurousHandoffActive.getD false
  notificationAutodrain : state.notificationAutodrain = autodrainEnabled
  permissionMonitor : state.permissionMonitor = monitorMode
  facet : state.facet = some s.activeFacet
  activePlan : state.activePlan = s.activePlan
  goal : state.goal.join = s.currentGoal
  flags : state.flags = s.flags
  todos : state.todos = s.todos

/-- A field that keeps what it held when nothing comes is the one that came unless it held
something. -/
theorem or_eq_new_iff {α : Type*} (new old : Option α) :
    new.or old = new ↔ (new = none → old = none) := by
  cases new <;> simp

/-- The handoff flag is only ever sent on. -/
theorem handoff_iff (old new : Option Bool) :
    (((new.or (some false)).filter id).or old).getD false = new.getD false ↔
      new = some true ∨ old ≠ some true := by
  rcases new with - | - | - <;> rcases old with - | - | - <;> decide

/-- The fields a snapshot of the daemon's state writes. -/
theorem snapshotState_spec (prior : SessionState) (s : SessionStateSnapshot)
    (base : SessionEventBase) (ref : SessionRef) (workspace : WorkspaceRef)
    (status : SessionStatus) (now : Timestamp) (monitorMode : Option PermissionMonitorMode)
    (autodrainEnabled : Option Bool) :
    ∃ items, snapshotState percent prior s base ref workspace status now monitorMode
        autodrainEnabled =
      { applySnapshot prior (snapshotFromState percent (some s) ref workspace status now
          monitorMode autodrainEnabled) with items := items } := by
  change ∃ items, foldSnapshot prior _ base.timestamp = _
  unfold foldSnapshot
  split
  · exact ⟨_, rfl⟩
  · exact ⟨prior.items, rfl⟩

/-- **A snapshot is shown as it is exactly when it leaves nothing out that was set before.** -/
theorem projects_iff (prior : SessionState) (s : SessionStateSnapshot)
    (base : SessionEventBase) (ref : SessionRef) (workspace : WorkspaceRef)
    (status : SessionStatus) (now : Timestamp) (monitorMode : Option PermissionMonitorMode)
    (autodrainEnabled : Option Bool) :
    Projects s monitorMode autodrainEnabled
        (snapshotState percent prior s base ref workspace status now monitorMode
          autodrainEnabled) ↔
      (s.adventurousHandoffActive = some true ∨ prior.adventurousHandoff ≠ some true) ∧
        (s.activePlan = none → prior.activePlan = none) ∧
        (monitorMode = none → prior.permissionMonitor = none) ∧
        (autodrainEnabled = none → prior.notificationAutodrain = none) := by
  obtain ⟨items, hstate⟩ := snapshotState_spec percent prior s base ref workspace status now
    monitorMode autodrainEnabled
  rw [hstate, ← handoff_iff, ← or_eq_new_iff, ← or_eq_new_iff,
    ← or_eq_new_iff]
  constructor
  · intro h
    exact ⟨h.adventurousHandoff, h.activePlan, h.permissionMonitor, h.notificationAutodrain⟩
  · rintro ⟨hhandoff, hplan, hmonitor, hautodrain⟩
    have hgoal : (applySnapshot prior (snapshotFromState percent (some s) ref workspace status
        now monitorMode autodrainEnabled)).goal.join = s.currentGoal := by
      cases hcurrent : s.currentGoal <;>
        simp [applySnapshot, snapshotFromState, projectGoal, hcurrent]
    exact ⟨hhandoff, hautodrain, hmonitor, rfl, hplan, hgoal, rfl, rfl⟩

end Snapshot

/-- **A handoff that ends is shown for ever.** -/
theorem handoff_stays :
    ¬ ∀ (percent : Nat → Nat → F64) (prior : SessionState) (s : SessionStateSnapshot)
      (base : SessionEventBase) (ref : SessionRef) (workspace : WorkspaceRef)
      (status : SessionStatus) (now : Timestamp)
      (monitorMode : Option PermissionMonitorMode) (autodrainEnabled : Option Bool),
      Projects s monitorMode autodrainEnabled
        (snapshotState percent prior s base ref workspace status now monitorMode
          autodrainEnabled) := by
  intro h
  have hhandoff := (h (fun _ _ => default)
    { initialSessionState with adventurousHandoff := some true }
    { LiveSession.stateAtOpen with adventurousHandoffActive := some false }
    ⟨⟨"w", "s"⟩, "now", none⟩ ⟨"w", "s"⟩ ⟨"w", "/w", none⟩ .idle "now" (some .bypass)
    (some true)).adventurousHandoff
  cases hhandoff

end Pantoken
