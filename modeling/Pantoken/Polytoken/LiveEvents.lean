import Pantoken.Lib.Run
import Pantoken.Polytoken.EventMap
import Pantoken.Polytoken.UiBridge

/-!
# The events around a turn

Besides the blocks and tools of a turn, the daemon's stream carries renames, switches of
the model, of the permission monitor and of the autodrain flag, goals, compactions,
notices and interrogatives.  Many of them make the mapper build a snapshot of the
session, at the status the cached state of the daemon tells.

## Main definitions

* `SessionStateSnapshot`, `WarmCache` — the daemon's state and what the driver caches.
* `AmbientEvent`, `mapAmbientEvent` — the other events and their cases of the mapper.
* `LiveSession.deliver` — one event of the stream, mapped, with its effects run.
* `LiveSession.MidTurnRunning` — no snapshot inside a turn is idle or closes the bubble.

## Main results

* `mid_turn_running_iff` — **no snapshot inside a turn is idle exactly when the cached state
  each is built from says that a turn is in flight**.
* `rename_reports_idle` — a rename inside a turn reports idle from a stale cache.
-/

namespace Pantoken

/-! ### The daemon's state and the driver's cache -/

structure ContextUsageSnapshot where
  usedTokens : Nat
  limitTokens : Nat

/-- The fields of the daemon's state a snapshot is built from. -/
structure SessionStateSnapshot where
  activeFacet : String
  activeModel : Option String
  activePlan : Option String
  activeReasoningEffort : Option String
  adventurousHandoffActive : Option Bool
  contextUsage : Option ContextUsageSnapshot
  currentGoal : Option GoalInfo
  flags : List FlaggedFile
  mcpServers : Option (List McpServerInfo)
  sessionTitle : Option String
  todos : List TodoItem
  turnInFlight : Option Bool

/-- What a warm session caches of its daemon. -/
structure WarmCache where
  lastState : Option SessionStateSnapshot
  monitorMode : Option PermissionMonitorMode
  autodrainEnabled : Option Bool

section Snapshot

variable (percent : Nat → Nat → F64)

/-- `usage_from_state`, over the rounded quotient. -/
def usageFromState (state : Option SessionStateSnapshot) : Option SessionUsage :=
  (state.bind (·.contextUsage)).map fun cu =>
    { tokens := some cu.usedTokens
      contextWindow := cu.limitTokens
      percent := if 0 < cu.limitTokens then some (percent cu.usedTokens cu.limitTokens) else none }

/-- `project_goal` of a state: with no state at all the goal is left alone. -/
def projectGoal (state : Option SessionStateSnapshot) : Option (Option GoalInfo) :=
  state.map (·.currentGoal)

/-- `snapshot_from_state` -/
def snapshotFromState (state : Option SessionStateSnapshot) (ref : SessionRef)
    (workspace : WorkspaceRef) (status : SessionStatus) (now : Timestamp)
    (monitorMode : Option PermissionMonitorMode) (autodrainEnabled : Option Bool) :
    SessionSnapshot where
  ref := ref
  workspace := workspace
  title := (state.bind (·.sessionTitle)).getD ref.sessionId
  status := status
  updatedAt := now
  archivedAt := none
  preview := none
  config := (state.bind (·.activeModel)).map fun m =>
    ⟨some m, state.bind (·.activeReasoningEffort), none⟩
  usage := usageFromState percent state
  runningRunId := none
  queuedMessages := none
  facet := state.map (·.activeFacet)
  permissionMonitor := monitorMode
  adventurousHandoff := ((state.bind (·.adventurousHandoffActive)).or (some false)).filter id
  notificationAutodrain := autodrainEnabled
  activePlan := state.bind (·.activePlan)
  goal := projectGoal state
  flags := state.map (·.flags)
  todos := state.map (·.todos)
  mcpServers := state.bind (·.mcpServers)

/-- `turn_in_flight.unwrap_or(false)` of the cached state. -/
def WarmCache.turnInFlight (cache : WarmCache) : Bool :=
  (cache.lastState.bind (·.turnInFlight)).getD false

/-- `live_status` -/
def WarmCache.liveStatus (cache : WarmCache) : SessionStatus :=
  if cache.turnInFlight then .running else .idle

/-- `DriverMapCtx` -/
def WarmCache.ctx (cache : WarmCache) (ref : SessionRef) (workspace : WorkspaceRef)
    (now : Timestamp) : MapCtx where
  ref := ref
  now := now
  snapshot status := snapshotFromState percent cache.lastState ref workspace status now
    cache.monitorMode cache.autodrainEnabled
  snapshot_status _ := rfl
  liveStatus := cache.liveStatus

end Snapshot

/-! ### The other events -/

inductive HookOutcome where
  | allowed | blocked | suppressed | error
  deriving DecidableEq

/-- The reasons of a system reminder; those without a case of their own are `other`. -/
inductive SystemReminderReason where
  | planReviewRequired | planModeReinforcement | planVerification | goalReminder | other
  deriving DecidableEq

/-- `plan_review_label` -/
def SystemReminderReason.planReviewLabel : SystemReminderReason → Option String
  | .planReviewRequired => some "Plan review required"
  | .planModeReinforcement => some "Plan mode reminder"
  | .planVerification => some "Plan verification"
  | .goalReminder | .other => none

inductive SubagentResultKind where
  | success | failure | cancelled

inductive NotificationType where
  | jobComplete (exitCode : Option Int)
  | subagentComplete (handle : String) (outcome : SubagentResultKind)
  | other

structure Notification where
  id : String
  notificationType : NotificationType
  summary : String

/-- `notification_message`: a completion is not shown with its whole report. -/
def notificationMessage (n : Notification) : String :=
  match n.notificationType with
  | .jobComplete (some code) => s!"Job completed (exit {code})"
  | .jobComplete none => "Job completed"
  | .subagentComplete handle .success => s!"Subagent {handle} Success"
  | .subagentComplete handle .failure => s!"Subagent {handle} Failure"
  | .subagentComplete handle .cancelled => s!"Subagent {handle} Cancelled"
  | .other => n.summary

/-- `format_missing_references_message` -/
def formatMissingReferencesMessage (refs : List ResolvedRef) : String :=
  "Queued message dropped — missing references: " ++
    ", ".intercalate (refs.map fun r => r.kind ++ " \"" ++ r.name ++ "\"")

/-- `drained_queue_message` -/
def drainedQueueMessage (text : String) (itemId : Option String) (ts : Timestamp)
    (resolvedReferences : Option (List ResolvedRef)) : SessionQueuedMessage :=
  ⟨itemId.getD ("drain-" ++ ts), .steer, text, ts, ts, resolvedReferences⟩

/-- The events of the stream beside those of a turn's boundaries, blocks and tools.  The
`ignored` ones map to nothing: heartbeats, jobs, drained notifications, loaded context,
revealed tools, classifier decisions, extensions, images and throttled usage. -/
inductive AmbientEvent where
  | pendingTurnInputQueued
  | pendingTurnInputDequeued
  | pendingTurnInputDiscarded (missingReferences : Option (List ResolvedRef))
  | pendingTurnInputDrained (content : String) (itemIds : List String)
      (resolvedReferences : Option (List ResolvedRef))
  | retryWait (attempt maxRetries : Int) (errorSummary : String)
  | streamDiscontinuity
  | sessionTitleChanged (title : String)
  | sessionStateChanged
  | modelSwitch (toModel : String) (toReasoningEffort : Option String)
  | agentBlockViolation (toolName : String)
  | toolExposureChanged (eagerFallbackActivated : Bool)
  | sessionRewound
  | contextCleared
  | facetSwitch
  | compactionStarted
  | compactionComplete
  | compactionCancelled
  | compactionFailed
  | subagentCompactionNotice (summary : String)
  | notificationQueued (notification : Notification)
  | systemReminder (reason : SystemReminderReason) (slug body : String)
  | interrogative (i : Interrogation)
  | permissionMonitorSwitch (toMode : PermissionMonitorMode)
  | goalDriverUpdate (goal : Option GoalInfo) (transition : String)
  | notificationAutodrainSwitch (enabled : Bool)
  | hookFired (eventType : String) (outcome : HookOutcome)
  | subagentStarted
  | subagentCompleted
  | mcpServerConnected (serverName : String)
  | mcpServerDisconnected (serverName reason : String)
  | mcpServerReconnecting (serverName : String) (attempt : Int)
  | mcpServerDisabled (serverName reason : String)
  | ignored

/-- An event of the stream.  The handle of a nested turn is the one of its event; the
autodrain switch and the events of subagents and servers carry none. -/
inductive LiveEvent where
  | turn (ev : DaemonEvent)
  | ambient (ev : AmbientEvent) (subagentHandle : Option String)

/-- The handle, of the events that have one. -/
def LiveEvent.subagentHandle : LiveEvent → Option String
  | .turn ev => ev.subagentHandle
  | .ambient ev handle =>
    match ev with
    | .notificationAutodrainSwitch _ | .subagentStarted | .subagentCompleted
    | .mcpServerConnected _ | .mcpServerDisconnected _ _ | .mcpServerReconnecting _ _
    | .mcpServerDisabled _ _ => none
    | _ => handle

/-- `DaemonEffect`, with the effects the other events ask for. -/
inductive LiveEffect where
  | daemon (effect : DaemonEffect)
  | reseed
  | refetchQueue
  | setMonitorMode (mode : PermissionMonitorMode)
  | setAutodrainEnabled (enabled : Bool)
  | registerInterrogative (pending : PendingInterrogative)

/-- The effect of the events that read the state again. -/
def fetchSessionUpdated : LiveEffect := .daemon (.fetchState .sessionUpdated none)

/-! ### The mapper of the other events -/

/-- `notify` -/
def notify (base : SessionEventBase) (requestId message : String) (level : NotifyLevel) :
    SessionDriverEvent := .hostUiRequest base (.notify requestId message (some level))

/-- What the mapper returns: events to emit, then effects to run. -/
structure LiveResult where
  events : List SessionDriverEvent
  effects : List LiveEffect

/-- One notice, whose id ends in the time. -/
def notice (ctx : MapCtx) (kind message : String) (level : NotifyLevel)
    (effects : List LiveEffect) : LiveResult :=
  ⟨[notify ctx.eventBase (kind ++ "-" ++ ctx.now) message level], effects⟩

/-- A snapshot at the live status, with what the event carries written into it. -/
def liveSnapshot (ctx : MapCtx) (f : SessionSnapshot → SessionSnapshot)
    (effects : List LiveEffect) : LiveResult :=
  ⟨[.sessionUpdated ctx.eventBase (f (ctx.snapshot ctx.liveStatus))], effects⟩

/-- The drained item starts, and the queue is empty unless more items were drained. -/
def mapDrained (ctx : MapCtx) (content : String) (itemIds : List String)
    (resolvedReferences : Option (List ResolvedRef)) : LiveResult :=
  let message := drainedQueueMessage content itemIds.head? ctx.now resolvedReferences
  let started : SessionDriverEvent := .queuedMessageStarted ctx.eventBase message
  if itemIds.length ≤ 1 then ⟨[started, .queueUpdated ctx.eventBase []], []⟩
  else ⟨[started], [.refetchQueue]⟩

/-- A stop hook that continues the turn ends the run and marks a new outer turn. -/
def mapStopHook (ctx : MapCtx) : LiveResult :=
  ⟨[.runCompleted ctx.eventBase (ctx.snapshot .idle) none none,
    .customMessage ctx.eventBase ("stop-hook-redirect-" ++ ctx.now) "stop_hook_redirect"
      "Stop hook redirected — continuing." false true], []⟩

/-- `map_daemon_event`, the cases of the other events. -/
def mapAmbientEvent (preview : Json → String) (ctx : MapCtx) : AmbientEvent → LiveResult
  | .pendingTurnInputQueued | .pendingTurnInputDequeued => ⟨[], [.refetchQueue]⟩
  | .pendingTurnInputDiscarded missingReferences =>
    match missingReferences with
    | none | some [] => ⟨[], [.refetchQueue]⟩
    | some refs =>
      notice ctx "discard-missing-refs" (formatMissingReferencesMessage refs) .warning
        [.refetchQueue]
  | .pendingTurnInputDrained content itemIds resolvedReferences =>
    mapDrained ctx content itemIds resolvedReferences
  | .retryWait attempt maxRetries errorSummary =>
    notice ctx "retry" s!"Retrying (attempt {attempt}/{maxRetries}): {errorSummary}" .warning []
  | .streamDiscontinuity | .sessionRewound | .contextCleared => ⟨[], [.reseed]⟩
  | .sessionTitleChanged title => liveSnapshot ctx ({ · with title }) []
  | .sessionStateChanged | .facetSwitch | .subagentStarted | .subagentCompleted =>
    ⟨[], [fetchSessionUpdated]⟩
  | .modelSwitch toModel toReasoningEffort =>
    liveSnapshot ctx ({ · with config := some ⟨some toModel, toReasoningEffort, none⟩ }) []
  | .agentBlockViolation toolName =>
    notice ctx "block-violation"
      s!"Blocked: the agent tried to use {toolName}, which is blocked by a constraint" .warning []
  | .toolExposureChanged eagerFallbackActivated =>
    if eagerFallbackActivated then
      notice ctx "fallback"
        "Auto-switched to a fallback model — the primary may be down or rate-limited" .warning []
    else ⟨[], []⟩
  | .compactionStarted => notice ctx "compact" "Compacting context…" .info []
  | .compactionComplete =>
    notice ctx "compact-done" "Context compacted" .info [fetchSessionUpdated]
  | .compactionCancelled => notice ctx "compact-cancelled" "Compaction cancelled" .warning []
  | .compactionFailed => notice ctx "compact-failed" "Compaction failed" .error []
  | .subagentCompactionNotice summary => notice ctx "subagent-compact" summary .info []
  | .notificationQueued n =>
    ⟨[notify ctx.eventBase ("notif-" ++ n.id) (notificationMessage n) .info], []⟩
  | .systemReminder reason slug body =>
    ⟨[.customMessage ctx.eventBase ("reminder-" ++ slug ++ "-" ++ ctx.now)
      (reason.planReviewLabel.getD slug) body reason.planReviewLabel.isSome
      (reason = .goalReminder)], []⟩
  | .interrogative i =>
    ⟨[.hostUiRequest ctx.eventBase (i.card preview)], [.registerInterrogative i.pending]⟩
  | .permissionMonitorSwitch toMode =>
    liveSnapshot ctx ({ · with permissionMonitor := some toMode }) [.setMonitorMode toMode]
  | .goalDriverUpdate goal transition =>
    match goal with
    | some g => liveSnapshot ctx ({ · with goal := some (some g) }) [fetchSessionUpdated]
    | none =>
      if transition = "cleared" then
        liveSnapshot ctx ({ · with goal := some none }) [fetchSessionUpdated]
      else ⟨[], [fetchSessionUpdated]⟩
  | .notificationAutodrainSwitch enabled =>
    liveSnapshot ctx ({ · with notificationAutodrain := some enabled })
      [.setAutodrainEnabled enabled]
  | .hookFired eventType outcome =>
    if eventType = "stop" ∧ outcome = .blocked then mapStopHook ctx else ⟨[], []⟩
  | .mcpServerConnected serverName =>
    notice ctx "mcp-conn" s!"MCP server {serverName} connected" .info []
  | .mcpServerDisconnected serverName reason =>
    notice ctx "mcp-disc" s!"MCP server {serverName} disconnected ({reason})" .warning []
  | .mcpServerReconnecting serverName attempt =>
    notice ctx "mcp-reconn" s!"MCP server {serverName} reconnecting (attempt {attempt})…" .info []
  | .mcpServerDisabled serverName reason =>
    notice ctx "mcp-disabled" s!"MCP server {serverName} disabled ({reason})" .warning []
  | .ignored => ⟨[], []⟩

/-- `map_daemon_event`: the frames of nested turns are skipped. -/
def mapLiveEvent (fromStr : String → Option Json) (preview : Json → String) (ev : LiveEvent)
    (acc : FoldAccumulator) (ctx : MapCtx) : LiveResult × FoldAccumulator :=
  match ev with
  | .turn ev =>
    let (result, acc) := mapDaemonEvent fromStr ev acc ctx
    (⟨result.events, result.effects.map .daemon⟩, acc)
  | .ambient ev handle =>
    if (LiveEvent.ambient ev handle).subagentHandle.isSome then (⟨[], []⟩, acc)
    else (mapAmbientEvent preview ctx ev, acc)

/-! ### A warm session -/

/-- What the daemon answers while the effects of an event run. -/
structure Fetched where
  /-- of `GET /state` -/
  state : Option SessionStateSnapshot := none
  /-- of `GET /history`, as seed events -/
  history : Option (List SessionDriverEvent) := none
  /-- of `GET /turn/input` -/
  queue : Option (List SessionQueuedMessage) := none

/-- A warm session: its cache, the mapper's memory, what it emitted, and for the record
whether a turn is under way and what the mapper built inside turns. -/
structure LiveSession where
  ref : SessionRef
  workspace : WorkspaceRef
  cache : WarmCache := ⟨none, none, none⟩
  acc : FoldAccumulator := createAccumulator
  emitted : List SessionDriverEvent := []
  inTurn : Bool := false
  midTurn : List SessionDriverEvent := []

/-- The event starts a turn of the session itself. -/
def LiveEvent.startsTurn (ev : LiveEvent) : Bool :=
  match ev with
  | .turn (.messageStart _ none) => true
  | _ => false

/-- The event ends the turn: it completes, it is cancelled, or a stop hook ends the run. -/
def LiveEvent.endsTurn (ev : LiveEvent) : Bool :=
  match ev with
  | .turn (.messageComplete _ none) | .turn (.turnCancelled _ none) => true
  | .ambient (.hookFired eventType outcome) none => eventType = "stop" ∧ outcome = .blocked
  | _ => false

/-- The events a snapshot is built for at once, from the cache. -/
def LiveEvent.buildsSnapshot : LiveEvent → Bool
  | .ambient (.sessionTitleChanged _) _ | .ambient (.modelSwitch _ _) _
  | .ambient (.permissionMonitorSwitch _) _ | .ambient (.notificationAutodrainSwitch _) _ => true
  | .ambient (.goalDriverUpdate goal transition) _ => goal.isSome ∨ transition = "cleared"
  | _ => false

/-- The events a snapshot is built for once the state was read again. -/
def LiveEvent.fetchesState : LiveEvent → Bool
  | .ambient .sessionStateChanged _ | .ambient .facetSwitch _ | .ambient .subagentStarted _
  | .ambient .subagentCompleted _ | .ambient .compactionComplete _
  | .ambient (.goalDriverUpdate _ _) _ => true
  | _ => false

/-- A state the daemon answered with is cached. -/
def WarmCache.refresh (cache : WarmCache) (state : Option SessionStateSnapshot) : WarmCache :=
  { cache with lastState := state.or cache.lastState }

namespace LiveSession

variable (percent : Nat → Nat → F64) (fromStr : String → Option Json) (preview : Json → String)

def ctx (s : LiveSession) (now : Timestamp) : MapCtx := s.cache.ctx percent s.ref s.workspace now

/-- `build_reseed_events` -/
def buildReseedEvents (base : SessionEventBase) (snapshot : SessionSnapshot)
    (history : List SessionDriverEvent) : List SessionDriverEvent :=
  .sessionReset base :: history ++ [.sessionUpdated base snapshot]

/-- `execute_effect`: the session after it, and what it emitted. -/
def executeEffect (s : LiveSession) (now : Timestamp) (fetched : Fetched) :
    LiveEffect → LiveSession × List SessionDriverEvent
  | .daemon (.fetchState emit promptId) =>
    let s := { s with cache := s.cache.refresh fetched.state }
    (s, [buildPostFetchEvent emit (s.ctx percent now) promptId])
  | .reseed =>
    let s := { s with
      acc := createAccumulator
      cache := s.cache.refresh fetched.state }
    let ctx := s.ctx percent now
    (s, match fetched.history with
      | none => []
      | some history =>
        buildReseedEvents ctx.eventBase (ctx.snapshot ctx.liveStatus) history)
  | .refetchQueue =>
    (s, (fetched.queue.map (.queueUpdated (s.ctx percent now).eventBase)).toList)
  | .setMonitorMode mode => ({ s with cache := { s.cache with monitorMode := some mode } }, [])
  | .setAutodrainEnabled enabled =>
    ({ s with cache := { s.cache with autodrainEnabled := some enabled } }, [])
  | .registerInterrogative _ => (s, [])

/-- The cached title follows a rename, whatever refreshes the rest. -/
def patchTitle (s : LiveSession) : LiveEvent → LiveSession
  | .ambient (.sessionTitleChanged title) _ =>
    { s with cache := { s.cache with
      lastState := s.cache.lastState.map ({ · with sessionTitle := some title }) } }
  | _ => s

/-- The effects run one after another; what each emitted is kept with it. -/
def runEffects (s : LiveSession) (now : Timestamp) (fetched : Fetched)
    (effects : List LiveEffect) : LiveSession × List (LiveEffect × List SessionDriverEvent) :=
  effects.foldl
    (fun r effect =>
      let (s, evs) := executeEffect percent r.1 now fetched effect
      (s, r.2 ++ [(effect, evs)]))
    (s, [])

/-- The follow-up events are the mapper's too; those of a reseed come from the history. -/
def followUps (outs : List (LiveEffect × List SessionDriverEvent)) : List SessionDriverEvent :=
  outs.flatMap fun out =>
    match out.1 with
    | .reseed => []
    | _ => out.2

/-- What the mapper builds for an event, the follow-ups of its fetches included. -/
def builtEvents (s : LiveSession) (ev : LiveEvent) (now : Timestamp) (fetched : Fetched) :
    List SessionDriverEvent :=
  let s := s.patchTitle ev
  let (result, acc) := mapLiveEvent fromStr preview ev s.acc (s.ctx percent now)
  result.events ++ followUps (runEffects percent { s with acc } now fetched result.effects).2

/-- `handle_sse_event` -/
def deliver (s : LiveSession) (ev : LiveEvent) (now : Timestamp) (fetched : Fetched) :
    LiveSession :=
  let mid := s.inTurn && !ev.endsTurn
  let built := s.builtEvents percent fromStr preview ev now fetched
  let s := s.patchTitle ev
  let (result, acc) := mapLiveEvent fromStr preview ev s.acc (s.ctx percent now)
  let (s, outs) := runEffects percent { s with acc } now fetched result.effects
  { s with
    emitted := s.emitted ++ result.events ++ outs.flatMap (·.2)
    inTurn := ev.startsTurn || mid
    midTurn := s.midTurn ++ if mid then built else [] }

/-- An event comes in, or another part of the driver caches a state. -/
inductive Action where
  | deliver (ev : LiveEvent) (now : Timestamp) (fetched : Fetched)
  | refreshed (state : SessionStateSnapshot)

def step (s : LiveSession) : Action → LiveSession
  | .deliver ev now fetched => s.deliver percent fromStr preview ev now fetched
  | .refreshed state => { s with cache := s.cache.refresh (some state) }

/-! ### Inside a turn -/

/-- A snapshot that is not idle, and that leaves the transcript, its streaming bubble
included, as it is. -/
def LiveUpdate : SessionDriverEvent → Prop
  | .sessionUpdated base snapshot =>
    snapshot.status ≠ .idle ∧
      ∀ state, (foldEvent state (.sessionUpdated base snapshot)).items = state.items
  | _ => True

/-- No snapshot the mapper built inside a turn is idle or closes the bubble. -/
def MidTurnRunning (s : LiveSession) : Prop := ∀ e ∈ s.midTurn, LiveUpdate e

/-- The state a snapshot is built from says that a turn is in flight: the cached one, or for
an event that reads it again the one that came back. -/
def InFlight (s : LiveSession) : Action → Prop
  | .deliver ev _ fetched =>
    s.inTurn = true → ev.endsTurn = false → ev.subagentHandle = none →
      (ev.buildsSnapshot = true → s.cache.turnInFlight = true) ∧
      (ev.fetchesState = true →
        (s.cache.refresh fetched.state).turnInFlight = true)
  | .refreshed _ => True

section MidTurn

variable {percent fromStr preview} {s : LiveSession}

theorem liveUpdate_iff {base : SessionEventBase} {snapshot : SessionSnapshot}
    (hstatus : snapshot.status = .idle ∨ snapshot.status = .running) :
    LiveUpdate (.sessionUpdated base snapshot) ↔ snapshot.status = .running := by
  rcases hstatus with hidle | hrun
  · simp [LiveUpdate, hidle]
  · simp only [LiveUpdate, hrun, ne_eq, reduceCtorEq, not_false_eq_true, true_and, iff_true]
    intro state
    simp [foldEvent, foldSnapshot, hrun, applySnapshot]

theorem liveStatus_cases (cache : WarmCache) :
    cache.liveStatus = .idle ∨ cache.liveStatus = .running := by
  unfold WarmCache.liveStatus
  split
  · exact Or.inr rfl
  · exact Or.inl rfl

theorem liveStatus_eq_running (cache : WarmCache) :
    cache.liveStatus = .running ↔ cache.turnInFlight = true := by
  unfold WarmCache.liveStatus
  split
  · rename_i h
    simp [h]
  · rename_i h
    simp [h]

/-- A snapshot at the live status is fine exactly when the cache says a turn is in flight. -/
theorem liveUpdate_liveSnapshot {base : SessionEventBase} {snapshot : SessionSnapshot}
    {cache : WarmCache} (hstatus : snapshot.status = cache.liveStatus) :
    LiveUpdate (.sessionUpdated base snapshot) ↔ cache.turnInFlight = true := by
  have hcases : snapshot.status = .idle ∨ snapshot.status = .running := by
    rw [hstatus]
    exact liveStatus_cases cache
  rw [liveUpdate_iff hcases, hstatus, liveStatus_eq_running]

@[simp] theorem patchTitle_turnInFlight (ev : LiveEvent) :
    (s.patchTitle ev).cache.turnInFlight = s.cache.turnInFlight := by
  unfold patchTitle
  split
  · unfold WarmCache.turnInFlight
    cases s.cache.lastState with
    | none => rfl
    | some state => rfl
  · rfl

/-- A delta emits text of the bubble only. -/
theorem liveUpdate_mapBlockDelta (base : SessionEventBase) (delta : BlockDeltaPayload)
    (acc : FoldAccumulator) :
    (∀ e ∈ (mapBlockDelta base delta acc).1.events, LiveUpdate e) ∧
      (mapBlockDelta base delta acc).1.effects = [] := by
  have hemit : ∀ (c : Prop) [Decidable c] (e : SessionDriverEvent), LiveUpdate e →
      (∀ e' ∈ (if c then ((⟨[e], []⟩ : FoldResult), acc) else (FoldResult.default, acc)).1.events,
        LiveUpdate e') ∧
      (if c then ((⟨[e], []⟩ : FoldResult), acc) else (FoldResult.default, acc)).1.effects =
        [] := by
    intro c _ e he
    split
    · simpa using he
    · simp [FoldResult.default]
  cases delta with
  | text text => exact hemit _ _ trivial
  | thinking text => exact hemit _ _ trivial
  | redactedThinking data => exact hemit _ _ trivial
  | openAiReasoningOpaque data id => exact hemit _ _ trivial
  | toolUseInput partialJson =>
    unfold mapBlockDelta
    dsimp only
    split <;> simp [FoldResult.default]
  | signatureDelta signature => simp [mapBlockDelta, FoldResult.default]
  | openAiReasoningSummary text => simp [mapBlockDelta, FoldResult.default]

/-- The events of a turn that do not end it. -/
theorem built_turn (ev : DaemonEvent) (hend : (LiveEvent.turn ev).endsTurn = false)
    (now : Timestamp) (fetched : Fetched) :
    ∀ e ∈ s.builtEvents percent fromStr preview (.turn ev) now fetched, LiveUpdate e := by
  have hpatch : s.patchTitle (.turn ev) = s := rfl
  -- one of these events asks for no effect unless it ends the turn
  have hmapped : ∀ acc (ctx : MapCtx), (∀ e ∈ (mapDaemonEvent fromStr ev acc ctx).1.events,
      LiveUpdate e) ∧ (mapDaemonEvent fromStr ev acc ctx).1.effects = [] := by
    intro acc ctx
    by_cases hsub : ev.subagentHandle.isSome = true
    · simp [mapDaemonEvent, hsub, FoldResult.default]
    · have hnone : ev.subagentHandle = none := by simpa using hsub
      unfold mapDaemonEvent
      rw [if_neg hsub]
      cases ev with
      | messageStart promptId handle =>
        have hrun : LiveUpdate (.sessionUpdated ctx.eventBase (ctx.snapshot .running)) := by
          have hstatus := ctx.snapshot_status .running
          exact (liveUpdate_iff (Or.inr hstatus)).mpr hstatus
        simpa using hrun
      | messageComplete promptId handle =>
        obtain rfl : handle = none := hnone
        cases hend
      | turnCancelled promptId handle =>
        obtain rfl : handle = none := hnone
        cases hend
      | modelError error promptId handle => simp [LiveUpdate]
      | contentBlockStart i blockType promptId handle => simp [FoldResult.default]
      | contentBlockDelta i delta promptId handle => exact liveUpdate_mapBlockDelta _ _ _
      | contentBlockStop i promptId handle => simp [FoldResult.default]
      | toolCall callId input name promptId handle => simp [LiveUpdate]
      | toolResult callId content contentFull isError promptId handle => simp [LiveUpdate]
  intro e he
  obtain ⟨hevents, heffects⟩ := hmapped s.acc (s.ctx percent now)
  dsimp only [builtEvents, mapLiveEvent] at he
  rw [hpatch, heffects] at he
  apply hevents
  simpa [runEffects, followUps] using he

/-! ### The other events inside a turn -/

/-- An effect whose follow-up, if any, is no snapshot of the mapper's. -/
def LiveEffect.quiet : LiveEffect → Bool
  | .daemon _ => false
  | _ => true

/-- What the mapper builds, given the result of the mapping. -/
def Fine (percent : Nat → Nat → F64) (s : LiveSession) (now : Timestamp) (fetched : Fetched)
    (r : LiveResult) : Prop :=
  ∀ e ∈ r.events ++ followUps (runEffects percent s now fetched r.effects).2, LiveUpdate e

theorem followUps_quiet {eff : LiveEffect} (h : LiveEffect.quiet eff = true) (s : LiveSession)
    (now : Timestamp) (fetched : Fetched) :
    ∀ e ∈ followUps (runEffects percent s now fetched [eff]).2, LiveUpdate e := by
  cases eff with
  | daemon effect => cases h
  | reseed => simp [runEffects, followUps]
  | refetchQueue =>
    simp only [runEffects, followUps, executeEffect, List.foldl_cons, List.foldl_nil,
      List.nil_append, List.flatMap_cons, List.flatMap_nil, List.append_nil, Option.mem_toList,
      Option.map_eq_some_iff]
    rintro e ⟨messages, -, rfl⟩
    trivial
  | setMonitorMode mode => simp [runEffects, followUps, executeEffect]
  | setAutodrainEnabled enabled => simp [runEffects, followUps, executeEffect]
  | registerInterrogative pending => simp [runEffects, followUps, executeEffect]

/-- A result without a snapshot is fine whatever the cache says. -/
theorem fine_quiet {r : LiveResult} (hevents : ∀ e ∈ r.events, LiveUpdate e)
    (heffects : r.effects = [] ∨ ∃ eff, r.effects = [eff] ∧ LiveEffect.quiet eff = true)
    (now : Timestamp) (fetched : Fetched) : Fine percent s now fetched r := by
  intro e he
  rcases List.mem_append.mp he with he | he
  · exact hevents e he
  · rcases heffects with hnil | ⟨eff, heff, hquiet⟩
    · rw [hnil] at he
      simp [runEffects, followUps] at he
    · rw [heff] at he
      exact followUps_quiet hquiet s now fetched e he

/-- The one snapshot of a fetch. -/
theorem fine_fetch {events : List SessionDriverEvent} (hevents : ∀ e ∈ events, LiveUpdate e)
    (now : Timestamp) (fetched : Fetched) :
    Fine percent s now fetched ⟨events, [fetchSessionUpdated]⟩ ↔
      (s.cache.refresh fetched.state).turnInFlight = true := by
  have hout : followUps (runEffects percent s now fetched [fetchSessionUpdated]).2 =
      [.sessionUpdated ⟨s.ref, now, none⟩
        (snapshotFromState percent (fetched.state.or s.cache.lastState) s.ref s.workspace
          (s.cache.refresh fetched.state).liveStatus now s.cache.monitorMode
          s.cache.autodrainEnabled)] := rfl
  unfold Fine
  dsimp only
  rw [hout, List.forall_mem_append, List.forall_mem_singleton, liveUpdate_liveSnapshot rfl]
  exact and_iff_right hevents

/-- A snapshot built at once, before an effect. -/
theorem fine_liveSnapshot {f : SessionSnapshot → SessionSnapshot}
    (hf : ∀ snapshot, (f snapshot).status = snapshot.status) (effects : List LiveEffect)
    (now : Timestamp) (fetched : Fetched) :
    Fine percent s now fetched (liveSnapshot (s.ctx percent now) f effects) ↔
      s.cache.turnInFlight = true ∧ Fine percent s now fetched ⟨[], effects⟩ := by
  unfold Fine liveSnapshot
  dsimp only
  rw [List.forall_mem_append, List.forall_mem_singleton, List.nil_append]
  refine and_congr ?_ Iff.rfl
  exact liveUpdate_liveSnapshot (hf _)

/-- The events without a snapshot. -/
theorem fine_of_quiet_event (ev : AmbientEvent)
    (hend : (LiveEvent.ambient ev none).endsTurn = false)
    (hbuilds : (LiveEvent.ambient ev none).buildsSnapshot = false)
    (hfetches : (LiveEvent.ambient ev none).fetchesState = false) (now : Timestamp)
    (fetched : Fetched) :
    Fine percent s now fetched (mapAmbientEvent preview (s.ctx percent now) ev) := by
  have hqueue : ∃ eff, [LiveEffect.refetchQueue] = [eff] ∧ LiveEffect.quiet eff = true :=
    ⟨_, rfl, rfl⟩
  have hreseed : ∃ eff, [LiveEffect.reseed] = [eff] ∧ LiveEffect.quiet eff = true :=
    ⟨_, rfl, rfl⟩
  cases ev with
  | sessionTitleChanged title => cases hbuilds
  | modelSwitch toModel effort => cases hbuilds
  | permissionMonitorSwitch toMode => cases hbuilds
  | notificationAutodrainSwitch enabled => cases hbuilds
  | sessionStateChanged => cases hfetches
  | facetSwitch => cases hfetches
  | subagentStarted => cases hfetches
  | subagentCompleted => cases hfetches
  | compactionComplete => cases hfetches
  | goalDriverUpdate goal transition => cases hfetches
  | pendingTurnInputQueued => exact fine_quiet (by simp [mapAmbientEvent]) (Or.inr hqueue) _ _
  | pendingTurnInputDequeued => exact fine_quiet (by simp [mapAmbientEvent]) (Or.inr hqueue) _ _
  | pendingTurnInputDiscarded missingReferences =>
    rcases missingReferences with _ | _ | ⟨ref, refs⟩
    · exact fine_quiet (by simp [mapAmbientEvent]) (Or.inr hqueue) _ _
    · exact fine_quiet (by simp [mapAmbientEvent]) (Or.inr hqueue) _ _
    · exact fine_quiet (by simp [mapAmbientEvent, notice, notify, LiveUpdate]) (Or.inr hqueue) _ _
  | pendingTurnInputDrained content itemIds refs =>
    simp only [mapAmbientEvent, mapDrained]
    split
    · exact fine_quiet (by simp [LiveUpdate]) (Or.inl rfl) _ _
    · exact fine_quiet (by simp [LiveUpdate]) (Or.inr hqueue) _ _
  | streamDiscontinuity => exact fine_quiet (by simp [mapAmbientEvent]) (Or.inr hreseed) _ _
  | sessionRewound => exact fine_quiet (by simp [mapAmbientEvent]) (Or.inr hreseed) _ _
  | contextCleared => exact fine_quiet (by simp [mapAmbientEvent]) (Or.inr hreseed) _ _
  | toolExposureChanged fallback =>
    simp only [mapAmbientEvent]
    split
    · exact fine_quiet (by simp [notice, notify, LiveUpdate]) (Or.inl rfl) _ _
    · exact fine_quiet (by simp) (Or.inl rfl) _ _
  | interrogative i =>
    exact fine_quiet (by simp [mapAmbientEvent, LiveUpdate]) (Or.inr ⟨_, rfl, rfl⟩) _ _
  | hookFired eventType outcome =>
    -- a stop hook that blocks ends the turn
    have hstop : ¬ (eventType = "stop" ∧ outcome = .blocked) := by
      simpa [LiveEvent.endsTurn] using hend
    simp only [mapAmbientEvent]
    rw [if_neg hstop]
    exact fine_quiet (by simp) (Or.inl rfl) _ _
  | ignored => exact fine_quiet (by simp [mapAmbientEvent]) (Or.inl rfl) _ _
  | _ =>
    exact fine_quiet (by simp [mapAmbientEvent, notice, notify, LiveUpdate]) (Or.inl rfl) _ _

/-- No follow-up at all. -/
theorem fine_nil (now : Timestamp) (fetched : Fetched) : Fine percent s now fetched ⟨[], []⟩ :=
  fine_quiet (by simp) (Or.inl rfl) now fetched

/-- The other events inside a turn are fine exactly when the states they build from say that
a turn is in flight. -/
theorem fine_ambient_iff (ev : AmbientEvent)
    (hend : (LiveEvent.ambient ev none).endsTurn = false) (now : Timestamp) (fetched : Fetched) :
    Fine percent s now fetched (mapAmbientEvent preview (s.ctx percent now) ev) ↔
      ((LiveEvent.ambient ev none).buildsSnapshot = true → s.cache.turnInFlight = true) ∧
      ((LiveEvent.ambient ev none).fetchesState = true →
        (s.cache.refresh fetched.state).turnInFlight = true) := by
  cases hbuilds : (LiveEvent.ambient ev none).buildsSnapshot with
  | false =>
    cases hfetches : (LiveEvent.ambient ev none).fetchesState with
    | false =>
      have hfine : Fine percent s now fetched (mapAmbientEvent preview (s.ctx percent now) ev) :=
        fine_of_quiet_event ev hend hbuilds hfetches now fetched
      simpa using hfine
    | true =>
      have hfetch : ∃ events : List SessionDriverEvent, (∀ e ∈ events, LiveUpdate e) ∧
          mapAmbientEvent preview (s.ctx percent now) ev = ⟨events, [fetchSessionUpdated]⟩ := by
        cases ev with
        | sessionStateChanged | facetSwitch | subagentStarted | subagentCompleted =>
          exact ⟨[], by simp, rfl⟩
        | compactionComplete => exact ⟨_, by simp [notify, LiveUpdate], rfl⟩
        | goalDriverUpdate goal transition =>
          cases goal with
          | some g => simp [LiveEvent.buildsSnapshot] at hbuilds
          | none =>
            have hcleared : transition ≠ "cleared" := by
              simpa [LiveEvent.buildsSnapshot] using hbuilds
            exact ⟨[], by simp, by simp [mapAmbientEvent, hcleared]⟩
        | _ => cases hfetches
      obtain ⟨events, hevents, hmap⟩ := hfetch
      rw [hmap, fine_fetch hevents]
      simp
  | true =>
    have hlive : ∃ (f : SessionSnapshot → SessionSnapshot) (effects : List LiveEffect),
        (∀ snapshot, (f snapshot).status = snapshot.status) ∧
        mapAmbientEvent preview (s.ctx percent now) ev =
          liveSnapshot (s.ctx percent now) f effects ∧
        (Fine percent s now fetched ⟨[], effects⟩ ↔
          ((LiveEvent.ambient ev none).fetchesState = true →
            (s.cache.refresh fetched.state).turnInFlight = true)) := by
      have hfetch : Fine percent s now fetched ⟨[], [fetchSessionUpdated]⟩ ↔
          (s.cache.refresh fetched.state).turnInFlight = true :=
        fine_fetch (by simp) now fetched
      cases ev with
      | sessionTitleChanged title =>
        exact ⟨({ · with title }), [], fun _ => rfl, rfl,
          by simp [LiveEvent.fetchesState, fine_nil]⟩
      | modelSwitch toModel effort =>
        exact ⟨({ · with config := some ⟨some toModel, effort, none⟩ }), [], fun _ => rfl, rfl,
          by simp [LiveEvent.fetchesState, fine_nil]⟩
      | permissionMonitorSwitch toMode =>
        have hfine : Fine percent s now fetched ⟨[], [.setMonitorMode toMode]⟩ :=
          fine_quiet (by simp) (Or.inr ⟨_, rfl, rfl⟩) now fetched
        exact ⟨({ · with permissionMonitor := some toMode }), [.setMonitorMode toMode],
          fun _ => rfl, rfl, by simp [LiveEvent.fetchesState, hfine]⟩
      | notificationAutodrainSwitch enabled =>
        have hfine : Fine percent s now fetched ⟨[], [.setAutodrainEnabled enabled]⟩ :=
          fine_quiet (by simp) (Or.inr ⟨_, rfl, rfl⟩) now fetched
        exact ⟨({ · with notificationAutodrain := some enabled }),
          [.setAutodrainEnabled enabled], fun _ => rfl, rfl,
          by simp [LiveEvent.fetchesState, hfine]⟩
      | goalDriverUpdate goal transition =>
        cases goal with
        | some g =>
          exact ⟨({ · with goal := some (some g) }), [fetchSessionUpdated], fun _ => rfl, rfl,
            by simp [LiveEvent.fetchesState, hfetch]⟩
        | none =>
          have hcleared : transition = "cleared" := by
            simpa [LiveEvent.buildsSnapshot] using hbuilds
          subst hcleared
          exact ⟨({ · with goal := some none }), [fetchSessionUpdated], fun _ => rfl, rfl,
            by simp [LiveEvent.fetchesState, hfetch]⟩
      | _ => cases hbuilds
    obtain ⟨f, effects, hf, hmap, hrest⟩ := hlive
    rw [hmap, fine_liveSnapshot hf, hrest]
    simp

/-! ### One event, and every run -/

theorem buildsSnapshot_handle (ev : AmbientEvent) (handle : Option String) :
    (LiveEvent.ambient ev handle).buildsSnapshot = (LiveEvent.ambient ev none).buildsSnapshot := by
  cases ev <;> rfl

theorem fetchesState_handle (ev : AmbientEvent) (handle : Option String) :
    (LiveEvent.ambient ev handle).fetchesState = (LiveEvent.ambient ev none).fetchesState := by
  cases ev <;> rfl

/-- A hook that carries a handle stops a nested turn only. -/
theorem endsTurn_handle {ev : AmbientEvent} {handle : Option String}
    (hown : (LiveEvent.ambient ev handle).subagentHandle = none) :
    (LiveEvent.ambient ev handle).endsTurn = (LiveEvent.ambient ev none).endsTurn := by
  cases ev with
  | hookFired eventType outcome =>
    obtain rfl : handle = none := hown
    rfl
  | _ => rfl

theorem patchTitle_refresh (ev : LiveEvent) (state : Option SessionStateSnapshot) :
    ((s.patchTitle ev).cache.refresh state).turnInFlight =
      (s.cache.refresh state).turnInFlight := by
  cases state with
  | some state => rfl
  | none => exact patchTitle_turnInFlight ev

/-- What one event inside a turn builds. -/
theorem built_iff (ev : LiveEvent) (hend : ev.endsTurn = false) (now : Timestamp)
    (fetched : Fetched) :
    (∀ e ∈ s.builtEvents percent fromStr preview ev now fetched, LiveUpdate e) ↔
      (ev.subagentHandle = none →
        (ev.buildsSnapshot = true → s.cache.turnInFlight = true) ∧
        (ev.fetchesState = true → (s.cache.refresh fetched.state).turnInFlight = true)) := by
  cases ev with
  | turn ev =>
    have hbuilt : ∀ e ∈ s.builtEvents percent fromStr preview (.turn ev) now fetched,
        LiveUpdate e := built_turn ev hend now fetched
    have hnone : (LiveEvent.turn ev).buildsSnapshot = false ∧
        (LiveEvent.turn ev).fetchesState = false := ⟨rfl, rfl⟩
    refine iff_of_true hbuilt fun _ => ⟨fun h => ?_, fun h => ?_⟩
    · rw [hnone.1] at h
      cases h
    · rw [hnone.2] at h
      cases h
  | ambient ev handle =>
    by_cases hown : (LiveEvent.ambient ev handle).subagentHandle = none
    · have hmap : ∀ acc ctx, mapLiveEvent fromStr preview (.ambient ev handle) acc ctx =
          (mapAmbientEvent preview ctx ev, acc) := by
        intro acc ctx
        simp [mapLiveEvent, hown]
      have hend' : (LiveEvent.ambient ev none).endsTurn = false := by
        rw [← endsTurn_handle hown]
        exact hend
      rw [buildsSnapshot_handle, fetchesState_handle, forall_prop_of_true hown,
        ← patchTitle_turnInFlight (.ambient ev handle),
        ← patchTitle_refresh (.ambient ev handle) fetched.state,
        ← fine_ambient_iff (s := s.patchTitle (.ambient ev handle)) ev hend' now fetched]
      unfold builtEvents
      dsimp only
      rw [hmap]
      rfl
    · have hnested : (LiveEvent.ambient ev handle).subagentHandle.isSome = true :=
        Option.isSome_iff_ne_none.mpr hown
      have hbuilt :
          s.builtEvents percent fromStr preview (.ambient ev handle) now fetched = [] := by
        unfold builtEvents mapLiveEvent
        dsimp only
        rw [if_pos hnested]
        rfl
      simp [hbuilt, hown]

/-- The effects change the cache and the mapper's memory only. -/
theorem executeEffect_frame (now : Timestamp) (fetched : Fetched) (effect : LiveEffect) :
    (executeEffect percent s now fetched effect).1 =
      { s with
        cache := (executeEffect percent s now fetched effect).1.cache
        acc := (executeEffect percent s now fetched effect).1.acc } := by
  cases effect with
  | daemon effect =>
    cases effect with
    | fetchState emit promptId => rfl
  | _ => rfl

theorem runEffects_frame (now : Timestamp) (fetched : Fetched) (effects : List LiveEffect) :
    (runEffects percent s now fetched effects).1 =
      { s with
        cache := (runEffects percent s now fetched effects).1.cache
        acc := (runEffects percent s now fetched effects).1.acc } := by
  refine List.foldlRecOn
    (motive := fun r : LiveSession × _ => r.1 = { s with cache := r.1.cache, acc := r.1.acc })
    effects _ rfl fun r hr effect _ => ?_
  change (executeEffect percent r.1 now fetched effect).1 = _
  rw [executeEffect_frame, hr]

theorem patchTitle_frame (ev : LiveEvent) :
    s.patchTitle ev = { s with cache := (s.patchTitle ev).cache } := by
  unfold patchTitle
  split <;> rfl

/-- One step keeps the snapshots of the turn fine exactly under its condition. -/
theorem midTurnRunning_step_iff (h : s.MidTurnRunning) (a : Action) :
    InFlight s a ↔ (step percent fromStr preview s a).MidTurnRunning := by
  cases a with
  | refreshed state => exact iff_of_true trivial h
  | deliver ev now fetched =>
    have hmid : (step percent fromStr preview s (.deliver ev now fetched)).midTurn =
        s.midTurn ++ (if (s.inTurn && !ev.endsTurn) = true then
          s.builtEvents percent fromStr preview ev now fetched else []) := by
      change (runEffects percent _ now fetched _).1.midTurn ++ _ = _
      rw [runEffects_frame, patchTitle_frame]
    unfold MidTurnRunning
    rw [hmid, List.forall_mem_append]
    by_cases hin : s.inTurn = true
    · by_cases hend : ev.endsTurn = true
      · simp [InFlight, hend]
        exact h
      · have hend' : ev.endsTurn = false := by simpa using hend
        rw [if_pos (by simp [hin, hend']), built_iff ev hend']
        simp only [InFlight, hin, hend', forall_const]
        exact (and_iff_right h).symm
    · simp [InFlight, hin]
      exact h

end MidTurn

section Turn

variable (percent : Nat → Nat → F64) (fromStr : String → Option Json) (preview : Json → String)

/-- **No snapshot that the mapper builds inside a turn is idle, and none closes the streaming
bubble, exactly when each is built from a state that says a turn is in flight**: in every run
of the stream from a warm session between turns, whatever its cache holds. -/
theorem mid_turn_running_iff (ref : SessionRef) (workspace : WorkspaceRef) (cache : WarmCache)
    (acts : List Action) :
    Along (step percent fromStr preview) InFlight { ref, workspace, cache } acts ↔
      ∀ pre, pre <+: acts →
        (pre.foldl (step percent fromStr preview)
          ({ ref, workspace, cache } : LiveSession)).MidTurnRunning := by
  have hboot : MidTurnRunning { ref, workspace, cache } := by
    intro e he
    cases he
  exact along_iff_forall_part (I := MidTurnRunning)
    (fun s a h => midTurnRunning_step_iff h a) hboot acts

end Turn

/-- The state cached when the session was opened, before any turn. -/
def stateAtOpen : SessionStateSnapshot where
  activeFacet := "build"
  activeModel := some "large"
  activePlan := none
  activeReasoningEffort := none
  adventurousHandoffActive := none
  contextUsage := none
  currentGoal := none
  flags := []
  mcpServers := none
  sessionTitle := some "untitled"
  todos := []
  turnInFlight := some false

/-- The turn starts and the daemon names the session after the prompt. -/
def renamedInTurn : List Action :=
  [.deliver (.turn (.messageStart "p1" none)) "t1" {},
    .deliver (.ambient (.sessionTitleChanged "Fix the parser") none) "t2" {}]

/-- The start of the turn does not touch the cache, so the rename reports idle. -/
theorem rename_reports_idle :
    ¬ (renamedInTurn.foldl (step (fun _ _ => ⟨0⟩) (fun _ => none) fun _ => "")
      { ref := ⟨"w", "s"⟩
        workspace := ⟨"w", "/w", none⟩
        cache := ⟨some stateAtOpen, none, none⟩ }).MidTurnRunning := by
  intro h
  have hidle := h (.sessionUpdated ⟨⟨"w", "s"⟩, "t2", none⟩
    { snapshotFromState (fun _ _ => ⟨0⟩)
        (some { stateAtOpen with sessionTitle := some "Fix the parser" }) ⟨"w", "s"⟩
        ⟨"w", "/w", none⟩ .idle "t2" none none with title := "Fix the parser" })
    (List.mem_singleton.mpr rfl)
  exact hidle.1 rfl

end LiveSession

end Pantoken
