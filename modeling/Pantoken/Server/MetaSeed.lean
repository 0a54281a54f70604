import Pantoken.Protocol.Regular
import Pantoken.Server.Journal

/-!
# The seed of a restarted journal

A `sessionReset` restarts a journal under a new epoch.  The reducer keeps everything
but the transcript across a reset, so the new journal begins with a few events that
re-encode the rest of the folded state.

## Main definitions

* `HashOrder` — the order the ambient maps are walked in, which nothing promises.
* `metaSeedEvents` — the re-encoding.
* `resetJournal` — what a `sessionReset` does to a journal.

## Main results

* `foldAll_metaSeedEvents_foldAll` — **the re-encoding reproduces a folded state except
  its items**, and with it a reset journal the state a connected client holds.
-/

namespace Pantoken

/-! ### The code -/

/-- The order in which a hash map hands out its entries: any walk of the map. -/
structure HashOrder where
  statuses : PMap String String → List (String × String)
  widgets : PMap String AmbientWidget → List (String × AmbientWidget)
  statuses_walk : ∀ m, PMap.Finite m → PMap.Enumerates m (statuses m)
  widgets_walk : ∀ m, PMap.Finite m → PMap.Enumerates m (widgets m)

open Classical in
/-- Some walk of a map. -/
noncomputable def someWalk {α : Type} (m : PMap String α) : List (String × α) :=
  if h : m.Finite then h.choose else []

theorem someWalk_walk {α : Type} (m : PMap String α) (h : m.Finite) :
    m.Enumerates (someWalk m) := by
  rw [someWalk, dif_pos h]
  exact h.choose_spec

/-- Every finite map can be walked. -/
noncomputable instance : Inhabited HashOrder :=
  ⟨⟨someWalk, someWalk, someWalk_walk, someWalk_walk⟩⟩

/-- `AmbientPlacement` back as the wire has it. -/
def AmbientPlacement.toWidget : AmbientPlacement → WidgetPlacement
  | .aboveComposer => .aboveComposer
  | .belowComposer => .belowComposer

/-- The snapshot that carries the scalar part of a state. -/
def metaSnapshot (state : SessionState) (ref : SessionRef) (timestamp : String) :
    SessionSnapshot where
  ref := ref
  workspace := ⟨ref.workspaceId, "", none⟩
  title := state.title
  status := state.status
  updatedAt := timestamp
  archivedAt := none
  preview := none
  config := some state.config
  usage := state.usage
  runningRunId := none
  queuedMessages := some state.queued
  facet := state.facet
  permissionMonitor := state.permissionMonitor
  adventurousHandoff := state.adventurousHandoff
  notificationAutodrain := state.notificationAutodrain
  activePlan := state.activePlan
  goal :=
    -- a cleared goal is not sent
    match state.goal with
    | some (some g) => some (some g)
    | _ => none
  flags := some state.flags
  todos := some state.todos
  mcpServers := some state.mcpServers

/-- The request that sets a status again. -/
def metaStatus (e : String × String) : HostUiRequest :=
  .status ("meta-status-" ++ e.1) e.1 (some e.2)

/-- The request that sets a widget again. -/
def metaWidget (e : String × AmbientWidget) : HostUiRequest :=
  .widget ("meta-widget-" ++ e.2.key) e.2.key (some e.2.lines) (some e.2.placement.toWidget)

/-- The request that sets the ambient title again. -/
def metaTitle (title : String) : HostUiRequest := .title "meta-title" title

/-- `meta_seed_events` -/
def metaSeedEvents (order : HashOrder) (state : SessionState) (sessionRef : SessionRef)
    (timestamp : String) : List SessionDriverEvent :=
  let ref := state.sessionRef.getD sessionRef
  let base : SessionEventBase := ⟨ref, timestamp, none⟩
  .sessionOpened base (metaSnapshot state ref timestamp) ::
    ((order.statuses state.ambient.statuses).map metaStatus ++
      (order.widgets state.ambient.widgets).map metaWidget ++
      state.ambient.title.toList.map metaTitle ++
      state.pendingApprovals).map (.hostUiRequest base)

/-- What a `sessionReset` does to a journal: fold it, apply the reset, and restart it
under a new epoch from the re-encoded state. -/
def resetJournal (order : HashOrder) (j : SessionJournal) (ev : SessionDriverEvent)
    (epoch : Nat) : SessionJournal :=
  let state := foldEvent (foldAll (buildSeed j).2.2) ev
  bumpEpoch j epoch (metaSeedEvents order state ev.sessionRef ev.timestamp)

/-! ### What the requests fold to -/

/-- Fold a run of host requests. -/
def foldRequests (s : SessionState) (rs : List HostUiRequest) : SessionState :=
  rs.foldl foldHostUiRequest s

theorem foldAllFrom_hostUiRequest (base : SessionEventBase) (s : SessionState)
    (rs : List HostUiRequest) :
    foldAllFrom s (rs.map (.hostUiRequest base)) = foldRequests s rs := by
  rw [foldAllFrom, foldRequests, List.foldl_map]
  rfl

theorem foldRequests_append (s : SessionState) (rs rs' : List HostUiRequest) :
    foldRequests s (rs ++ rs') = foldRequests (foldRequests s rs) rs' := List.foldl_append

theorem foldRequests_metaStatus (s : SessionState) (l : List (String × String)) :
    foldRequests s (l.map metaStatus) =
      { s with
        ambient := { s.ambient with
          statuses := l.foldl (fun m e => m.insert e.1 e.2) s.ambient.statuses } } := by
  induction l generalizing s with
  | nil => rfl
  | cons e l ih =>
    rw [List.map_cons, foldRequests, List.foldl_cons, ← foldRequests, ih]
    rfl

theorem foldHostUiRequest_metaWidget (s : SessionState) {e : String × AmbientWidget}
    (h : e.2.key = e.1 ∧ e.2.lines ≠ []) :
    foldHostUiRequest s (metaWidget e) =
      { s with
        ambient := { s.ambient with widgets := s.ambient.widgets.insert e.1 e.2 } } := by
  obtain ⟨k, key, lines, placement⟩ := e
  obtain ⟨hkey, hlines⟩ := h
  dsimp only at hkey hlines
  subst hkey
  obtain ⟨l, ls, rfl⟩ := List.exists_cons_of_ne_nil hlines
  cases placement <;> rfl

theorem foldRequests_metaWidget (s : SessionState) {l : List (String × AmbientWidget)}
    (h : ∀ e ∈ l, e.2.key = e.1 ∧ e.2.lines ≠ []) :
    foldRequests s (l.map metaWidget) =
      { s with
        ambient := { s.ambient with
          widgets := l.foldl (fun m e => m.insert e.1 e.2) s.ambient.widgets } } := by
  induction l generalizing s with
  | nil => rfl
  | cons e l ih =>
    rw [List.map_cons, foldRequests, List.foldl_cons, ← foldRequests,
      foldHostUiRequest_metaWidget s (h e List.mem_cons_self),
      ih _ fun e' he' => h e' (List.mem_cons_of_mem _ he')]
    rfl

theorem foldRequests_metaTitle (s : SessionState) (title : Option String) :
    foldRequests s (title.toList.map metaTitle) =
      { s with ambient := { s.ambient with title := title.or s.ambient.title } } := by
  cases title <;> rfl

/-- Dialogs with new and distinct ids all join the queue. -/
theorem foldRequests_dialogs (s : SessionState) {rs : List HostUiRequest}
    (hd : ∀ r ∈ rs, isDialogRequest r = true)
    (hn : ((s.pendingApprovals ++ rs).map (·.requestId)).Nodup) :
    foldRequests s rs = { s with pendingApprovals := s.pendingApprovals ++ rs } := by
  induction rs generalizing s with
  | nil => simp [foldRequests]
  | cons r rs ih =>
    have hnew : s.pendingApprovals.any (·.requestId = r.requestId) = false := by
      simp only [List.any_eq_false, decide_eq_true_eq]
      intro p hp heq
      rw [List.map_append, List.map_cons, List.nodup_append] at hn
      exact hn.2.2 _ (List.mem_map_of_mem hp) _ List.mem_cons_self heq
    have hstep : foldHostUiRequest s r =
        { s with pendingApprovals := s.pendingApprovals ++ [r] } := by
      simp [foldHostUiRequest, hd r List.mem_cons_self, hnew]
    rw [foldRequests, List.foldl_cons, ← foldRequests, hstep,
      ih _ (fun r' hr' => hd r' (List.mem_cons_of_mem _ hr')) (by simpa using hn)]
    simp

/-! ### The re-encoding -/

/-- The state the leading snapshot folds to. -/
theorem foldEvent_metaSnapshot (s : SessionState) (base : SessionEventBase) (ref : SessionRef)
    (ts : String) (hg : s.goal ≠ some none) :
    foldEvent initialSessionState (.sessionOpened base (metaSnapshot s ref ts)) =
      { s with
        sessionRef := some ref
        items := []
        pendingApprovals := []
        ambient := .default } := by
  have hgoal : (applySnapshot initialSessionState (metaSnapshot s ref ts)).goal = s.goal := by
    rcases h : s.goal with _ | _ | g
    · simp [applySnapshot, metaSnapshot, h, initialSessionState]
    · exact absurd h hg
    · simp [applySnapshot, metaSnapshot, h]
  have happly : applySnapshot initialSessionState (metaSnapshot s ref ts) =
      { s with
        sessionRef := some ref
        items := []
        pendingApprovals := []
        ambient := .default } := by
    simp only [applySnapshot, initialSessionState, SessionState.mk.injEq] at hgoal ⊢
    simp [metaSnapshot] at hgoal ⊢
    exact hgoal
  simp only [foldEvent, foldSnapshot, happly]
  split <;> rfl

/-- The re-encoding of a regular state folds back to it, without its items. -/
theorem SessionState.Regular.foldAll_metaSeedEvents {s : SessionState} (h : s.Regular)
    (order : HashOrder) (sessionRef : SessionRef) (ts : String) :
    foldAll (metaSeedEvents order s sessionRef ts) =
      { s with
        sessionRef := some (s.sessionRef.getD sessionRef)
        items := [] } := by
  have hst := order.statuses_walk _ h.ambient.statuses
  have hwi := order.widgets_walk _ h.ambient.widgets
  -- every widget is stored under its own key, so setting it again stores it there
  have hkeys : ∀ e ∈ order.widgets s.ambient.widgets, e.2.key = e.1 ∧ e.2.lines ≠ [] :=
    fun e he => h.ambient.widget e.1 e.2 ((hwi.mem_iff e.1 e.2).mp he)
  rw [metaSeedEvents, foldAll, foldAllFrom_cons, foldEvent_metaSnapshot _ _ _ _ h.goal,
    foldAllFrom_hostUiRequest, foldRequests_append, foldRequests_append, foldRequests_append,
    foldRequests_metaStatus, foldRequests_metaWidget _ hkeys, foldRequests_metaTitle,
    foldRequests_dialogs _ h.dialogs (by simpa using h.nodup)]
  have hstatuses := PMap.foldl_insert_eq hst
  have hwidgets := PMap.foldl_insert_eq hwi
  simp only [AmbientState.default, List.nil_append, Option.or_none] at hstatuses hwidgets ⊢
  rw [hstatuses, hwidgets]

/-- A reset journal folds to what the reset makes of the old fold. -/
theorem foldAll_resetJournal (order : HashOrder) (j : SessionJournal) (base : SessionEventBase)
    (epoch : Nat) (href : (foldAll (buildSeed j).2.2).sessionRef.isSome) :
    foldAll (buildSeed (resetJournal order j (.sessionReset base) epoch)).2.2 =
      foldEvent (foldAll (buildSeed j).2.2) (.sessionReset base) := by
  obtain ⟨ref, href⟩ := Option.isSome_iff_exists.mp href
  have hreg : (foldEvent (foldAll (buildSeed j).2.2) (.sessionReset base)).Regular :=
    regular_foldEvent (regular_foldAll _) _
  rw [resetJournal, foldAll_buildSeed_bumpEpoch, hreg.foldAll_metaSeedEvents]
  simp [foldEvent, href]

/-- **The re-encoding of a folded state reproduces it except its items**, in whatever
order the maps are walked; so a journal restarted by a `sessionReset` folds to the state
a client holds that stayed connected through it. -/
theorem foldAll_metaSeedEvents_foldAll (order : HashOrder) (evs : List SessionDriverEvent)
    (sessionRef : SessionRef) (ts : String) (href : (foldAll evs).sessionRef.isSome) :
    foldAll (metaSeedEvents order (foldAll evs) sessionRef ts) = { foldAll evs with items := [] } ∧
    ∀ (j : SessionJournal) (base : SessionEventBase) (epoch : Nat),
      foldAll (buildSeed j).2.2 = foldAll evs →
        foldAll (buildSeed (resetJournal order j (.sessionReset base) epoch)).2.2 =
          foldAll (evs ++ [.sessionReset base]) := by
  constructor
  · obtain ⟨ref, hr⟩ := Option.isSome_iff_exists.mp href
    rw [(regular_foldAll evs).foldAll_metaSeedEvents, hr, Option.getD_some, ← hr]
  · intro j base epoch hj
    rw [foldAll_resetJournal order j base epoch (by rw [hj]; exact href), hj, foldAll_concat]

/-- A session just opened and titled is reproduced. -/
theorem foldAll_metaSeedEvents_titled :
    foldAll (metaSeedEvents default
        (foldAll [.sessionOpened ⟨⟨"w", "s"⟩, "t", none⟩
            (metaSnapshot initialSessionState ⟨"w", "s"⟩ "t"),
          .hostUiRequest ⟨⟨"w", "s"⟩, "t", none⟩ (.title "r" "a title")])
        ⟨"w", "s"⟩ "u") =
      { foldAll [.sessionOpened ⟨⟨"w", "s"⟩, "t", none⟩
            (metaSnapshot initialSessionState ⟨"w", "s"⟩ "t"),
          .hostUiRequest ⟨⟨"w", "s"⟩, "t", none⟩ (.title "r" "a title")] with items := [] } :=
  (foldAll_metaSeedEvents_foldAll default _ _ _ rfl).1

end Pantoken
