import Pantoken.Server.Attention

/-!
# Refreshing the usage

While a session runs, a timer has the hub ask the driver for its usage and send it as an event
of the session.  What was sent last is remembered for each session, and the same usage is not
sent again.  The journal it was folded into may be gone by then: a switch begins it anew from
a seed, and a snapshot overwrites what it says.

## Main definitions

* `usageView` — the usage a journal folds to.
* `Metered` — a server with the usage it emitted last; `Metered.step` is one step.
* `Metered.Converges` — the running sessions have folded what the driver reports.
* `Metered.Keeps` — no session is passed over whose journal folds to another usage.
* `Metered.Mirrors` — what was emitted last is what the journals fold to.

## Main results

* `Metered.converges_iff` — when a refresh converges.
* `Metered.along_refreshed_of_keeps` — **every refresh of a run converges that passes over no
  such session.**
* `Metered.Mirrors.step`, `Metered.along_keeps_of_keepsMirror` — the steps, and the runs, after
  which none is passed over wrongly.
* `Metered.not_refreshed` — a session that is reloaded shows no usage until the number changes.
-/

namespace Pantoken

/-! ### The usage of a journal -/

/-- What an event writes to the usage. -/
def usageWrite : SessionDriverEvent → Option SessionUsage
  | .sessionOpened _ snapshot | .sessionUpdated _ snapshot | .runCompleted _ snapshot _ _ =>
    snapshot.usage
  | .usageUpdated _ usage => some usage
  | _ => none

theorem foldSnapshot_usage (s : SessionState) (snapshot : SessionSnapshot) (ts : String) :
    (foldSnapshot s snapshot ts).usage = snapshot.usage.or s.usage := by
  unfold foldSnapshot
  dsimp only
  split <;> rfl

theorem foldHostUiRequest_usage (s : SessionState) (request : HostUiRequest) :
    (foldHostUiRequest s request).usage = s.usage := by
  unfold foldHostUiRequest
  split
  · split <;> rfl
  · split <;> rfl

/-- The usage a journal folds to. -/
def usageView : FoldView (Option SessionUsage) where
  view := (·.usage)
  step b ev := (usageWrite ev).or b
  view_foldEvent st ev := by
    cases ev with
    | sessionOpened base snapshot | sessionUpdated base snapshot | runCompleted base snapshot =>
      exact foldSnapshot_usage st snapshot base.timestamp
    | hostUiRequest base request => exact foldHostUiRequest_usage st request
    | _ => rfl
  step_delta b ev hdelta := by
    cases ev <;> first | rfl | cases hdelta

/-! ### Resets -/

/-- `reset`: the hub starts over, from the default seed of the driver if it is to have one. -/
def SessionHub.reset (h : SessionHub) (defaultSeed : Option SwapSeed) : SessionHub :=
  let cleared : SessionHub :=
    { h with
      journals := .empty
      pendingDeltas := .empty
      swapBuffer := .empty
      swapsInFlight := 0
      defaultFocusId := none
      prompts := .empty }
  let h := cleared.seedDefault defaultSeed
  { h with
    clients := h.clients.map fun c =>
      { c with
        focusedId := h.defaultFocusId
        send := c.send ++ [h.seedMsg h.defaultFocusId] } }

/-! ### The refresh -/

/-- A double without its sign bit. -/
def F64.magnitude (x : F64) : UInt64 := x.bits &&& 0x7FFFFFFFFFFFFFFF

/-- `==` on doubles: a NaN is equal to nothing, and the two zeros are equal. -/
def F64.eq (x y : F64) : Bool :=
  x.magnitude ≤ 0x7FF0000000000000 && (x = y || (x.magnitude = 0 && y.magnitude = 0))

/-- `==` on usages. -/
def SessionUsage.eq (u v : SessionUsage) : Bool :=
  u.tokens = v.tokens && u.contextWindow = v.contextWindow &&
    match u.percent, v.percent with
    | some p, some q => p.eq q
    | none, none => true
    | _, _ => false

/-- What the driver reports for the sessions with a journal, in the order these are walked. -/
structure UsageReport where
  usages : List (SessionId × SessionUsage)
  /-- A session is walked once. -/
  nodup : (usages.map Prod.fst).Nodup

/-- A server with the usage it emitted last for each session. -/
structure Metered where
  tracked : Tracked
  lastUsageEmitted : PMap SessionId SessionUsage

/-- The answer is no report of usages. -/
def Server.Action.plain : Server.Action → Bool
  | .tick _ (.usages ..) => false
  | _ => true

inductive MeteredAct where
  /-- A step of the server other than a refresh of the usage. -/
  | act (a : Server.Action) (plain : a.plain = true)
  /-- The applier runs a live refresh. -/
  | refresh (m : Moment) (nowIso : Timestamp) (report : UsageReport)
  | reset (defaultSeed : Option SwapSeed)

namespace Metered

/-- A live refresh is the next that the applier takes off the queue. -/
def due (t : Metered) : Bool :=
  match t.tracked.server.phase, t.tracked.server.queue with
  | .idle, .liveRefresh :: _ => true
  | _, _ => false

/-- The sessions `refresh_usage` looks at: they run and have a journal. -/
def running (t : Metered) (sid : SessionId) : Bool :=
  sid ∈ t.tracked.tracking.running && t.tracked.server.hub.hasJournal sid

/-- What was emitted last for a session is equal to the usage. -/
def repeats (t : Metered) (u : SessionId × SessionUsage) : Bool :=
  (t.lastUsageEmitted u.1).any (·.eq u.2)

/-- What `refresh_usage` emits. -/
def fresh (t : Metered) (report : UsageReport) : List (SessionId × SessionUsage) :=
  report.usages.filter fun u => t.running u.1 && !t.repeats u

def step (serde : Serde) (t : Metered) : MeteredAct → Metered
  | .act a _ => { t with tracked := t.tracked.step serde a }
  | .refresh m nowIso report =>
    if t.due then
      { tracked := t.tracked.step serde (.tick m (.usages nowIso (t.fresh report)))
        lastUsageEmitted :=
          (t.fresh report).foldl (fun cache u => cache.insert u.1 u.2) t.lastUsageEmitted }
    else t
  | .reset defaultSeed =>
    { tracked :=
        { server :=
            { t.tracked.server with hub := t.tracked.server.hub.reset defaultSeed }
          tracking :=
            ((defaultSeed.map (·.events)).getD []).foldl Tracking.track .empty }
      lastUsageEmitted := .empty }

/-- The server at boot. -/
def boot (deltaFlushMs nowMs : ℕ) (defaultSeed : Option SwapSeed) : Metered :=
  ⟨Tracked.boot deltaFlushMs nowMs defaultSeed, .empty⟩

/-- The usage that the journal of a session folds to. -/
def folded (t : Metered) (sid : SessionId) : Option (Option SessionUsage) :=
  t.tracked.server.hub.folded usageView sid

/-- The journal of a session has folded the usage, or one that the code takes for the same. -/
def Shows (t : Metered) (u : SessionId × SessionUsage) : Prop :=
  ∃ usage, t.folded u.1 = some (some usage) ∧ (usage = u.2 ∨ usage.eq u.2 = true)

/-- **The running sessions with a journal have folded what the driver reports for them.** -/
def Converges (t : Metered) (report : UsageReport) : Prop :=
  ∀ u ∈ report.usages, t.running u.1 = true → t.Shows u

/-- What is claimed of a step: a refresh converges. -/
def Refreshed (serde : Serde) (t : Metered) : MeteredAct → Prop
  | .refresh m nowIso report =>
    t.due = true → (t.step serde (.refresh m nowIso report)).Converges report
  | _ => True

/-- The journals a refresh emits to name their sessions. -/
def Names (t : Metered) (report : UsageReport) : Prop :=
  ∀ u ∈ report.usages, ∀ j, t.tracked.server.hub.journals u.1 = some j →
    (j.sessionRef.getD ⟨u.1, u.1⟩).sessionId = u.1

/-- No running session whose usage was emitted last has folded another since. -/
def Current (t : Metered) (report : UsageReport) : Prop :=
  ∀ u ∈ report.usages, t.running u.1 = true → t.repeats u = true → t.Shows u

/-- A refresh finds journals that name their sessions, and passes over none that has folded
another usage. -/
def Keeps (t : Metered) : MeteredAct → Prop
  | .refresh _ _ report => t.due = true → t.Names report ∧ t.Current report
  | _ => True

end Metered

/-! ### What a refresh does to the journals -/

section Refresh

variable {serde : Serde} {h : SessionHub} {m : Moment} {nowIso : Timestamp}

/-- An event other than a delta touches the journal of its session alone. -/
theorem ingest_journals_of_ne (hs : h.Sound serde) {ev : SessionDriverEvent}
    (hdelta : SessionHub.isDelta ev = false) {sid : SessionId} (hsid : sid ≠ ev.sid) :
    (h.ingest serde m ev).journals sid = h.journals sid := by
  have hnow : ∀ (h : SessionHub) (order : HashOrder) (ev : SessionDriverEvent), sid ≠ ev.sid →
      (h.ingestNow serde order ev).journals sid = h.journals sid := by
    intro h order ev hsid
    rw [ingestNow_journals]
    split
    · exact PMap.insert_of_ne _ _ hsid
    · rfl
  unfold SessionHub.ingest
  rw [if_pos hdelta]
  split
  · exact hnow h m.order ev hsid
  · rw [hnow _ m.order ev hsid]
    unfold SessionHub.flushPending
    split
    · next pending hp =>
      refine hnow _ m.order pending ?_
      rwa [(hs.pending ev.sid pending hp).2.1]
    · rfl

/-- The journals that are refreshed name their sessions. -/
def NamesAll (h : SessionHub) (usages : List (SessionId × SessionUsage)) : Prop :=
  ∀ u ∈ usages, ∀ j, h.journals u.1 = some j → (j.sessionRef.getD ⟨u.1, u.1⟩).sessionId = u.1

/-- One session is refreshed. -/
def refreshOne (serde : Serde) (m : Moment) (nowIso : Timestamp) (h : SessionHub)
    (u : SessionId × SessionUsage) : SessionHub :=
  match h.journals u.1 with
  | some j => h.ingest serde m (SessionHub.usageEvent j u.1 nowIso u.2)
  | none => h

theorem refreshUsage_cons (u : SessionId × SessionUsage)
    (usages : List (SessionId × SessionUsage)) :
    h.refreshUsage serde m nowIso (u :: usages) =
      (refreshOne serde m nowIso h u).refreshUsage serde m nowIso usages := rfl

/-- **What the refresh of one session does.** -/
theorem refreshOne_spec (hs : h.Sound serde) {u : SessionId × SessionUsage}
    (hname : ∀ j, h.journals u.1 = some j → (j.sessionRef.getD ⟨u.1, u.1⟩).sessionId = u.1) :
    (refreshOne serde m nowIso h u).Sound serde ∧
      (∀ sid, sid ≠ u.1 → (refreshOne serde m nowIso h u).journals sid = h.journals sid) ∧
      (∀ sid, (refreshOne serde m nowIso h u).hasJournal sid = h.hasJournal sid) ∧
      (h.hasJournal u.1 = true →
        (refreshOne serde m nowIso h u).folded usageView u.1 = some (some u.2)) := by
  unfold refreshOne
  cases hj : h.journals u.1 with
  | none =>
    refine ⟨hs, fun _ _ => rfl, fun _ => rfl, fun hhas => ?_⟩
    rw [SessionHub.hasJournal, hj] at hhas
    cases hhas
  | some j =>
    have hsid : (SessionHub.usageEvent j u.1 nowIso u.2).sid = u.1 := hname j hj
    obtain ⟨hs', hc⟩ := hs.ingest m (SessionHub.usageEvent j u.1 nowIso u.2)
    have hhas := @ingest_hasJournal serde h m (SessionHub.usageEvent j u.1 nowIso u.2)
    refine ⟨hs', fun sid hne => ingest_journals_of_ne hs rfl (hsid.symm ▸ hne), hhas, fun hu => ?_⟩
    obtain ⟨b, -, hb⟩ := folded_of_carries (v := usageView) hs hs' hc ((hhas u.1).trans hu)
    have hself : [SessionHub.usageEvent j u.1 nowIso u.2].filter (·.sid = u.1) =
        [SessionHub.usageEvent j u.1 nowIso u.2] :=
      List.filter_cons_of_pos (by simpa using hsid)
    rw [hself] at hb
    exact hb

theorem NamesAll.tail {u : SessionId × SessionUsage} {usages : List (SessionId × SessionUsage)}
    {h' : SessionHub} (hn : NamesAll h (u :: usages)) (hu : u.1 ∉ usages.map Prod.fst)
    (hj : ∀ sid, sid ≠ u.1 → h'.journals sid = h.journals sid) : NamesAll h' usages := by
  intro u' hu' j hj'
  have hne : u'.1 ≠ u.1 := fun heq => hu (heq ▸ List.mem_map_of_mem hu')
  rw [hj u'.1 hne] at hj'
  exact hn u' (List.mem_cons_of_mem _ hu') j hj'

/-- **What a refresh does to the usage of a session.** -/
theorem folded_refreshUsage_spec {usages : List (SessionId × SessionUsage)} (hs : h.Sound serde)
    (hnd : (usages.map Prod.fst).Nodup) (hn : NamesAll h usages) :
    (∀ sid, (h.refreshUsage serde m nowIso usages).hasJournal sid = h.hasJournal sid) ∧
      (∀ sid, sid ∉ usages.map Prod.fst →
        (h.refreshUsage serde m nowIso usages).folded usageView sid = h.folded usageView sid) ∧
      ∀ u ∈ usages, h.hasJournal u.1 = true →
        (h.refreshUsage serde m nowIso usages).folded usageView u.1 = some (some u.2) := by
  induction usages generalizing h with
  | nil => exact ⟨fun _ => rfl, fun _ _ => rfl, fun _ hu => absurd hu List.not_mem_nil⟩
  | cons u usages ih =>
    -- the session is refreshed once, and its journal left alone after that
    rw [List.map_cons, List.nodup_cons] at hnd
    obtain ⟨hs', hjournals, hhas, hone⟩ :=
      @refreshOne_spec serde h m nowIso hs u (hn u List.mem_cons_self)
    obtain ⟨ihhas, ihother, ihmine⟩ := ih hs' hnd.2 (hn.tail hnd.1 hjournals)
    rw [refreshUsage_cons]
    refine ⟨fun sid => (ihhas sid).trans (hhas sid), fun sid hsid => ?_, fun u' hu' hj => ?_⟩
    · rw [List.map_cons, List.mem_cons, not_or] at hsid
      rw [ihother sid hsid.2, SessionHub.folded, SessionHub.folded, hjournals sid hsid.1]
    · rcases List.mem_cons.mp hu' with rfl | hmem
      · rw [ihother u'.1 hnd.1, hone hj]
      · exact ihmine u' hmem ((hhas u'.1).trans hj)

end Refresh

theorem foldl_insert_of_mem {κ α : Type*} [DecidableEq κ] {l : List (κ × α)}
    (hnd : (l.map Prod.fst).Nodup) {u : κ × α} (hu : u ∈ l) (c : PMap κ α) :
    l.foldl (fun c u => c.insert u.1 u.2) c u.1 = some u.2 := by
  induction l generalizing c with
  | nil => cases hu
  | cons u' l ih =>
    rw [List.map_cons, List.nodup_cons] at hnd
    rcases List.mem_cons.mp hu with rfl | hmem
    · rw [List.foldl_cons, PMap.foldl_insert_apply l _ u.1 hnd.1, PMap.insert_self]
    · exact ih hnd.2 hmem _

/-! ### Runs -/

theorem SessionHub.Sound.reset {serde : Serde} (h : SessionHub) (defaultSeed : Option SwapSeed) :
    (h.reset defaultSeed).Sound serde := by
  have hcleared : SessionHub.Sound serde
      { h with
        journals := .empty
        pendingDeltas := .empty
        swapBuffer := .empty
        swapsInFlight := 0
        defaultFocusId := none
        prompts := .empty } :=
    ⟨fun _ _ hj => (by cases hj), fun _ _ hp => (by cases hp), fun _ _ => rfl⟩
  have hseeded := hcleared.seedDefault defaultSeed
  exact ⟨hseeded.journal, hseeded.pending, hseeded.off⟩

namespace Metered

section Steps

variable {serde : Serde} {t : Metered} {m : Moment} {nowIso : Timestamp} {report : UsageReport}

theorem sound_step (hs : t.tracked.server.Sound serde) (a : MeteredAct) :
    (t.step serde a).tracked.server.Sound serde := by
  cases a with
  | act a _ => exact hs.step a
  | refresh m nowIso report =>
    unfold step
    dsimp only
    split
    · exact hs.step (.tick m (.usages nowIso (t.fresh report)))
    · exact hs
  | reset defaultSeed => exact ⟨.reset _ defaultSeed, hs.phase⟩

theorem due_iff : t.due = true ↔
    t.tracked.server.phase = .idle ∧ ∃ queue, t.tracked.server.queue = .liveRefresh :: queue := by
  unfold due
  split
  · next hphase hqueue => exact iff_of_true rfl ⟨hphase, _, hqueue⟩
  · next hnot =>
    refine iff_of_false (by decide) ?_
    rintro ⟨hphase, queue, hqueue⟩
    exact hnot queue hphase hqueue

/-- A refresh that is due. -/
theorem step_refresh (hdue : t.due = true) :
    (t.step serde (.refresh m nowIso report)).tracked.server.hub =
        t.tracked.server.hub.refreshUsage serde m nowIso (t.fresh report) ∧
      (t.step serde (.refresh m nowIso report)).tracked.tracking = t.tracked.tracking ∧
      (t.step serde (.refresh m nowIso report)).lastUsageEmitted =
        (t.fresh report).foldl (fun cache u => cache.insert u.1 u.2) t.lastUsageEmitted := by
  obtain ⟨hphase, queue, hqueue⟩ := due_iff.mp hdue
  unfold step
  dsimp only
  rw [if_pos hdue]
  refine ⟨?_, ?_, rfl⟩
  · simp only [Tracked.step, Server.step, Server.tick, hphase, hqueue]
    rfl
  · simp only [Tracked.step, Server.tracks, hphase, List.foldl_nil]

theorem mem_fresh {u : SessionId × SessionUsage} : u ∈ t.fresh report ↔
    u ∈ report.usages ∧ t.running u.1 = true ∧ t.repeats u = false := by
  rw [fresh, List.mem_filter, Bool.and_eq_true, Bool.not_eq_true']

theorem nodup_fresh (t : Metered) (report : UsageReport) :
    ((t.fresh report).map Prod.fst).Nodup :=
  report.nodup.sublist (List.filter_sublist.map Prod.fst)

/-- What the report says of a session it says once. -/
theorem UsageReport_eq {u u' : SessionId × SessionUsage} (hu : u ∈ report.usages)
    (hu' : u' ∈ report.usages) (heq : u.1 = u'.1) : u = u' :=
  List.inj_on_of_nodup_map report.nodup hu hu' heq

/-- **When a refresh converges.** -/
theorem converges_iff (hs : t.tracked.server.Sound serde) (hdue : t.due = true)
    (hn : t.Names report) :
    (t.step serde (.refresh m nowIso report)).Converges report ↔ t.Current report := by
  obtain ⟨hhub, htracking, -⟩ := @step_refresh serde t m nowIso report hdue
  have hnames : NamesAll t.tracked.server.hub (t.fresh report) :=
    fun u hu => hn u (mem_fresh.mp hu).1
  obtain ⟨hhas, hother, hmine⟩ := @folded_refreshUsage_spec serde _ m nowIso _ hs.hub
    (t.nodup_fresh report) hnames
  have hrunning sid :
      (t.step serde (.refresh m nowIso report)).running sid = t.running sid := by
    rw [running, running, hhub, htracking, hhas]
  have hfolded sid : (t.step serde (.refresh m nowIso report)).folded sid =
      (t.tracked.server.hub.refreshUsage serde m nowIso (t.fresh report)).folded usageView sid := by
    rw [folded, hhub]
  -- what is not emitted is folded already, or never
  refine forall₂_congr fun u hu => ?_
  rw [hrunning]
  refine imp_congr_right fun hrun => ?_
  rw [Shows, hfolded]
  cases hrep : t.repeats u with
  | true =>
    have hnot : u.1 ∉ (t.fresh report).map Prod.fst := by
      intro hmem
      obtain ⟨u', hu', heq⟩ := List.mem_map.mp hmem
      obtain ⟨hu'', -, hnew⟩ := mem_fresh.mp hu'
      rw [UsageReport_eq hu'' hu heq, hrep] at hnew
      cases hnew
    rw [hother u.1 hnot, forall_prop_of_true rfl]
    rfl
  | false =>
    have hfresh : u ∈ t.fresh report := mem_fresh.mpr ⟨hu, hrun, hrep⟩
    have hj : t.tracked.server.hub.hasJournal u.1 = true := (Bool.and_eq_true_iff.mp hrun).2
    exact iff_of_true ⟨u.2, hmine u hfresh hj, .inl rfl⟩ fun heq => by cases heq

/-- **Every refresh of a run converges that finds journals that name their sessions, and that
passes over none that has folded another usage.** -/
theorem along_refreshed_of_keeps (serde : Serde) (deltaFlushMs nowMs : ℕ)
    (defaultSeed : Option SwapSeed) {acts : List MeteredAct}
    (h : Along (step serde) Keeps (boot deltaFlushMs nowMs defaultSeed) acts) :
    Along (step serde) (Refreshed serde) (boot deltaFlushMs nowMs defaultSeed) acts := by
  refine h.mono (I := fun t => t.tracked.server.Sound serde) (fun t a hs _ => sound_step hs a) ?_
    (Server.sound_boot serde deltaFlushMs nowMs defaultSeed)
  intro t a hs hkeeps
  cases a with
  | act | reset => trivial
  | refresh m nowIso report =>
    intro hdue
    obtain ⟨hn, hcurrent⟩ := hkeeps hdue
    exact (converges_iff hs hdue hn).mpr hcurrent

/-! #### When none is passed over wrongly -/

/-- What was emitted last is what the journals fold to. -/
def Mirrors (t : Metered) : Prop :=
  ∀ sid u, t.lastUsageEmitted sid = some u → t.tracked.server.hub.hasJournal sid = true →
    t.folded sid = some (some u)

/-- No event says another usage than was emitted last, and no journal begins anew from a seed
that does. -/
def KeepsMirror (t : Metered) : MeteredAct → Prop
  | .act (.input (.event _ ev)) _ =>
    ∀ u u', t.lastUsageEmitted ev.sid = some u → usageWrite ev = some u' → u' = u
  | .act (.tick _ _) _ =>
    match t.tracked.server.phase with
    | .switching _ sw (.folded seed sid) _ =>
      sw.reseed = true ∨ t.tracked.server.hub.hasJournal sid = false →
        ∀ u, t.lastUsageEmitted sid = some u → (foldAll seed.events).usage = some u
    | _ => True
  | .refresh _ _ report => t.Names report
  | _ => True

theorem Mirrors.current (h : t.Mirrors) (report : UsageReport) : t.Current report := by
  intro u _ hrun hrep
  obtain ⟨usage, hlast, heq⟩ := (Option.any_eq_true _ _).mp hrep
  exact ⟨usage, h u.1 usage hlast (Bool.and_eq_true_iff.mp hrun).2, .inr heq⟩

/-- A step that neither forgets nor emits, and leaves the usages of the journals as they are. -/
theorem Mirrors.of_folded_eq (h : t.Mirrors) {t' : Metered}
    (hlast : t'.lastUsageEmitted = t.lastUsageEmitted)
    (hfolded : t'.tracked.server.hub.folded usageView =
      t.tracked.server.hub.folded usageView) : t'.Mirrors := by
  intro sid u hu hj
  rw [← SessionHub.isSome_folded _ usageView, hfolded, SessionHub.isSome_folded] at hj
  rw [folded, hfolded]
  exact h sid u (hlast ▸ hu) hj

/-- A refresh leaves the running sessions with what it emits. -/
theorem Mirrors.refresh (hs : t.tracked.server.Sound serde) (h : t.Mirrors)
    (hk : t.Names report) : (t.step serde (.refresh m nowIso report)).Mirrors := by
  by_cases hdue : t.due = true
  · obtain ⟨hhub, -, hlast⟩ := @step_refresh serde t m nowIso report hdue
    have hnames : NamesAll t.tracked.server.hub (t.fresh report) :=
      fun u hu => hk u (mem_fresh.mp hu).1
    obtain ⟨hhas, hother, hmine⟩ := @folded_refreshUsage_spec serde _ m nowIso _ hs.hub
      (t.nodup_fresh report) hnames
    intro sid u hu hj
    rw [hlast] at hu
    rw [hhub, hhas] at hj
    rw [folded, hhub]
    by_cases hmem : sid ∈ (t.fresh report).map Prod.fst
    · obtain ⟨u', hu', rfl⟩ := List.mem_map.mp hmem
      rw [foldl_insert_of_mem (t.nodup_fresh report) hu'] at hu
      obtain rfl := Option.some.inj hu
      exact hmine u' hu' hj
    · rw [PMap.foldl_insert_apply _ _ _ hmem] at hu
      rw [hother sid hmem]
      exact h sid u hu hj
  · have hsame : t.step serde (.refresh m nowIso report) = t := if_neg hdue
    rwa [hsame]

/-- An event that says no other usage than was emitted last. -/
theorem Mirrors.event (hs : t.tracked.server.Sound serde) (h : t.Mirrors) {ev : SessionDriverEvent}
    (hk : t.KeepsMirror (.act (.input (.event m ev)) rfl)) :
    (t.step serde (.act (.input (.event m ev)) rfl)).Mirrors := by
  intro sid u hu hj
  obtain ⟨b, hb, hb'⟩ := folded_onEvent (v := usageView) hs.hub m hj
  have hj' : t.tracked.server.hub.hasJournal sid = true := by
    rw [← SessionHub.isSome_folded _ usageView, hb]
    rfl
  obtain rfl : b = some u := Option.some.inj (hb.symm.trans (h sid u hu hj'))
  refine hb'.trans (congrArg some ?_)
  split_ifs with hsid
  · subst hsid
    cases hw : usageWrite ev with
    | none => simp [usageView, hw]
    | some u' => simp [usageView, hw, hk u u' hu hw]
  · rfl

/-- A section of the applier other than a refresh. -/
theorem Mirrors.tick (hs : t.tracked.server.Sound serde) (h : t.Mirrors) {answer : Answer}
    {plain : (Server.Action.tick m answer).plain = true}
    (hk : t.KeepsMirror (.act (.tick m answer) plain)) :
    (t.step serde (.act (.tick m answer) plain)).Mirrors := by
  rcases tick_install_or serde t.tracked.server m answer with
    ⟨key, sw, seed, sid, first, hphase, htick⟩ | hphase
  · have htick : (t.step serde (.act (.tick m answer) plain)).tracked.server =
        t.tracked.server.install key sw seed sid first := htick
    unfold KeepsMirror at hk
    simp only [hphase] at hk
    intro s' u hu hj
    rw [← SessionHub.isSome_folded _ usageView, htick, folded_install] at hj
    rw [folded, htick, folded_install]
    split_ifs at hj ⊢ with hnew
    · obtain ⟨rfl, hnew⟩ := hnew
      exact congrArg some (hk hnew u hu)
    · rw [SessionHub.isSome_folded] at hj
      exact h s' u hu hj
  · refine h.of_folded_eq rfl (folded_tick hs hphase m (.inr ?_))
    -- a plain answer is no report, so that the section is no refresh
    cases answer with
    | usages => cases plain
    | _ => rfl

/-- **An event and an install alone can leave a session to be passed over wrongly**: all other
steps keep what was emitted last to what the journals fold to. -/
theorem Mirrors.step (hs : t.tracked.server.Sound serde) (h : t.Mirrors) {a : MeteredAct}
    (hk : t.KeepsMirror a) : (t.step serde a).Mirrors := by
  cases a with
  | reset defaultSeed => exact fun sid u hu => by cases hu
  | refresh m nowIso report => exact h.refresh hs hk
  | act a plain =>
    cases a with
    | tick m answer => exact h.tick hs hk
    | input i =>
      cases i with
      | event m ev => exact h.event hs hk
      | receive key msg =>
        exact h.of_folded_eq rfl (folded_sameStore (sameStore_receive t.tracked.server key msg).1)
      | connect | disconnect | timer | liveTimer | evict | disposeIdle =>
        exact h.of_folded_eq rfl rfl

/-- **A run in which no journal is made to fold another usage than was emitted last** meets the
condition: its refreshes pass over no session wrongly. -/
theorem along_keeps_of_keepsMirror (serde : Serde) (deltaFlushMs nowMs : ℕ)
    (defaultSeed : Option SwapSeed) {acts : List MeteredAct}
    (h : Along (step serde) KeepsMirror (boot deltaFlushMs nowMs defaultSeed) acts) :
    Along (step serde) Keeps (boot deltaFlushMs nowMs defaultSeed) acts := by
  have hboot : (boot deltaFlushMs nowMs defaultSeed).tracked.server.Sound serde ∧
      (boot deltaFlushMs nowMs defaultSeed).Mirrors :=
    ⟨Server.sound_boot serde deltaFlushMs nowMs defaultSeed, fun sid u hu => by cases hu⟩
  refine h.mono (I := fun t => t.tracked.server.Sound serde ∧ t.Mirrors)
    (fun t a ht hk => ?_) (fun t a ht hk => ?_) hboot
  · exact ⟨sound_step ht.1 a, ht.2.step ht.1 hk⟩
  · cases a with
    | act | reset => trivial
    | refresh m nowIso report => exact fun _ => ⟨hk, ht.2.current report⟩

end Steps

/-! ### The divergence -/

/-- A seed that opens a running session and says no usage. -/
private def runningSeed : SwapSeed where
  events :=
    [.sessionOpened ⟨⟨"w", "s"⟩, "t", none⟩
      { metaSnapshot initialSessionState ⟨"w", "s"⟩ "t" with status := .running }]
  opened := .inr ⟨_, _, _, rfl⟩

/-- The driver reports five tokens for it. -/
private def fiveTokens : UsageReport := ⟨[("s", ⟨some 5, 10, none⟩)], by decide⟩

/-- The timer runs out, and the applier refreshes the usage. -/
private def live (m : Moment) : List MeteredAct :=
  [.act (.input .liveTimer) rfl, .refresh m "t" fiveTokens]

/-- A client connects and reloads the session. -/
private def reload (m : Moment) : List MeteredAct :=
  [.act (.input (.connect none)) rfl, .act (.input (.receive 0 (.reloadSession "p"))) rfl] ++
    List.replicate 3 (.act (.tick m .ok) rfl) ++ [.act (.tick m (.seed runningSeed)) rfl] ++
    List.replicate 8 (.act (.tick m .ok) rfl)

/-- The first refresh of a running session converges. -/
theorem converges_live :
    let serde : Serde := ⟨fun _ => 0, fun _ => none⟩
    let m : Moment := ⟨default, 0, true⟩
    ((live m).foldl (step serde) (boot 0 0 (some runningSeed))).Converges fiveTokens := by
  intro serde m
  have hkeeps : Along (step serde) Keeps (boot 0 0 (some runningSeed)) (live m) := by
    refine ⟨trivial, fun _ => ⟨?_, ?_⟩, trivial⟩
    · intro u hu j hj
      obtain rfl := List.mem_singleton.mp hu
      cases hj
      rfl
    · intro u hu _ hrep
      obtain rfl := List.mem_singleton.mp hu
      cases hrep
  exact (along_refreshed_of_keeps serde 0 0 (some runningSeed) hkeeps).2.1 rfl

/-- **A session that is reloaded shows no usage until the number changes**: the driver reports
what was emitted before its journal began anew, and nothing is emitted. -/
theorem not_refreshed :
    let serde : Serde := ⟨fun _ => 0, fun _ => none⟩
    let m : Moment := ⟨default, 0, true⟩
    let t₀ := (live m ++ reload m).foldl (step serde) (boot 0 0 (some runningSeed))
    let t := (live m).foldl (step serde) t₀
    ¬Along (step serde) (Refreshed serde) (boot 0 0 (some runningSeed))
        (live m ++ reload m ++ live m) ∧
      t.running "s" = true ∧ t.folded "s" = some none := by
  intro serde m t₀ t
  -- a refresh of that run that converged would leave the five tokens in the journal
  have hlast : ∀ t : Metered, Along (step serde) (Refreshed serde) t (live m) →
      (t.step serde (.act (.input .liveTimer) rfl)).due = true →
      ((live m).foldl (step serde) t).running "s" = true →
      ((live m).foldl (step serde) t).folded "s" ≠ some none := by
    rintro t ⟨-, hrefresh, -⟩ hdue hrun hnone
    obtain ⟨usage, hshows, -⟩ := hrefresh hdue ("s", _) List.mem_cons_self hrun
    cases hnone.symm.trans hshows
  have hdue : (t₀.step serde (.act (.input .liveTimer) rfl)).due = true := by decide
  have hrun : t.running "s" = true := by decide
  have hfolded : t.folded "s" = some none := by decide
  exact ⟨fun hall => hlast t₀ (along_append.mp hall).2 hdue hrun hfolded, hrun, hfolded⟩

end Metered

end Pantoken
