import Mathlib.Data.Finset.Card
import Pantoken.Lib.Run

/-!
# The update loop of the shell

The shell looks for an update of itself again and again.  Where one is there it asks the hub
how busy it is, and where that says that nobody is there it downloads, installs and relaunches;
else it shows a card, and goes on when the user has clicked it.

## Main definitions

* `UpdateHub` — what the hub keeps of clients, turns and clicks.
* `Updating`, `Updating.step` — the loop, the hub and what goes on around them.
* `Updating.Allowed` — the user has forced the update, or no turn runs and the user has
  accepted it or is not there.
* `Updating.Keeps` — what was sampled stands until the relaunch, a click is on the update that
  is reported, and one that does not force is answered between turns.

## Main results

* `allowed_of_keeps` — **in such a run every relaunch is allowed.**
* `relaunch_in_turn` — a turn that starts during the download is cut off.
-/

namespace Pantoken.Desktop

/-! ### The hub -/

structure UpdateHub where
  clients : Finset Nat := ∅
  running : Finset String := ∅
  initializing : Finset String := ∅
  updateSha : Option String := none
  applying : Bool := false
  forceRequested : Bool := false

namespace UpdateHub

/-- `activity`, of which the loop reads `busy`. -/
def busy (hub : UpdateHub) : Bool := decide (hub.running ≠ ∅) || decide (hub.initializing ≠ ∅)

/-- What `/health` tells the loop. -/
def health (hub : UpdateHub) : Nat × Bool := (hub.clients.card, hub.busy)

/-- `set_running` -/
def setRunning (hub : UpdateHub) (sid : String) (on : Bool) : UpdateHub :=
  if on then
    { hub with running := insert sid hub.running, initializing := hub.initializing.erase sid }
  else { hub with running := hub.running.erase sid }

/-- `set_initializing` -/
def setInitializing (hub : UpdateHub) (sid : String) (on : Bool) : UpdateHub :=
  if on then
    { hub with initializing := insert sid hub.initializing, running := hub.running.erase sid }
  else { hub with initializing := hub.initializing.erase sid }

/-- `ClientMessage::ApplyUpdate` -/
def applyUpdate (hub : UpdateHub) : UpdateHub :=
  if hub.updateSha.isSome && !hub.applying then { hub with applying := true } else hub

/-- `ClientMessage::ForceUpdate` -/
def forceUpdate (hub : UpdateHub) : UpdateHub :=
  ({ hub with forceRequested := true } : UpdateHub).applyUpdate

/-- `report_update`: what the hub is left with, and `applying` and `force`, which is read
once. -/
def reportUpdate (hub : UpdateHub) (sha : Option String) (applyFailed : Bool) :
    UpdateHub × Bool × Bool :=
  let hub :=
    if sha ≠ hub.updateSha then
      { hub with updateSha := sha, applying := hub.applying && sha.isSome }
    else hub
  let hub := if applyFailed then { hub with applying := false, forceRequested := false } else hub
  ({ hub with forceRequested := false }, hub.applying, hub.forceRequested)

/-- **What a report does**: the hub takes the update over, and tells of the clicks. -/
theorem reportUpdate_spec (hub : UpdateHub) (sha : Option String) (applyFailed : Bool) :
    (hub.reportUpdate sha applyFailed).1 =
        { hub with
          updateSha := sha
          applying := (hub.reportUpdate sha applyFailed).2.1
          forceRequested := false } ∧
      ((hub.reportUpdate sha applyFailed).2.1 = true →
        hub.applying = true ∧ (sha = none → hub.updateSha = none)) ∧
      (hub.reportUpdate sha applyFailed).2.2 = (hub.forceRequested && !applyFailed) := by
  unfold reportUpdate
  by_cases hsha : sha = hub.updateSha
  · cases applyFailed <;> simp [hsha]
  · cases applyFailed <;> cases sha <;> simp [hsha]

@[simp] theorem setRunning_update (hub : UpdateHub) (sid : String) (on : Bool) :
    (hub.setRunning sid on).updateSha = hub.updateSha ∧
      (hub.setRunning sid on).applying = hub.applying ∧
      (hub.setRunning sid on).forceRequested = hub.forceRequested ∧
      (hub.setRunning sid on).clients = hub.clients := by
  unfold setRunning
  split <;> simp

@[simp] theorem setInitializing_update (hub : UpdateHub) (sid : String) (on : Bool) :
    (hub.setInitializing sid on).updateSha = hub.updateSha ∧
      (hub.setInitializing sid on).applying = hub.applying ∧
      (hub.setInitializing sid on).forceRequested = hub.forceRequested ∧
      (hub.setInitializing sid on).clients = hub.clients := by
  unfold setInitializing
  split <;> simp

/-- A click is kept where there is an update to apply. -/
theorem applyUpdate_spec (hub : UpdateHub) :
    hub.applyUpdate = { hub with applying := hub.applying || hub.updateSha.isSome } := by
  unfold applyUpdate
  obtain ⟨clients, running, initializing, updateSha, applying, forceRequested⟩ := hub
  cases updateSha <;> cases applying <;> rfl

end UpdateHub

/-- `hub_activity`: a hub that does not answer has no client and no turn. -/
def hubActivity (answer : Option (Nat × Bool)) : Nat × Bool := answer.getD (0, false)

/-! ### The loop -/

/-- Where a cycle is. -/
inductive CyclePhase
  | waiting
  /-- Up to date, which is still to be reported. -/
  | clearing
  /-- `check_endpoint` found an update. -/
  | found (version : String)
  /-- Somebody is there. -/
  | deferring (version : String)
  | approved (version : String)
  /-- `download_and_install` -/
  | downloading (version : String)
  /-- The install failed, which is still to be reported. -/
  | failed (version : String)
  deriving DecidableEq

/-- The update a cycle is going to relaunch with. -/
def CyclePhase.gated : CyclePhase → Option String
  | .approved version | .downloading version => some version
  | _ => none

/-- What a cycle is going to report, where it is. -/
def CyclePhase.reports : CyclePhase → Option (Option String)
  | .clearing => some none
  | .deferring version | .failed version => some (some version)
  | _ => none

/-- The update whose click a cycle is going to ask for. -/
def CyclePhase.deferred : CyclePhase → Option String
  | .deferring version => some version
  | _ => none

/-- What becomes of a request: the hub answers it in time, reads it later, or never. -/
inductive Reply
  | answered | late | lost
  deriving DecidableEq

/-- The loop, the hub and the turns, which the hub learns of from its events.  A click is
on the update the hub shows; one that forces where there is none is on the next it is told. -/
structure Updating where
  hub : UpdateHub := {}
  turns : Finset String := ∅
  /-- the reports the hub has still to read -/
  late : List (Option String × Bool) := []
  phase : CyclePhase := .waiting
  /-- the updates the user has accepted -/
  accepted : List String := []
  /-- the updates the user has forced -/
  forced : List String := []
  /-- the user has forced the next update -/
  forceOpen : Bool := false

inductive UpdateAction
  | connect (client : Nat)
  | disconnect (client : Nat)
  | turnStarts (sid : String)
  | turnEnds (sid : String)
  | setRunning (sid : String) (on : Bool)
  | setInitializing (sid : String) (on : Bool)
  | applyUpdate
  | forceUpdate
  | hubRestarts
  /-- The hub reads a report that came late. -/
  | hubReads
  /-- `check_endpoint`: an error, no update, or one. -/
  | checked (result : Option (Option String))
  | sampled (answered : Bool)
  | report (reply : Reply)
  /-- The look at `updater_stop`. -/
  | begin (stop : Bool)
  | downloaded (ok : Bool)
  deriving DecidableEq

namespace Updating

/-- The hub reads a report. -/
def read (s : Updating) (sha : Option String) (applyFailed : Bool) : Updating × Bool × Bool :=
  let (hub, applying, force) := s.hub.reportUpdate sha applyFailed
  ({ s with
      hub := hub
      forced := s.forced ++ if s.forceOpen && !applyFailed then sha.toList else []
      forceOpen := false },
    applying, force)

/-- `report_update_state`: a report that is not answered tells of no click. -/
def post (s : Updating) (sha : Option String) (applyFailed : Bool) :
    Reply → Updating × Bool × Bool
  | .answered => s.read sha applyFailed
  | .late => ({ s with late := s.late ++ [(sha, applyFailed)] }, false, false)
  | .lost => (s, false, false)

/-- Nobody is there, as the loop reads it. -/
def unattended (s : Updating) (answered : Bool) : Bool :=
  let (clients, busy) := hubActivity (if answered then some s.hub.health else none)
  clients = 0 && !busy

/-- `run_cycle_locked`, and what goes on around it. -/
def step (s : Updating) : UpdateAction → Updating
  | .connect client => { s with hub := { s.hub with clients := insert client s.hub.clients } }
  | .disconnect client => { s with hub := { s.hub with clients := s.hub.clients.erase client } }
  | .turnStarts sid => { s with turns := insert sid s.turns }
  | .turnEnds sid => { s with turns := s.turns.erase sid }
  | .setRunning sid on => { s with hub := s.hub.setRunning sid on }
  | .setInitializing sid on => { s with hub := s.hub.setInitializing sid on }
  | .applyUpdate =>
    { s with hub := s.hub.applyUpdate, accepted := s.accepted ++ s.hub.updateSha.toList }
  | .forceUpdate =>
    { s with
      hub := s.hub.forceUpdate
      accepted := s.accepted ++ s.hub.updateSha.toList
      forced := s.forced ++ s.hub.updateSha.toList
      forceOpen := s.forceOpen || s.hub.updateSha.isNone }
  | .hubRestarts => { s with hub := {}, forceOpen := false }
  | .hubReads =>
    match s.late with
    | [] => s
    | (sha, applyFailed) :: late => (({ s with late } : Updating).read sha applyFailed).1
  | .checked result =>
    if s.phase = .waiting then
      match result with
      | none => s
      | some none => { s with phase := .clearing }
      | some (some version) => { s with phase := .found version }
    else s
  | .sampled answered =>
    match s.phase with
    | .found version =>
      if s.unattended answered then { s with phase := .approved version }
      else { s with phase := .deferring version }
    | _ => s
  | .report reply =>
    match s.phase with
    | .clearing => { (s.post none false reply).1 with phase := .waiting }
    | .deferring version =>
      let (s', applying, force) := s.post (some version) false reply
      { s' with phase := if applying || force then .approved version else .waiting }
    | .failed version => { (s.post (some version) true reply).1 with phase := .waiting }
    | _ => s
  | .begin stop =>
    match s.phase with
    | .approved version => { s with phase := if stop then .waiting else .downloading version }
    | _ => s
  | .downloaded ok =>
    match s.phase with
    -- an install that succeeds requests the relaunch
    | .downloading version => { s with phase := if ok then .waiting else .failed version }
    | _ => s

/-! ### What is asked of a relaunch -/

/-- The user has forced the update, or no turn runs and the user has accepted it or is not
there. -/
def Allowed (s : Updating) (version : String) : Prop :=
  version ∈ s.forced ∨ (s.turns = ∅ ∧ (version ∈ s.accepted ∨ s.hub.clients = ∅))

/-- A step that requests the relaunch is allowed to. -/
def RelaunchAllowed (s : Updating) (a : UpdateAction) : Prop :=
  ∀ version, s.phase = .downloading version → a = .downloaded true → s.Allowed version

/-- The update a report is of is the one that was clicked, where one was. -/
def OneUpdate (hub : UpdateHub) (sha : Option String) : Prop :=
  hub.applying = true ∨ hub.forceRequested = true →
    sha = none ∨ hub.updateSha = none ∨ sha = hub.updateSha

instance (hub : UpdateHub) (sha : Option String) : Decidable (OneUpdate hub sha) :=
  inferInstanceAs (Decidable (_ → _))

/-- The condition on a step. -/
def Keeps (s : Updating) : UpdateAction → Prop
  -- from the sample, or the click, to the relaunch nobody comes and no turn starts
  | .connect _ => ∀ version ∈ s.phase.gated, version ∈ s.forced ∨ version ∈ s.accepted
  | .turnStarts _ => ∀ version ∈ s.phase.gated, version ∈ s.forced
  -- a sample that reads nobody is right
  | .sampled answered => s.unattended answered = true → s.turns = ∅ ∧ s.hub.clients = ∅
  | .report reply => reply = .answered →
      (∀ sha ∈ s.phase.reports, OneUpdate s.hub sha) ∧
        -- an update that is not forced is approved between turns
        ∀ version ∈ s.phase.deferred, s.hub.applying = true →
          s.hub.forceRequested = true ∨ version ∈ s.forced ∨ s.turns = ∅
  | .hubReads => ∀ report ∈ s.late.head?, OneUpdate s.hub report.1
  | _ => True

instance (s : Updating) (a : UpdateAction) : Decidable (Keeps s a) := by
  cases a <;> unfold Keeps <;> infer_instance

/-! ### What holds throughout -/

/-- A click that is kept is on the update the hub shows, or on the next it is told. -/
structure ClicksKnown (s : Updating) : Prop where
  applying : s.hub.applying = true → ∃ version ∈ s.accepted, s.hub.updateSha = some version
  force : s.hub.forceRequested = true →
    s.forceOpen = true ∨ ∃ version ∈ s.forced, s.hub.updateSha = some version

/-- What is about to relaunch is allowed to. -/
structure Sound (s : Updating) : Prop where
  clicks : s.ClicksKnown
  gate : ∀ version ∈ s.phase.gated, s.Allowed version

section Steps

variable {s : Updating}

/-- What is allowed stays so while no turn starts and nobody comes. -/
theorem Allowed.mono {s' : Updating} {version : String} (h : s.Allowed version)
    (hforced : s.forced ⊆ s'.forced) (haccepted : s.accepted ⊆ s'.accepted)
    (hturns : s'.turns ⊆ s.turns) (hclients : s'.hub.clients ⊆ s.hub.clients) :
    s'.Allowed version := by
  rcases h with h | ⟨hnone, h⟩
  · exact .inl (hforced h)
  · refine .inr ⟨Finset.subset_empty.mp (hnone ▸ hturns), h.imp (haccepted ·) ?_⟩
    intro hempty
    exact Finset.subset_empty.mp (hempty ▸ hclients)

/-- What a report that is read tells of is the update it is of. -/
theorem read_spec (h : s.ClicksKnown) {sha : Option String} (hone : OneUpdate s.hub sha)
    (applyFailed : Bool) :
    (s.read sha applyFailed).1.ClicksKnown ∧
      ((s.read sha applyFailed).2.1 = true → ∃ version ∈ s.accepted, sha = some version) ∧
      ((s.read sha applyFailed).2.2 = true →
        ∀ version ∈ sha, version ∈ (s.read sha applyFailed).1.forced) := by
  unfold OneUpdate at hone
  obtain ⟨hhub, happlying, hforce⟩ := s.hub.reportUpdate_spec sha applyFailed
  have haccepted : (s.hub.reportUpdate sha applyFailed).2.1 = true →
      ∃ version ∈ s.accepted, sha = some version := by
    intro happly
    obtain ⟨hwas, hnone⟩ := happlying happly
    obtain ⟨version, hmem, hshown⟩ := h.applying hwas
    rw [hshown] at hone hnone
    rcases hone (.inl hwas) with hsha | hsha | hsha
    · cases hnone hsha
    · cases hsha
    · exact ⟨version, hmem, hsha⟩
  refine ⟨⟨?_, ?_⟩, haccepted, ?_⟩
  · intro happly
    simp only [read, hhub] at happly ⊢
    exact haccepted happly
  · intro hforced
    simp only [read, hhub] at hforced
    cases hforced
  · intro hforced version hversion
    obtain ⟨hwas, hok⟩ : s.hub.forceRequested = true ∧ applyFailed = false := by
      simpa [read, hforce] using hforced
    simp only [read]
    rcases h.force hwas with hopen | ⟨version', hmem, hshown⟩
    · simpa [hopen, hok] using Or.inr hversion
    · rw [hshown] at hone
      rcases hone (.inr hwas) with hsha | hsha | hsha
      · rw [hsha] at hversion
        cases hversion
      · cases hsha
      · rw [hsha] at hversion
        cases hversion
        exact List.mem_append_left _ hmem

/-- A report that is read forbids nothing that was allowed. -/
theorem Allowed.read {version : String} (h : s.Allowed version) (sha : Option String)
    (applyFailed : Bool) : (s.read sha applyFailed).1.Allowed version := by
  refine h.mono (List.subset_append_left _ _) (List.Subset.refl _) (Finset.Subset.refl _) ?_
  rw [Updating.read]
  dsimp only
  rw [(s.hub.reportUpdate_spec sha applyFailed).1]

theorem Sound.read (h : s.Sound) {sha : Option String} (hone : OneUpdate s.hub sha)
    (applyFailed : Bool) : (s.read sha applyFailed).1.Sound where
  clicks := (read_spec h.clicks hone applyFailed).1
  gate version hversion := (h.gate version hversion).read sha applyFailed

/-- A report is read under the condition, and one that is not read tells of no click. -/
theorem Sound.post (h : s.Sound) {sha : Option String} (applyFailed : Bool) {reply : Reply}
    (hone : reply = .answered → OneUpdate s.hub sha) : (s.post sha applyFailed reply).1.Sound := by
  cases reply with
  | answered => exact h.read (hone rfl) applyFailed
  | late => exact ⟨⟨h.clicks.applying, h.clicks.force⟩, h.gate⟩
  | lost => exact h

/-- A cycle that waits, or that is not yet approved. -/
theorem Sound.phase (h : s.Sound) {phase : CyclePhase} (hphase : phase.gated = none) :
    ({ s with phase } : Updating).Sound where
  clicks := ⟨h.clicks.applying, h.clicks.force⟩
  gate version hversion := by
    change version ∈ phase.gated at hversion
    rw [hphase] at hversion
    cases hversion

/-- A cycle that is approved. -/
theorem Sound.approve (h : s.Sound) {phase : CyclePhase} {version : String}
    (hphase : phase.gated = some version) (hallowed : s.Allowed version) :
    ({ s with phase } : Updating).Sound where
  clicks := ⟨h.clicks.applying, h.clicks.force⟩
  gate version' hversion := by
    change version' ∈ phase.gated at hversion
    rw [hphase] at hversion
    cases hversion
    exact hallowed

/-- A click that is answered is allowed to go on. -/
theorem allowed_of_report (h : s.Sound) {version : String} {reply : Reply}
    (hone : reply = .answered → OneUpdate s.hub (some version))
    (hbetween : reply = .answered → s.hub.applying = true →
      s.hub.forceRequested = true ∨ version ∈ s.forced ∨ s.turns = ∅)
    (hclick : ((s.post (some version) false reply).2.1 ||
      (s.post (some version) false reply).2.2) = true) :
    (s.post (some version) false reply).1.Allowed version := by
  cases reply with
  | late => cases hclick
  | lost => cases hclick
  | answered =>
    obtain ⟨-, happlying, hforce⟩ := read_spec h.clicks (hone rfl) false
    by_cases hforced : (s.read (some version) false).2.2 = true
    · exact .inl (hforce hforced version rfl)
    · have happly : (s.read (some version) false).2.1 = true := by
        simpa [post, hforced] using hclick
      obtain ⟨hwas, -⟩ := (s.hub.reportUpdate_spec (some version) false).2.1 happly
      obtain ⟨version', hmem, hversion⟩ := happlying happly
      cases hversion
      rcases hbetween rfl hwas with hforce' | hmem' | hturns
      · -- a click that forces is told of
        refine absurd ?_ hforced
        rw [read, (s.hub.reportUpdate_spec (some version) false).2.2, hforce']
        rfl
      · exact .inl (List.mem_append_left _ hmem')
      · exact .inr ⟨hturns, .inl hmem⟩

/-- What the hub tracks of the turns is no click. -/
theorem Sound.track (h : s.Sound) {hub : UpdateHub} (hsha : hub.updateSha = s.hub.updateSha)
    (happlying : hub.applying = s.hub.applying)
    (hforce : hub.forceRequested = s.hub.forceRequested)
    (hclients : hub.clients = s.hub.clients) : ({ s with hub } : Updating).Sound where
  clicks := by
    refine ⟨?_, ?_⟩
    · rw [happlying, hsha]
      exact h.clicks.applying
    · rw [hforce, hsha]
      exact h.clicks.force
  gate version hversion := (h.gate version hversion).mono (List.Subset.refl _)
    (List.Subset.refl _) (Finset.Subset.refl _) hclients.subset

/-- A click accepts the update the hub shows. -/
theorem ClicksKnown.applied (h : s.ClicksKnown)
    (happly : (s.hub.applying || s.hub.updateSha.isSome) = true) :
    ∃ version ∈ s.accepted ++ s.hub.updateSha.toList, s.hub.updateSha = some version := by
  rcases Bool.or_eq_true _ _ |>.mp happly with hwas | hshown
  · obtain ⟨version, hmem, hsha⟩ := h.applying hwas
    exact ⟨version, List.mem_append_left _ hmem, hsha⟩
  · obtain ⟨version, hsha⟩ := Option.isSome_iff_exists.mp hshown
    exact ⟨version, List.mem_append_right _ (by simp [hsha]), hsha⟩

theorem Sound.applyUpdate (h : s.Sound) : (s.step .applyUpdate).Sound := by
  have hspec := s.hub.applyUpdate_spec
  refine ⟨⟨?_, ?_⟩, fun version hversion => ?_⟩
  · intro happly
    simp only [Updating.step, hspec] at happly ⊢
    exact h.clicks.applied happly
  · intro hforce
    simp only [Updating.step, hspec] at hforce ⊢
    exact h.clicks.force hforce
  · refine (h.gate version hversion).mono (List.Subset.refl _) (List.subset_append_left _ _)
      (Finset.Subset.refl _) ?_
    simp only [Updating.step, hspec, subset_refl]

theorem Sound.forceUpdate (h : s.Sound) : (s.step .forceUpdate).Sound := by
  have hspec := ({ s.hub with forceRequested := true } : UpdateHub).applyUpdate_spec
  refine ⟨⟨?_, ?_⟩, fun version hversion => ?_⟩
  · intro happly
    simp only [Updating.step, UpdateHub.forceUpdate, hspec] at happly ⊢
    exact h.clicks.applied happly
  · intro _
    simp only [Updating.step, UpdateHub.forceUpdate, hspec]
    cases hsha : s.hub.updateSha with
    | none => exact .inl (Bool.or_true _)
    | some version =>
      exact .inr ⟨version, List.mem_append_right _ List.mem_cons_self, rfl⟩
  · refine (h.gate version hversion).mono (List.subset_append_left _ _)
      (List.subset_append_left _ _) (Finset.Subset.refl _) ?_
    simp only [Updating.step, UpdateHub.forceUpdate, hspec, subset_refl]

/-- A report, with what the hub answers to it. -/
theorem Sound.report (h : s.Sound) {reply : Reply} (hkeeps : s.Keeps (.report reply)) :
    (s.step (.report reply)).Sound := by
  have hone : reply = .answered → ∀ sha ∈ s.phase.reports, OneUpdate s.hub sha :=
    fun hreply => (hkeeps hreply).1
  unfold Updating.step
  dsimp only
  split
  · next hphase =>
    exact (h.post false fun hreply => hone hreply none (by rw [hphase]; rfl)).phase rfl
  · next version hphase =>
    have hone' : reply = .answered → OneUpdate s.hub (some version) :=
      fun hreply => hone hreply _ (by rw [hphase]; rfl)
    have hpost : (s.post (some version) false reply).1.Sound := h.post false hone'
    have hbetween : reply = .answered → s.hub.applying = true →
        s.hub.forceRequested = true ∨ version ∈ s.forced ∨ s.turns = ∅ :=
      fun hreply => (hkeeps hreply).2 version (by rw [hphase]; rfl)
    split
    · next hclick => exact hpost.approve rfl (allowed_of_report h hone' hbetween hclick)
    · exact hpost.phase rfl
  · next version hphase =>
    exact (h.post true fun hreply => hone hreply _ (by rw [hphase]; rfl)).phase rfl
  · exact h

/-- **Soundness is kept by the steps that keep the condition.** -/
theorem Sound.step (h : s.Sound) (a : UpdateAction) (hkeeps : s.Keeps a) : (s.step a).Sound := by
  cases a with
  | connect client =>
    refine ⟨⟨h.clicks.applying, h.clicks.force⟩, fun version hversion => ?_⟩
    rcases h.gate version hversion with hforced | ⟨hturns, -⟩
    · exact .inl hforced
    · exact (hkeeps version hversion).imp id fun haccepted => ⟨hturns, .inl haccepted⟩
  | disconnect client =>
    refine ⟨⟨h.clicks.applying, h.clicks.force⟩, fun version hversion => ?_⟩
    exact (h.gate version hversion).mono (List.Subset.refl _) (List.Subset.refl _)
      (Finset.Subset.refl _) (Finset.erase_subset _ _)
  | turnStarts sid =>
    exact ⟨⟨h.clicks.applying, h.clicks.force⟩, fun version hversion =>
      .inl (hkeeps version hversion)⟩
  | turnEnds sid =>
    refine ⟨⟨h.clicks.applying, h.clicks.force⟩, fun version hversion => ?_⟩
    exact (h.gate version hversion).mono (List.Subset.refl _) (List.Subset.refl _)
      (Finset.erase_subset _ _) (Finset.Subset.refl _)
  | setRunning sid on =>
    obtain ⟨hsha, happlying, hforce, hclients⟩ := s.hub.setRunning_update sid on
    exact h.track hsha happlying hforce hclients
  | setInitializing sid on =>
    obtain ⟨hsha, happlying, hforce, hclients⟩ := s.hub.setInitializing_update sid on
    exact h.track hsha happlying hforce hclients
  | applyUpdate => exact h.applyUpdate
  | forceUpdate => exact h.forceUpdate
  | hubRestarts =>
    refine ⟨⟨?_, ?_⟩, fun version hversion => ?_⟩
    · intro happly
      cases happly
    · intro hforce
      cases hforce
    exact (h.gate version hversion).mono (List.Subset.refl _) (List.Subset.refl _)
      (Finset.Subset.refl _) (Finset.empty_subset _)
  | hubReads =>
    unfold Updating.step
    dsimp only
    split
    · exact h
    · next sha applyFailed late hlate =>
      have hone : OneUpdate s.hub sha := hkeeps (sha, applyFailed) (by rw [hlate]; rfl)
      have hrest : ({ s with late } : Updating).Sound :=
        ⟨⟨h.clicks.applying, h.clicks.force⟩, h.gate⟩
      exact hrest.read hone applyFailed
  | checked result =>
    unfold Updating.step
    dsimp only
    split
    · match result with
      | none => exact h
      | some none => exact h.phase rfl
      | some (some version) => exact h.phase rfl
    · exact h
  | sampled answered =>
    unfold Updating.step
    dsimp only
    split
    · next version _ =>
      split
      · next hidle =>
        obtain ⟨hturns, hclients⟩ := hkeeps hidle
        exact h.approve rfl (.inr ⟨hturns, .inr hclients⟩)
      · exact h.phase rfl
    · exact h
  | report reply => exact h.report hkeeps
  | begin stop =>
    unfold Updating.step
    dsimp only
    split
    · next version hphase =>
      split
      · exact h.phase rfl
      · exact h.approve rfl (h.gate version (by rw [hphase]; rfl))
    · exact h
  | downloaded ok =>
    unfold Updating.step
    dsimp only
    split
    · cases ok <;> exact h.phase rfl
    · exact h

end Steps

/-! ### Runs -/

/-- The shell starts, with the turns that run already. -/
def boot (turns : Finset String) : Updating := { turns }

/-- A check that finds an update, a sample that finds nobody, and the install. -/
def quietUpdate : List UpdateAction :=
  [.checked (some (some "2.0")), .sampled true, .begin false, .downloaded true]

end Updating

end Pantoken.Desktop
