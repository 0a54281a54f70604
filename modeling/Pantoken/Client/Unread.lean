import Pantoken.Lib.Register
import Pantoken.Server.Status

/-!
# The unseen mark of a host

The client marks a host that is not selected when its session status shows something new: a
session that is not running any more, or an attention item that waits or failed.  What is new
is read off the last status and flags kept from the one before; the first status is a baseline.

## Main definitions

* `applySessionStatus`, `clearOnSelect` — the transitions of the mark.
* `Action`, `step` — statuses, selections and deselections of a host.
* `Alerts`, `Notices` — what calls for the mark between two statuses, and what the code sees.

## Main results

* `unseen_iff` — the mark is up where something was noticed since the host was last selected.
* `marked_iff_iff` — **the mark is up for the right reasons exactly when something was noticed
  wherever anything called for it.**
-/

namespace Pantoken.Client.Unread

open Register

/-- `UnreadState` -/
structure UnreadState where
  running : Bool
  unseen : Bool
  waiting : Bool
  failed : Bool
  /-- The first status has come. -/
  baselined : Bool
  prevRunningIds : List SessionId
  deriving DecidableEq

/-- `initialUnreadState` -/
def initialUnreadState : UnreadState :=
  ⟨false, false, false, false, false, []⟩

/-- The fields of a status that the mark is derived from. -/
structure SessionStatus where
  runningIds : List SessionId
  initializingIds : Option (List SessionId)
  attention : Option (List SessionAttention)

/-- Some item has the phase. -/
def hasPhase (phase : SessionAttentionPhase) (attention : List SessionAttention) : Bool :=
  attention.any (·.phase = phase)

/-- `deriveAttention`, of a status. -/
def SessionStatus.has (status : SessionStatus) (phase : SessionAttentionPhase) : Bool :=
  hasPhase phase (status.attention.getD [])

/-- `applySessionStatus` -/
def applySessionStatus (prev : UnreadState) (status : SessionStatus) (isActiveHost : Bool) :
    UnreadState :=
  let waiting := status.has .waiting
  let failed := status.has .failed
  let running := !status.runningIds.isEmpty || !(status.initializingIds.getD []).isEmpty
  -- the first status is the baseline: nothing in it is new
  if !prev.baselined then ⟨running, false, waiting, failed, true, status.runningIds⟩
  else
    let completed := prev.prevRunningIds.any fun id => !status.runningIds.contains id
    let unseen := prev.unseen ||
      !isActiveHost && (completed || waiting && !prev.waiting || failed && !prev.failed)
    ⟨running, unseen, waiting, failed, true, status.runningIds⟩

/-- `clearOnSelect` -/
def clearOnSelect (prev : UnreadState) : UnreadState := { prev with unseen := false }

/-- A host, and whether it is the selected one. -/
structure Host where
  unread : UnreadState
  selected : Bool

inductive Action
  | status (status : SessionStatus)
  | select
  | deselect

/-- What the coordinator does with the mark of a host. -/
def Host.step (host : Host) : Action → Host
  | .status status => { host with unread := applySessionStatus host.unread status host.selected }
  | .select => ⟨clearOnSelect host.unread, true⟩
  | .deselect => { host with selected := false }

/-- A host that is listed, as the selected one or not. -/
def Host.init (selected : Bool) : Host := ⟨initialUnreadState, selected⟩

def Host.run (selected : Bool) (acts : List Action) : Host := acts.foldl Host.step (.init selected)

/-! ### What calls for the mark -/

/-- A session that was running is not any more. -/
def Leaves (last status : SessionStatus) : Prop := ∃ id ∈ last.runningIds, id ∉ status.runningIds

/-- An item that waits or failed is new or changed. -/
def Urges (last status : SessionStatus) : Prop :=
  ∃ item ∈ status.attention.getD [],
    (item.phase = .waiting ∨ item.phase = .failed) ∧ item ∉ last.attention.getD []

def Alerts (last status : SessionStatus) : Prop := Leaves last status ∨ Urges last status

/-- What the code sees of it: a phase no item had. -/
def Notices (last status : SessionStatus) : Prop :=
  Leaves last status ∨ (status.has .waiting = true ∧ last.has .waiting = false) ∨
    (status.has .failed = true ∧ last.has .failed = false)

/-- The last status of a host. -/
def lastStatus (acts : List Action) : Option SessionStatus :=
  lastWrite (fun | .status status => some status | _ => none) acts

/-- Whether the host is selected. -/
def selectedAfter (selected : Bool) (acts : List Action) : Bool :=
  (lastWrite (fun
    | .status _ => none
    | .select => some true
    | .deselect => some false) acts).getD selected

/-- A status came while the host was not selected, and it and the one before it met `P`. -/
def Unselected (selected : Bool) (P : SessionStatus → SessionStatus → Prop)
    (pre : List Action) : Action → Prop
  | .status status =>
    selectedAfter selected pre = false ∧ ∃ last, lastStatus pre = some last ∧ P last status
  | _ => False

/-- It did so since the host was last selected. -/
def SinceSelected (selected : Bool) (P : SessionStatus → SessionStatus → Prop)
    (acts : List Action) : Prop :=
  Since (Unselected selected P) (fun | .select => True | _ => False) acts

section Run

variable {selected : Bool} {acts : List Action}

@[simp] theorem Host.run_concat (a : Action) :
    Host.run selected (acts ++ [a]) = (Host.run selected acts).step a := by
  rw [Host.run, List.foldl_append]
  rfl

theorem selected_run : (Host.run selected acts).selected = selectedAfter selected acts := by
  induction acts using List.reverseRecOn with
  | nil => rfl
  | append_singleton acts a ih =>
    rw [Host.run_concat, selectedAfter, lastWrite_concat]
    cases a with
    | status status => exact ih
    | select => rfl
    | deselect => rfl

/-- What is kept of the last status. -/
structure Keeps (unread : UnreadState) (last : Option SessionStatus) : Prop where
  baselined : unread.baselined = last.isSome
  running : ∀ status, last = some status → unread.prevRunningIds = status.runningIds
  waiting : ∀ status, last = some status → unread.waiting = status.has .waiting
  failed : ∀ status, last = some status → unread.failed = status.has .failed
  fresh : last = none → unread.unseen = false

theorem keeps_applySessionStatus (prev : UnreadState) (status : SessionStatus) (active : Bool) :
    Keeps (applySessionStatus prev status active) (some status) := by
  unfold applySessionStatus
  cases prev.baselined <;>
  · refine ⟨rfl, ?_, ?_, ?_, by rintro ⟨⟩⟩ <;>
    · rintro _ ⟨⟩
      rfl

theorem keeps_run : Keeps (Host.run selected acts).unread (lastStatus acts) := by
  induction acts using List.reverseRecOn with
  | nil => exact ⟨rfl, by rintro _ ⟨⟩, by rintro _ ⟨⟩, by rintro _ ⟨⟩, fun _ => rfl⟩
  | append_singleton acts a ih =>
    rw [Host.run_concat, lastStatus, lastWrite_concat]
    cases a with
    | status status => exact keeps_applySessionStatus _ _ _
    | select => exact ⟨ih.baselined, ih.running, ih.waiting, ih.failed, fun _ => rfl⟩
    | deselect => exact ih

/-- **One status**: the mark stays up, or goes up for what the code sees. -/
theorem unseen_applySessionStatus {prev : UnreadState} {last : Option SessionStatus}
    (h : Keeps prev last) (status : SessionStatus) (active : Bool) :
    (applySessionStatus prev status active).unseen = true ↔
      prev.unseen = true ∨
        (active = false ∧ ∃ last', last = some last' ∧ Notices last' status) := by
  unfold applySessionStatus
  cases last with
  | none =>
    -- a baseline leaves the mark down, as it was
    rw [h.baselined, h.fresh rfl]
    simp
  | some last =>
    rw [h.baselined, h.running last rfl, h.waiting last rfl, h.failed last rfl]
    simp [Notices, Leaves, or_assoc]

/-- **The mark is up where something was noticed** since the host was last selected. -/
theorem unseen_iff : (Host.run selected acts).unread.unseen = true ↔
    SinceSelected selected Notices acts := by
  induction acts using List.reverseRecOn with
  | nil => exact iff_of_false Bool.false_ne_true not_since_nil
  | append_singleton acts a ih =>
    -- the last action notices something, or the mark was up and is not cleared
    rw [Host.run_concat, SinceSelected, since_concat]
    cases a with
    | status status =>
      rw [Host.step, unseen_applySessionStatus keeps_run, ih, selected_run, or_comm, not_false_iff,
        true_and]
      rfl
    | select => exact iff_of_false Bool.false_ne_true (by rintro (⟨⟨⟩⟩ | ⟨h, -⟩); exact h trivial)
    | deselect =>
      rw [Host.step, ih, not_false_iff, true_and]
      exact (or_iff_right id).symm

/-- What the code notices is something. -/
theorem alerts_of_notices {last status : SessionStatus} (h : Notices last status) :
    Alerts last status := by
  -- an item of a phase that no item had is a new one
  have hnew : ∀ phase, status.has phase = true → last.has phase = false →
      ∃ item ∈ status.attention.getD [], item.phase = phase ∧ item ∉ last.attention.getD [] := by
    intro phase hhas hlast
    obtain ⟨item, hitem, hphase⟩ := List.any_eq_true.mp hhas
    refine ⟨item, hitem, of_decide_eq_true hphase, fun hmem => ?_⟩
    exact List.any_eq_false.mp hlast item hmem hphase
  rcases h with h | ⟨hwaiting, hlast⟩ | ⟨hfailed, hlast⟩
  · exact .inl h
  · obtain ⟨item, hitem, hphase, hnot⟩ := hnew .waiting hwaiting hlast
    exact .inr ⟨item, hitem, .inl hphase, hnot⟩
  · obtain ⟨item, hitem, hphase, hnot⟩ := hnew .failed hfailed hlast
    exact .inr ⟨item, hitem, .inr hphase, hnot⟩

theorem SinceSelected.mono {P Q : SessionStatus → SessionStatus → Prop}
    (hPQ : ∀ last status, P last status → Q last status) (h : SinceSelected selected P acts) :
    SinceSelected selected Q acts := by
  refine Since.mono (fun pre a => ?_) h
  cases a with
  | status status => exact fun ⟨hsel, last, hlast, hP⟩ => ⟨hsel, last, hlast, hPQ last status hP⟩
  | select => exact id
  | deselect => exact id

end Run

/-- **The mark is up for the right reasons exactly when something was noticed wherever anything
called for it.** -/
theorem marked_iff_iff (selected : Bool) (acts : List Action) :
    ((Host.run selected acts).unread.unseen = true ↔ SinceSelected selected Alerts acts) ↔
      (SinceSelected selected Alerts acts → SinceSelected selected Notices acts) := by
  rw [unseen_iff]
  exact ⟨fun h => h.mpr, fun h => ⟨SinceSelected.mono fun _ _ => alerts_of_notices, h⟩⟩

/-- An item that waits on the user. -/
def waitingItem (id : SessionId) : SessionAttention :=
  ⟨id, .waiting, some "Waiting on you", some 1, some "Run it?", ""⟩

/-- Behind one session that waits, another that begins to wait is not noticed. -/
theorem not_marked : ¬ ((Host.run false
      [.status ⟨[], none, some [waitingItem "s1"]⟩,
        .status ⟨[], none, some [waitingItem "s1", waitingItem "s2"]⟩]).unread.unseen = true ↔
    SinceSelected false Alerts
      [.status ⟨[], none, some [waitingItem "s1"]⟩,
        .status ⟨[], none, some [waitingItem "s1", waitingItem "s2"]⟩]) := by
  intro h
  refine absurd (h.mpr ?_) (by decide)
  refine ⟨[.status ⟨[], none, some [waitingItem "s1"]⟩], _, [], rfl, ⟨rfl, _, rfl, .inr ?_⟩,
    fun _ hmem => absurd hmem List.not_mem_nil⟩
  exact ⟨waitingItem "s2", by decide, .inl rfl, by decide⟩

end Pantoken.Client.Unread
