import Mathlib.Data.List.Induction
import Pantoken.Protocol.State

/-!
# What every folded state satisfies

The reducer stores a widget under its own key and never with an empty list of lines,
queues a dialog at most once and nothing but dialogs, and never leaves a cleared goal
behind.  These are the facts a re-encoding of the state as events relies on.

## Main definitions

* `SessionState.Regular` — the invariant.

## Main results

* `regular_foldEvent`, `regular_foldAll` — **every folded state is regular.**
-/

namespace Pantoken

/-- The ambient part of the invariant. -/
structure AmbientState.Regular (a : AmbientState) : Prop where
  statuses : a.statuses.Finite
  widgets : a.widgets.Finite
  /-- A widget is stored under its own key and has lines. -/
  widget : ∀ k w, a.widgets k = some w → w.key = k ∧ w.lines ≠ []

/-- The invariant of the reducer. -/
structure SessionState.Regular (s : SessionState) : Prop where
  ambient : s.ambient.Regular
  /-- Nothing but dialogs waits for an answer. -/
  dialogs : ∀ r ∈ s.pendingApprovals, isDialogRequest r = true
  /-- No dialog waits twice. -/
  nodup : (s.pendingApprovals.map (·.requestId)).Nodup
  /-- A cleared goal is forgotten. -/
  goal : s.goal ≠ some none

theorem regular_ambient_default : AmbientState.default.Regular where
  statuses := PMap.finite_empty
  widgets := PMap.finite_empty
  widget := by simp [AmbientState.default]

theorem regular_initialSessionState : initialSessionState.Regular where
  ambient := regular_ambient_default
  dialogs := by simp [initialSessionState]
  nodup := List.nodup_nil
  goal := by simp [initialSessionState]

/-- The invariant reads three fields. -/
theorem SessionState.Regular.of_eq {s s' : SessionState} (h : s.Regular)
    (ha : s'.ambient = s.ambient) (hp : s'.pendingApprovals = s.pendingApprovals)
    (hg : s'.goal = s.goal) : s'.Regular where
  ambient := by rw [ha]; exact h.ambient
  dialogs := by rw [hp]; exact h.dialogs
  nodup := by rw [hp]; exact h.nodup
  goal := by rw [hg]; exact h.goal

/-! ### One step -/

section Step

variable {s : SessionState}

theorem foldSnapshot_ambient (s : SessionState) (snapshot : SessionSnapshot) (ts : String) :
    (foldSnapshot s snapshot ts).ambient = s.ambient := by
  unfold foldSnapshot
  split <;> rfl

theorem foldSnapshot_pendingApprovals (s : SessionState) (snapshot : SessionSnapshot)
    (ts : String) : (foldSnapshot s snapshot ts).pendingApprovals = s.pendingApprovals := by
  unfold foldSnapshot
  split <;> rfl

theorem foldSnapshot_goal_ne (h : s.goal ≠ some none) (snapshot : SessionSnapshot) (ts : String) :
    (foldSnapshot s snapshot ts).goal ≠ some none := by
  have hgoal : (foldSnapshot s snapshot ts).goal = (applySnapshot s snapshot).goal := by
    unfold foldSnapshot
    split <;> rfl
  rw [hgoal]
  rcases hs : snapshot.goal with _ | _ | g <;> simp [applySnapshot, hs, h]

theorem SessionState.Regular.foldSnapshot (h : s.Regular) (snapshot : SessionSnapshot)
    (ts : String) : (foldSnapshot s snapshot ts).Regular where
  ambient := by rw [foldSnapshot_ambient]; exact h.ambient
  dialogs := by rw [foldSnapshot_pendingApprovals]; exact h.dialogs
  nodup := by rw [foldSnapshot_pendingApprovals]; exact h.nodup
  goal := foldSnapshot_goal_ne h.goal snapshot ts

theorem AmbientState.Regular.foldStatus {a : AmbientState} (h : a.Regular) (key : String)
    (text : Option String) : ({ a with statuses := foldStatus a.statuses key text }).Regular where
  statuses := by
    cases text with
    | none => exact h.statuses.erase key
    | some t => exact h.statuses.insert key t
  widgets := h.widgets
  widget := h.widget

theorem AmbientState.Regular.foldWidget {a : AmbientState} (h : a.Regular) (key : String)
    (lines : Option (List String)) (placement : Option WidgetPlacement) :
    ({ a with widgets := foldWidget a.widgets key lines placement }).Regular where
  statuses := h.statuses
  widgets := by
    rcases lines with _ | _ | ⟨l, ls⟩
    · exact h.widgets.erase key
    · exact h.widgets.erase key
    · exact h.widgets.insert key _
  widget := by
    intro k w hw
    by_cases hk : k = key
    · subst hk
      rcases lines with _ | _ | ⟨l, ls⟩
      · simp [Pantoken.foldWidget] at hw
      · simp [Pantoken.foldWidget] at hw
      · simp only [Pantoken.foldWidget, PMap.insert_self, Option.some.injEq] at hw
        subst hw
        exact ⟨rfl, List.cons_ne_nil _ _⟩
    · rcases lines with _ | _ | ⟨l, ls⟩ <;>
        exact h.widget k w (by simpa [Pantoken.foldWidget, hk] using hw)

/-- A dialog joins the queue when its id is not there yet. -/
theorem SessionState.Regular.foldHostUiRequest (h : s.Regular) (request : HostUiRequest) :
    (foldHostUiRequest s request).Regular := by
  unfold Pantoken.foldHostUiRequest
  split
  · next hd =>
    split
    · exact h
    · next hnew =>
      simp only [List.any_eq_true, decide_eq_true_eq, not_exists, not_and] at hnew
      exact
        { ambient := h.ambient
          dialogs := by
            intro r hr
            rcases List.mem_append.mp hr with hr | hr
            · exact h.dialogs r hr
            · rw [List.mem_singleton.mp hr]
              exact hd
          nodup := by
            rw [List.map_append, List.nodup_append]
            refine ⟨h.nodup, List.nodup_singleton _, fun i hi i' hi' => ?_⟩
            obtain ⟨r, hr, rfl⟩ := List.mem_map.mp hi
            rw [List.mem_singleton.mp hi']
            exact hnew r hr
          goal := h.goal }
  · split
    · exact ⟨h.ambient.foldStatus _ _, h.dialogs, h.nodup, h.goal⟩
    · exact ⟨h.ambient.foldWidget _ _ _, h.dialogs, h.nodup, h.goal⟩
    · exact ⟨⟨h.ambient.statuses, h.ambient.widgets, h.ambient.widget⟩, h.dialogs, h.nodup, h.goal⟩
    · exact h.of_eq rfl rfl rfl
    · exact ⟨regular_ambient_default, h.dialogs, h.nodup, h.goal⟩
    · exact h

/-- The reducer keeps the invariant. -/
theorem regular_foldEvent (h : s.Regular) (ev : SessionDriverEvent) : (foldEvent s ev).Regular := by
  cases ev with
  | sessionOpened base snapshot => exact h.foldSnapshot snapshot _
  | sessionUpdated base snapshot => exact h.foldSnapshot snapshot _
  | runCompleted base snapshot u a =>
    exact (h.foldSnapshot snapshot base.timestamp).of_eq rfl rfl rfl
  | hostUiRequest base request => exact h.foldHostUiRequest request
  | hostUiResolved base requestId =>
    exact
      { ambient := h.ambient
        dialogs := fun r hr => h.dialogs r (List.mem_filter.mp hr).1
        nodup := h.nodup.sublist (List.filter_sublist.map _)
        goal := h.goal }
  | assistantDelta | queuedMessageStarted | queueUpdated | userMessage | customMessage
  | toolStarted | toolUpdated | toolFinished | usageUpdated | runFailed
  | extensionCompatibilityIssue | sessionClosed | sessionReset => exact h.of_eq rfl rfl rfl

end Step

/-- **Every folded state is regular.** -/
theorem regular_foldAll (evs : List SessionDriverEvent) : (foldAll evs).Regular := by
  induction evs using List.reverseRecOn with
  | nil => exact regular_initialSessionState
  | append_singleton evs ev ih =>
    rw [foldAll_concat]
    exact regular_foldEvent ih ev

end Pantoken
