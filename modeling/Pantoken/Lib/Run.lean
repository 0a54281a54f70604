import Mathlib.Data.List.Induction
import Mathlib.Order.WellFounded

/-!
# Runs of a machine

A machine is a step function `σ → α → σ`, a run of it a left fold.  A condition on a
step reads the state before the step and the action taken; `Along` says that every step
of a run meets it.

## Main definitions

* `Along` — every step of a run meets a condition.
* `trace` — the states of a run that does not end.

## Main results

* `foldl_invariant`, `Along.foldl_invariant` — the invariant rule, for all runs and for
  those whose steps meet a condition.
* `along_iff_foldl_eq` — **two machines agree after every part of a run exactly when every
  step of it meets the condition under which a step of both is the same.**
* `along_iff_forall_part` — **every state of a run is good exactly when every step of it
  meets the condition under which a step keeps good states good.**
* `along_iff_forall_part_of` — the same through an invariant stronger than the property.
* `along_iff_along` — the same for a property of steps.
* `trace_eventually` — **a rank that no step raises and each fair step lowers reaches the
  goal.**
-/

namespace Pantoken

variable {σ α : Type*} {step step' : σ → α → σ} {C : σ → α → Prop} {I : σ → Prop}

/-- Every step of the run from `s` meets `C`, which reads the state before the step. -/
def Along (step : σ → α → σ) (C : σ → α → Prop) : σ → List α → Prop
  | _, [] => True
  | s, a :: as => C s a ∧ Along step C (step s a) as

@[simp] theorem along_nil (s : σ) : Along step C s [] ↔ True := Iff.rfl

@[simp] theorem along_cons (s : σ) (a : α) (as : List α) :
    Along step C s (a :: as) ↔ C s a ∧ Along step C (step s a) as := Iff.rfl

instance Along.decidable (step : σ → α → σ) (C : σ → α → Prop) [∀ s a, Decidable (C s a)] :
    ∀ (s : σ) (as : List α), Decidable (Along step C s as)
  | _, [] => isTrue trivial
  | s, a :: as =>
    have : Decidable (Along step C (step s a) as) := Along.decidable step C (step s a) as
    inferInstanceAs (Decidable (C s a ∧ Along step C (step s a) as))

/-- A run in two parts. -/
theorem along_append {s : σ} {as bs : List α} :
    Along step C s (as ++ bs) ↔ Along step C s as ∧ Along step C (as.foldl step s) bs := by
  induction as generalizing s with
  | nil => simp
  | cons a as ih => rw [List.cons_append, along_cons, along_cons, ih, List.foldl_cons, and_assoc]

/-- A part of a run whose steps meet the condition. -/
theorem Along.of_append {s : σ} {as bs : List α} (h : Along step C s (as ++ bs)) :
    Along step C s as :=
  (along_append.mp h).1

/-- Two conditions that every step of a run meets. -/
theorem Along.and {D : σ → α → Prop} {s : σ} {as : List α} (hC : Along step C s as)
    (hD : Along step D s as) : Along step (fun s a => C s a ∧ D s a) s as := by
  induction as generalizing s with
  | nil => trivial
  | cons a as ih => exact ⟨⟨hC.1, hD.1⟩, ih hC.2 hD.2⟩

/-- What every step keeps, every run keeps. -/
theorem foldl_invariant (hstep : ∀ s a, I s → I (step s a)) {s : σ} (h : I s) (as : List α) :
    I (as.foldl step s) := by
  induction as generalizing s with
  | nil => exact h
  | cons a as ih => exact ih (hstep s a h)

/-- What every step under the condition keeps, every run under the condition keeps. -/
theorem Along.foldl_invariant (hstep : ∀ s a, I s → C s a → I (step s a)) {s : σ} (h : I s)
    {as : List α} (hC : Along step C s as) : I (as.foldl step s) := by
  induction as generalizing s with
  | nil => exact h
  | cons a as ih => exact ih (hstep s a h hC.1) hC.2

/-- What holds of a step in every state under the condition holds of every step of a run
under it. -/
theorem Along.mono {P : σ → α → Prop} (hstep : ∀ s a, I s → C s a → I (step s a))
    (hP : ∀ s a, I s → C s a → P s a) {s : σ} (h : I s) {as : List α} (hC : Along step C s as) :
    Along step P s as := by
  induction as generalizing s with
  | nil => trivial
  | cons a as ih => exact ⟨hP s a h hC.1, ih (hstep s a h hC.1) hC.2⟩

/-- **Two machines agree after every part of a run exactly when every step of it meets
the condition under which a step of both is the same.** -/
theorem along_iff_foldl_eq (hI : ∀ s a, I s → C s a → I (step s a))
    (hC : ∀ s a, I s → (C s a ↔ step s a = step' s a)) {s : σ} (h : I s) (as : List α) :
    Along step C s as ↔ ∀ pre, pre <+: as → pre.foldl step s = pre.foldl step' s := by
  induction as generalizing s with
  | nil => simp
  | cons a as ih =>
    rw [along_cons]
    constructor
    · rintro ⟨ha, hrest⟩ pre hpre
      cases pre with
      | nil => rfl
      | cons b pre =>
        obtain ⟨rfl, hpre'⟩ := List.cons_prefix_cons.mp hpre
        rw [List.foldl_cons, List.foldl_cons, ← (hC s b h).mp ha]
        exact (ih (hI s b h ha)).mp hrest pre hpre'
    · intro hall
      have heq : step s a = step' s a := hall [a] (by simp)
      have ha : C s a := (hC s a h).mpr heq
      refine ⟨ha, (ih (hI s a h ha)).mpr fun pre hpre => ?_⟩
      have := hall (a :: pre) (List.cons_prefix_cons.mpr ⟨rfl, hpre⟩)
      rwa [List.foldl_cons, List.foldl_cons, ← heq] at this

/-- **Every state of a run has a property exactly when every step of it meets the
condition**, given an invariant that steps under the condition keep, that implies the
property, and from which a step without the condition loses it. -/
theorem along_iff_forall_part_of {P : σ → Prop} (hI : ∀ s a, I s → C s a → I (step s a))
    (hP : ∀ s, I s → P s) (hC : ∀ s a, I s → P (step s a) → C s a) {s : σ} (h : I s)
    (as : List α) : Along step C s as ↔ ∀ pre, pre <+: as → P (pre.foldl step s) := by
  induction as generalizing s with
  | nil => simp [hP s h]
  | cons a as ih =>
    rw [along_cons]
    constructor
    · rintro ⟨ha, hrest⟩ pre hpre
      cases pre with
      | nil => exact hP s h
      | cons b pre =>
        obtain ⟨rfl, hpre'⟩ := List.cons_prefix_cons.mp hpre
        exact (ih (hI s b h ha)).mp hrest pre hpre'
    · intro hall
      have ha : C s a := hC s a h (hall [a] (by simp))
      refine ⟨ha, (ih (hI s a h ha)).mpr fun pre hpre => ?_⟩
      exact hall (a :: pre) (List.cons_prefix_cons.mpr ⟨rfl, hpre⟩)

/-- **Every state of a run is good exactly when every step of it meets the condition under
which a step keeps good states good.** -/
theorem along_iff_forall_part (hC : ∀ s a, I s → (C s a ↔ I (step s a))) {s : σ} (h : I s)
    (as : List α) : Along step C s as ↔ ∀ pre, pre <+: as → I (pre.foldl step s) :=
  along_iff_forall_part_of (fun s a hs => (hC s a hs).mp) (fun _ hs => hs)
    (fun s a hs => (hC s a hs).mpr) h as

/-- **Two conditions are met by the same runs** where they are the same as long as one of
them keeps an invariant. -/
theorem along_iff_along {P : σ → α → Prop} (hI : ∀ s a, I s → C s a → I (step s a))
    (hC : ∀ s a, I s → (C s a ↔ P s a)) {s : σ} (h : I s) (as : List α) :
    Along step C s as ↔ Along step P s as := by
  induction as generalizing s with
  | nil => exact Iff.rfl
  | cons a as ih =>
    rw [along_cons, along_cons, ← hC s a h]
    exact and_congr_right fun ha => ih (hI s a h ha)

/-! ### Runs without end -/

/-- The states of a run without end. -/
def trace (step : σ → α → σ) (s : σ) (acts : ℕ → α) : ℕ → σ
  | 0 => s
  | n + 1 => step (trace step s acts n) (acts n)

theorem trace_succ (s : σ) (acts : ℕ → α) (n : ℕ) :
    trace step s acts (n + 1) = step (trace step s acts n) (acts n) := rfl

/-- What every step under the condition keeps, a run without end keeps. -/
theorem trace_invariant (hstep : ∀ s a, I s → C s a → I (step s a)) {s : σ} (h : I s)
    {acts : ℕ → α} (hC : ∀ n, C (trace step s acts n) (acts n)) (n : ℕ) :
    I (trace step s acts n) := by
  induction n with
  | zero => exact h
  | succ n ih => exact hstep _ _ ih (hC n)

/-- **A rank that no step raises and each fair step lowers reaches the goal**: a run with a
fair step again and again comes to a step that is the goal, and what is kept until then
still holds there. -/
theorem trace_eventually {β : Type*} [Preorder β] [WellFoundedLT β] {K Goal Fair : σ → α → Prop}
    {P : σ → Prop} (rank : σ → β)
    (hstep : ∀ s a, K s a → P s → ¬ Goal s a →
      P (step s a) ∧ rank (step s a) ≤ rank s ∧ (Fair s a → rank (step s a) < rank s))
    {s : σ} {acts : ℕ → α} (hK : ∀ n, K (trace step s acts n) (acts n))
    (hfair : ∀ n, ∃ m, n ≤ m ∧ Fair (trace step s acts m) (acts m)) {n : ℕ}
    (hP : P (trace step s acts n)) :
    ∃ m, n ≤ m ∧ P (trace step s acts m) ∧ Goal (trace step s acts m) (acts m) := by
  generalize hr : rank (trace step s acts n) = r
  induction r using WellFoundedLT.induction generalizing n with
  | ind r ih =>
    by_contra hnone
    -- until the goal, what is kept is kept and the rank does not rise
    have hkeep : ∀ m, n ≤ m → P (trace step s acts m) ∧ rank (trace step s acts m) ≤ r := by
      intro m hm
      induction m, hm using Nat.le_induction with
      | base => exact ⟨hP, hr.le⟩
      | succ m hm hkept =>
        have hgoal : ¬ Goal (trace step s acts m) (acts m) := by
          intro hgoal
          exact hnone ⟨m, hm, hkept.1, hgoal⟩
        obtain ⟨hp, hle, -⟩ := hstep _ _ (hK m) hkept.1 hgoal
        exact ⟨hp, hle.trans hkept.2⟩
    obtain ⟨m, hm, hfairm⟩ := hfair n
    have hkept := hkeep m hm
    have hgoal : ¬ Goal (trace step s acts m) (acts m) := by
      intro hgoal
      exact hnone ⟨m, hm, hkept.1, hgoal⟩
    obtain ⟨hp, -, hlt⟩ := hstep _ _ (hK m) hkept.1 hgoal
    have hp' : P (trace step s acts (m + 1)) := hp
    obtain ⟨k, hk, hpk, hgoalk⟩ := ih _ ((hlt hfairm).trans_le hkept.2) hp' rfl
    exact hnone ⟨k, by omega, hpk, hgoalk⟩

end Pantoken
