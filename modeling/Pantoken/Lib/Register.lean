import Mathlib.Data.List.Basic
import Mathlib.Data.List.Induction

/-!
# Registers

A register holds a value that some of the events of a stream overwrite.  After a stream it
holds what the last of these wrote, or what it held before when there was none.  A flag is
raised by some events, which may depend on what came before them, and lowered by others.

## Main definitions

* `write f` — one event on a register: `f` gives what the event writes, if it does.
* `lastWrite f` — what the last write of a stream wrote.
* `Since P stop` — an event met `P` after its past, and none since then met `stop`.

## Main results

* `foldl_write` — **a stream leaves its last write in the register.**
* `since_concat` — **a flag after one more event.**
-/

namespace Pantoken.Register

variable {ε β : Type*}

/-- An event on a register. -/
def write (f : ε → Option β) (b : β) (e : ε) : β := (f e).getD b

/-- What the last write of a stream wrote. -/
def lastWrite (f : ε → Option β) (es : List ε) : Option β := (es.filterMap f).getLast?

@[simp] theorem lastWrite_nil (f : ε → Option β) : lastWrite f [] = none := rfl

theorem lastWrite_concat (f : ε → Option β) (es : List ε) (e : ε) :
    lastWrite f (es ++ [e]) = (f e).or (lastWrite f es) := by
  unfold lastWrite
  rw [List.filterMap_append]
  cases he : f e <;> simp [he]

/-- **A stream leaves its last write in the register.** -/
theorem foldl_write (f : ε → Option β) (b : β) (es : List ε) :
    es.foldl (write f) b = (lastWrite f es).getD b := by
  induction es using List.reverseRecOn with
  | nil => rfl
  | append_singleton es e ih =>
    rw [List.foldl_append, ih, lastWrite_concat, List.foldl_cons, List.foldl_nil, write]
    cases f e <;> rfl

/-! ### Flags -/

section Since

variable {P Q : List ε → ε → Prop} {stop : ε → Prop} {es : List ε} {e : ε}

/-- Some event met `P`, which reads what was before it, and no event since then met `stop`. -/
def Since (P : List ε → ε → Prop) (stop : ε → Prop) (es : List ε) : Prop :=
  ∃ pre e post, es = pre ++ e :: post ∧ P pre e ∧ ∀ e' ∈ post, ¬ stop e'

theorem not_since_nil : ¬ Since P stop [] := by
  rintro ⟨pre, e, post, h, -⟩
  exact List.append_ne_nil_of_right_ne_nil pre (List.cons_ne_nil e post) h.symm

/-- **A flag after one more event**: it is raised by this one, or was up and is left so. -/
theorem since_concat : Since P stop (es ++ [e]) ↔ P es e ∨ ¬ stop e ∧ Since P stop es := by
  constructor
  · rintro ⟨pre, e', post, h, hP, hstop⟩
    rcases List.eq_nil_or_concat' post with rfl | ⟨post, last, rfl⟩
    · obtain ⟨rfl, heq⟩ := List.append_inj' h rfl
      cases heq
      exact .inl hP
    · rw [← List.cons_append, ← List.append_assoc] at h
      obtain ⟨rfl, heq⟩ := List.append_inj' h rfl
      cases heq
      exact .inr ⟨hstop _ (by simp), pre, e', post, rfl, hP,
        fun b hb => hstop b (List.mem_append_left _ hb)⟩
  · rintro (hP | ⟨hstop, pre, e', post, rfl, hP, hpost⟩)
    · exact ⟨es, e, [], rfl, hP, fun _ h => absurd h List.not_mem_nil⟩
    · refine ⟨pre, e', post ++ [e], by simp, hP, fun b hb => ?_⟩
      rcases List.mem_append.mp hb with hb | hb
      · exact hpost b hb
      · rwa [List.mem_singleton.mp hb]

theorem Since.mono (hPQ : ∀ pre e, P pre e → Q pre e) (h : Since P stop es) : Since Q stop es := by
  obtain ⟨pre, e, post, heq, hP, hstop⟩ := h
  exact ⟨pre, e, post, heq, hPQ pre e hP, hstop⟩

end Since

end Pantoken.Register
