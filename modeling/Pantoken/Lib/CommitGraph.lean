import Mathlib.Logic.Relation

/-!
# Commits

A commit holds a tree and names the commits before it.  A repository keeps the commits that are
reached from its roots, its branches and heads; the roots move, and what stays reached is a
question about the roots alone.

## Main definitions

* `Commit` — a commit, by what it holds.
* `Commit.Reached` — what is reached from the roots.

## Main results

* `Commit.Reached.of_roots` — roots that are reached again lose nothing.
* `Commit.reached_of_parents_nil` — what is reached from a first commit.
-/

namespace Pantoken

/-- A commit: what it holds, and the commits before it. -/
inductive Commit (T : Type*) where
  | mk (tree : T) (parents : List (Commit T))

namespace Commit

variable {T : Type*} {roots roots' : Commit T → Prop} {c p r : Commit T}

def tree : Commit T → T
  | mk tree _ => tree

def parents : Commit T → List (Commit T)
  | mk _ parents => parents

@[simp] theorem tree_mk (t : T) (ps : List (Commit T)) : (mk t ps).tree = t := rfl

@[simp] theorem parents_mk (t : T) (ps : List (Commit T)) : (mk t ps).parents = ps := rfl

/-- The commit is reached from a root. -/
def Reached (roots : Commit T → Prop) (c : Commit T) : Prop :=
  ∃ r, roots r ∧ Relation.ReflTransGen (fun a b => b ∈ a.parents) r c

theorem Reached.root (h : roots r) : Reached roots r := ⟨r, h, .refl⟩

theorem Reached.parent (h : Reached roots c) (hp : p ∈ c.parents) : Reached roots p := by
  obtain ⟨r, hr, hpath⟩ := h
  exact ⟨r, hr, hpath.tail hp⟩

/-- Roots that are reached again lose nothing. -/
theorem Reached.of_roots (hroots : ∀ r, roots r → Reached roots' r) (h : Reached roots c) :
    Reached roots' c := by
  obtain ⟨r, hr, hpath⟩ := h
  induction hpath with
  | refl => exact hroots r hr
  | tail _ hp ih => exact ih.parent hp

theorem Reached.mono (hroots : ∀ r, roots r → roots' r) (h : Reached roots c) : Reached roots' c :=
  h.of_roots fun r hr => .root (hroots r hr)

/-- A first commit reaches only itself. -/
theorem reached_of_parents_nil (hroots : ∀ r, roots r → r.parents = []) (h : Reached roots c) :
    roots c := by
  obtain ⟨r, hr, hpath⟩ := h
  induction hpath using Relation.ReflTransGen.head_induction_on with
  | refl => exact hr
  | head hp _ _ =>
    rw [hroots _ hr] at hp
    exact absurd hp List.not_mem_nil

end Commit

end Pantoken
