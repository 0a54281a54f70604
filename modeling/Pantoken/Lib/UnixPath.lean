import Mathlib.Data.List.Infix
import Mathlib.Data.List.SplitOn
import Pantoken.Lib.Pieces

/-!
# Unix paths

A path is a text with slashes.  Its components stand between the slashes, where an empty one
and a dot count for nothing.  What is joined to a path stands below it, unless it is absolute.

## Main definitions

* `components`, `joinNames` — the components of a path, and the absolute path of some names.
* `joinPath` — a path joined to another one.

## Main results

* `components_joinNames` — the path of some names has these names.
* `components_joinPath`, `components_joinPath_eq` — **the components of a joined path.**
* `joinPath_joinPath` — a directory joined to a root, and a name in it.
-/

namespace Pantoken

/-- The names of a path: nothing stands between two slashes, and a dot is left out. -/
def components (p : List Char) : List (List Char) :=
  (p.splitOn '/').filter fun name => name ≠ [] ∧ name ≠ ['.']

instance decidableMemComponents (name p : List Char) : Decidable (name ∈ components p) :=
  decidable_of_iff ((components p).contains name = true) List.contains_iff_mem

/-- The absolute path of some names. -/
def joinNames (names : List (List Char)) : List Char := '/' :: ['/'].intercalate names

/-- `Path::join` -/
def joinPath (path other : List Char) : List Char :=
  if ['/'] <+: other then other
  else if path = [] ∨ path.getLast? = some '/' then path ++ other
  else path ++ '/' :: other

variable {p name : List Char} {names : List (List Char)}

/-! ### Components -/

theorem components_append (p q : List Char) :
    components (p ++ '/' :: q) = components p ++ components q := by
  unfold components
  rw [List.splitOn_append_cons_self, List.filter_append]

@[simp] theorem components_slash (p : List Char) : components ('/' :: p) = components p := by
  have h := components_append [] p
  rw [List.nil_append] at h
  rw [h]
  rfl

theorem mem_components (h : name ∈ components p) : name ≠ [] ∧ name ≠ ['.'] ∧ '/' ∉ name := by
  obtain ⟨hsplit, hname⟩ := List.mem_filter.mp h
  have hne := of_decide_eq_true hname
  exact ⟨hne.1, hne.2, Pieces.not_mem_of_mem_splitOn hsplit⟩

/-- **The path of some names has these names.** -/
theorem components_joinNames (h : ∀ name ∈ names, name ≠ [] ∧ name ≠ ['.'] ∧ '/' ∉ name) :
    components (joinNames names) = names := by
  rw [joinNames, components_slash]
  unfold components
  cases names with
  | nil => rfl
  | cons name names =>
    rw [List.splitOn_intercalate '/' (fun l hl => (h l hl).2.2) (List.cons_ne_nil _ _),
      List.filter_eq_self]
    exact fun l hl => decide_eq_true ⟨(h l hl).1, (h l hl).2.1⟩

/-! ### Joined paths -/

theorem joinPath_absolute (p : List Char) (h : ['/'] <+: name) : joinPath p name = name := by
  rw [joinPath, if_pos h]

theorem components_joinPath (hp : p ≠ []) (hname : ¬ ['/'] <+: name) :
    components (joinPath p name) = components p ++ components name := by
  unfold joinPath
  rw [if_neg hname]
  split_ifs with h
  · obtain ⟨front, hfront⟩ := List.getLast?_eq_some_iff.mp (h.resolve_left hp)
    have hcomponents : components p = components front := by
      rw [hfront, components_append]
      exact List.append_nil _
    rw [hcomponents, hfront, List.append_assoc, List.singleton_append, components_append]
  · exact components_append p name

theorem prefix_joinPath (p : List Char) (hname : ¬ ['/'] <+: name) : p <+: joinPath p name := by
  unfold joinPath
  rw [if_neg hname]
  split_ifs <;> exact List.prefix_append _ _

theorem any_joinPath {f : Char → Bool} (hslash : f '/' = false) (p : List Char)
    (hname : ¬ ['/'] <+: name) : (joinPath p name).any f = (p.any f || name.any f) := by
  unfold joinPath
  rw [if_neg hname]
  split_ifs
  · exact List.any_append
  · rw [List.any_append, List.any_cons, hslash, Bool.false_or]

theorem absolute_joinPath (hp : ['/'] <+: p) (name : List Char) : ['/'] <+: joinPath p name := by
  by_cases hname : ['/'] <+: name
  · rwa [joinPath_absolute p hname]
  · exact hp.trans (prefix_joinPath p hname)

theorem ne_nil_of_absolute (hp : ['/'] <+: p) : p ≠ [] := by
  rintro rfl
  exact absurd hp (by decide)

/-- **The components of a joined path**, below an absolute one. -/
theorem components_joinPath_eq (hp : ['/'] <+: p) (name : List Char) :
    components (joinPath p name) =
      if ['/'] <+: name then components name else components p ++ components name := by
  split_ifs with h
  · rw [joinPath_absolute p h]
  · exact components_joinPath (ne_nil_of_absolute hp) h

/-- What is added to a joined name is part of it. -/
theorem joinPath_append (p : List Char) (hname : name ≠ []) (v : List Char) :
    joinPath p name ++ v = joinPath p (name ++ v) := by
  obtain ⟨c, cs, rfl⟩ := List.exists_cons_of_ne_nil hname
  unfold joinPath
  simp only [List.cons_append, List.cons_prefix_cons, List.nil_prefix, and_true]
  split_ifs <;> simp

theorem length_joinPath (dir name : List Char) (hname : ¬ ['/'] <+: name) :
    dir.length + name.length ≤ (joinPath dir name).length := by
  rw [joinPath, if_neg hname]
  split_ifs
  · rw [List.length_append]
  · rw [List.length_append, List.length_cons]
    omega

/-- What a name is joined to ends with a slash, if it is not empty. -/
theorem joinPath_nil_end (root : List Char) :
    joinPath root [] = [] ∨ (joinPath root []).getLast? = some '/' := by
  rw [joinPath, if_neg (by decide)]
  split
  · rw [List.append_nil]
    assumption
  · exact .inr List.getLast?_concat

theorem joinPath_eq {root name : List Char} (hname : ¬ ['/'] <+: name) :
    joinPath root name = joinPath root [] ++ name := by
  have hnil : ¬ ['/'] <+: ([] : List Char) := by decide
  rw [joinPath, if_neg hname, joinPath, if_neg hnil]
  split
  · rw [List.append_nil]
  · rw [List.append_assoc]
    rfl

/-- **A directory joined to a root, and a name in it.** -/
theorem joinPath_joinPath {root dir name : List Char} (hdir : '/' ∉ dir)
    (hname : ¬ ['/'] <+: name) :
    joinPath (joinPath root dir) name
      = joinPath root [] ++ (dir ++ if dir = [] then [] else ['/']) ++ name := by
  have hrel : ¬ ['/'] <+: dir := fun h => hdir (h.subset List.mem_cons_self)
  rw [joinPath_eq hname, joinPath_eq hrel, joinPath, if_neg (by decide)]
  split_ifs with hend hnil hnil
  · rw [List.append_nil, List.append_nil]
  · rw [List.append_eq_nil_iff, List.getLast?_append_of_ne_nil _ hnil] at hend
    rcases hend with h | h
    · exact absurd h.2 hnil
    · exact absurd (List.mem_of_getLast? h) hdir
  · subst hnil
    rw [List.append_nil] at hend
    exact absurd (joinPath_nil_end root) hend
  · rw [List.append_assoc (joinPath root [])]

end Pantoken
