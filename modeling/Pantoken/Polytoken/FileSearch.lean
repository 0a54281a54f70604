import Mathlib.Data.List.Lex
import Pantoken.Server.WorktreePlan

/-!
# Files outside the project

A mention that starts with a slash, a tilde or two dots browses a directory of the file system.  It
is split at its last slash into the directory and a part of a name, and the server lists the
immediate children of the directory whose name contains the part.

## Main definitions

* `isExternalQuery`, `splitExternalQuery`, `listExternal` — the server.
* `Shows` — what it lists of a directory without a limit.

## Main results

* `lastIndexOf_append`, `lastIndexOf_eq_none` — the place of the last slash.
* `mem_listExternal_iff` — **what is listed for a query under some limit are the children that it
  shows.**
-/

namespace Pantoken

/-- The place of the last of some elements, `rfind` and `lastIndexOf`. -/
def lastIndexOf {α : Type*} [DecidableEq α] (x : α) : List α → Option ℕ
  | [] => none
  | a :: l =>
    match lastIndexOf x l with
    | some i => some (i + 1)
    | none => if a = x then some 0 else none

/-- A list with an element is split at the last of them. -/
theorem exists_append_of_mem_last {α : Type*} {x : α} {l : List α} (h : x ∈ l) :
    ∃ front rest, l = front ++ x :: rest ∧ x ∉ rest := by
  obtain ⟨rest, front, hl, hrest⟩ := List.eq_append_cons_of_mem (List.mem_reverse.mpr h)
  refine ⟨front.reverse, rest.reverse, ?_, fun hx => hrest (List.mem_reverse.mp hx)⟩
  rw [← l.reverse_reverse, hl]
  simp

section

variable {α : Type*} [DecidableEq α] {x : α}

theorem lastIndexOf_eq_none {l : List α} (h : x ∉ l) : lastIndexOf x l = none := by
  induction l with
  | nil => rfl
  | cons a l ih =>
    rw [lastIndexOf, ih (List.not_mem_of_not_mem_cons h)]
    exact if_neg (Ne.symm (List.ne_of_not_mem_cons h))

theorem lastIndexOf_append (front : List α) {rest : List α} (h : x ∉ rest) :
    lastIndexOf x (front ++ x :: rest) = some front.length := by
  induction front with
  | nil =>
    rw [List.nil_append, lastIndexOf, lastIndexOf_eq_none h]
    exact if_pos rfl
  | cons a front ih => rw [List.cons_append, lastIndexOf, ih, List.length_cons]

end

namespace FileSearch

structure FileInfo where
  path : List Char
  isDirectory : Bool
  deriving DecidableEq

/-- `FILE_QUERY_CAP` -/
def fileQueryCap : ℕ := 50

def isExternalQuery (query : List Char) : Bool :=
  ['/'].isPrefixOf query || ['~'].isPrefixOf query || ['.', '.'].isPrefixOf query

def splitExternalQuery (query : List Char) : List Char × List Char :=
  match lastIndexOf '/' query with
  | none => (query, [])
  | some idx =>
    let dirPrefix := query.take idx
    let dirPrefix := if dirPrefix = [] ∧ ['/'] <+: query then ['/'] else dirPrefix
    (dirPrefix, query.drop (idx + 1))

def joinPrefix (dirPrefix name : List Char) : List Char :=
  if dirPrefix.getLast? = some '/' then dirPrefix ++ name else dirPrefix ++ '/' :: name

def resolveDirPrefix (dirPrefix base home : List Char) : List Char :=
  if dirPrefix = ['~'] then home
  else if ['~', '/'] <+: dirPrefix then joinPath home (dirPrefix.drop 2)
  else if ['/'] <+: dirPrefix then dirPrefix
  else joinPath base dirPrefix

/-- The children of a directory, by their names, and whether each is one. -/
abbrev Directory := List (List Char × Bool)

section List

variable (readDir : List Char → Option Directory) (lower : List Char → List Char)
  (base home : List Char)

/-- The tests of `list_external` for a name. -/
def Shows (includeIgnored : Bool) (part name : List Char) : Prop :=
  (includeIgnored = true ∨ ['.'] <+: part ∨ ¬ ['.'] <+: name) ∧
    (part = [] ∨ lower part <:+: lower name)

instance (includeIgnored : Bool) (part name : List Char) :
    Decidable (Shows lower includeIgnored part name) :=
  inferInstanceAs (Decidable (_ ∧ _))

/-- The comparison of `sort_by`: directories first, then by the code points of the names. -/
def entryLe (a b : List Char × Bool) : Bool :=
  match a.2, b.2 with
  | true, false => true
  | false, true => false
  | _, _ => (lower a.1).map Char.toNat ≤ (lower b.1).map Char.toNat

/-- The children that are listed. -/
def listedEntries (query : List Char) (cap : ℕ) (includeIgnored : Bool) : Directory :=
  match readDir (resolveDirPrefix (splitExternalQuery query).1 base home) with
  | none => []
  | some entries =>
    ((entries.filter fun e => Shows lower includeIgnored (splitExternalQuery query).2 e.1).mergeSort
      (entryLe lower)).take cap

/-- `list_external` -/
def listExternal (query : List Char) (cap : ℕ) (includeIgnored : Bool) : List FileInfo :=
  (listedEntries readDir lower base home query cap includeIgnored).map fun (name, isDir) =>
    ⟨joinPrefix (splitExternalQuery query).1 name, isDir⟩

variable {readDir lower base home}

theorem mem_listedEntries {query : List Char} {cap : ℕ} {includeIgnored : Bool}
    {e : List Char × Bool}
    (h : e ∈ listedEntries readDir lower base home query cap includeIgnored) :
    ∃ entries, readDir (resolveDirPrefix (splitExternalQuery query).1 base home) = some entries ∧
      e ∈ entries ∧ Shows lower includeIgnored (splitExternalQuery query).2 e.1 := by
  unfold listedEntries at h
  cases hread : readDir (resolveDirPrefix (splitExternalQuery query).1 base home) with
  | none =>
    rw [hread] at h
    cases h
  | some entries =>
    rw [hread] at h
    obtain ⟨he, hshows⟩ := List.mem_filter.mp (List.mem_mergeSort.mp (List.mem_of_mem_take h))
    exact ⟨entries, rfl, he, of_decide_eq_true hshows⟩

theorem mem_listedEntries_of_length_le {query : List Char} {cap : ℕ} {includeIgnored : Bool}
    {entries : Directory} {e : List Char × Bool}
    (hread : readDir (resolveDirPrefix (splitExternalQuery query).1 base home) = some entries)
    (hcap : entries.length ≤ cap) (he : e ∈ entries)
    (hshows : Shows lower includeIgnored (splitExternalQuery query).2 e.1) :
    e ∈ listedEntries readDir lower base home query cap includeIgnored := by
  unfold listedEntries
  rw [hread]
  dsimp only
  rw [List.take_of_length_le]
  · exact List.mem_mergeSort.mpr (List.mem_filter.mpr ⟨he, decide_eq_true hshows⟩)
  · rw [List.length_mergeSort]
    exact (List.length_filter_le _ _).trans hcap

theorem length_listedEntries_le (query : List Char) (cap : ℕ) (includeIgnored : Bool) :
    (listedEntries readDir lower base home query cap includeIgnored).length ≤ cap := by
  unfold listedEntries
  cases readDir (resolveDirPrefix (splitExternalQuery query).1 base home) with
  | none => exact Nat.zero_le cap
  | some entries => exact List.length_take_le _ _

/-- **What is listed for a query under some limit are the children of the directory that are
shown.** -/
theorem mem_listExternal_iff {query : List Char} {includeIgnored : Bool} {g : FileInfo} :
    (∃ cap, g ∈ listExternal readDir lower base home query cap includeIgnored) ↔
      ∃ entries, readDir (resolveDirPrefix (splitExternalQuery query).1 base home) = some entries ∧
        ∃ e ∈ entries, Shows lower includeIgnored (splitExternalQuery query).2 e.1 ∧
          g = ⟨joinPrefix (splitExternalQuery query).1 e.1, e.2⟩ := by
  constructor
  · rintro ⟨cap, hg⟩
    obtain ⟨e, he, rfl⟩ := List.mem_map.mp hg
    obtain ⟨entries, hread, hentry, hshows⟩ := mem_listedEntries he
    exact ⟨entries, hread, e, hentry, hshows, rfl⟩
  · rintro ⟨entries, hread, e, he, hshows, rfl⟩
    exact ⟨entries.length, List.mem_map.mpr
      ⟨e, mem_listedEntries_of_length_le hread (Nat.le_refl _) he hshows, rfl⟩⟩

end List

/-! ### Splitting -/

section Split

/-- A query without a slash is a directory. -/
theorem splitExternalQuery_of_notMem {query : List Char} (h : '/' ∉ query) :
    splitExternalQuery query = (query, []) := by
  rw [splitExternalQuery, lastIndexOf_eq_none h]

theorem splitExternalQuery_append (front : List Char) {rest : List Char} (h : '/' ∉ rest) :
    splitExternalQuery (front ++ '/' :: rest) = (if front = [] then ['/'] else front, rest) := by
  rw [splitExternalQuery, lastIndexOf_append front h]
  dsimp only
  rw [List.take_left, ← List.drop_drop, List.drop_left, List.drop_one, List.tail_cons]
  cases front with
  | nil => rfl
  | cons c front =>
    -- only what is before the first slash can be empty
    rw [if_neg fun h => List.cons_ne_nil _ _ h.1, if_neg (List.cons_ne_nil _ _)]

/-- The part of a name has no slash. -/
theorem slash_notMem_part (query : List Char) : '/' ∉ (splitExternalQuery query).2 := by
  by_cases h : '/' ∈ query
  · obtain ⟨front, rest, rfl, hrest⟩ := exists_append_of_mem_last h
    rwa [splitExternalQuery_append front hrest]
  · rw [splitExternalQuery_of_notMem h]
    exact List.not_mem_nil

theorem joinPrefix_injective {dirPrefix name name' : List Char}
    (h : joinPrefix dirPrefix name = joinPrefix dirPrefix name') : name = name' := by
  unfold joinPrefix at h
  split_ifs at h
  · exact List.append_cancel_left h
  · exact (List.cons.inj (List.append_cancel_left h)).2

end Split

end FileSearch

end Pantoken
