import Pantoken.Desktop.DockerTarget
import Pantoken.Lib.Pieces
import Pantoken.Server.IndexJson

/-!
# Where worktrees are put

The worktrees of a repository are put under a directory that is named after its path: the
names between the slashes, joined by dashes, in lower case.  The case of a letter and a dash
in a name are lost there.

## Main definitions

* `Lowercase`, `Lowercase.toLowercase` — the tables of the lower case, and `to_lowercase`.
* `slugifyRepoPath`, `resolveLexical`, `planWorktree` — the directory and the plan.
* `Apart` — two paths differ in the lower case of their parts between slashes and dashes.

## Main results

* `toLowercase_intercalate` — the lower case of parts joined by dashes.
* `slugifyRepoPath_ne_iff` — two paths have different slugs exactly when they are apart.
* `worktree_ne_iff` — **so have the worktrees planned for them different paths, under every
  root and every name.**
* `not_worktree_ne` — two repositories whose worktrees are put in one directory.
-/

namespace Pantoken

open Pieces (not_mem_of_mem_splitOn)

/-! ### Lower case -/

/-- The tables that `str::to_lowercase` reads, and what they say of the two characters that
stand between the parts of a path. -/
structure Lowercase where
  lower : Char → List Char
  cased : Char → Bool
  caseIgnorable : Char → Bool
  lower_ne_nil : ∀ c, lower c ≠ []
  lower_dash : lower '-' = ['-']
  dash_notMem : ∀ c, c ≠ '-' → '-' ∉ lower c
  slash_notMem : ∀ c, c ≠ '/' → '/' ∉ lower c
  cased_dash : cased '-' = false
  caseIgnorable_dash : caseIgnorable '-' = false

namespace Lowercase

variable (u : Lowercase)

/-- `case_ignorable_then_cased` -/
def caseIgnorableThenCased (iter : List Char) : Bool :=
  match iter.dropWhile u.caseIgnorable with
  | [] => false
  | c :: _ => u.cased c

/-- `map_uppercase_sigma`, after the characters of `before`, the last of them first. -/
def mapUppercaseSigma (before after : List Char) : Char :=
  if u.caseIgnorableThenCased before && !u.caseIgnorableThenCased after then 'ς' else 'σ'

/-- The loop of `to_lowercase`. -/
def lowerFrom (before : List Char) : List Char → List Char
  | [] => []
  | c :: after =>
    (if c = 'Σ' then [u.mapUppercaseSigma before after] else u.lower c) ++
      lowerFrom (c :: before) after

/-- `str::to_lowercase` -/
def toLowercase (s : List Char) : List Char := u.lowerFrom [] s

/-! A dash ends a word -/

theorem caseIgnorableThenCased_dash (p q : List Char) :
    u.caseIgnorableThenCased (p ++ '-' :: q) = u.caseIgnorableThenCased p := by
  unfold caseIgnorableThenCased
  induction p with
  | nil =>
    rw [List.nil_append, List.dropWhile_cons_of_neg (by rw [u.caseIgnorable_dash]; decide),
      List.dropWhile_nil]
    exact u.cased_dash
  | cons c p ih =>
    rw [List.cons_append]
    cases hc : u.caseIgnorable c with
    | true => rw [List.dropWhile_cons_of_pos hc, List.dropWhile_cons_of_pos hc, ih]
    | false =>
      rw [List.dropWhile_cons_of_neg (by rw [hc]; decide),
        List.dropWhile_cons_of_neg (by rw [hc]; decide)]

/-- What stands before a dash does not matter after it. -/
theorem lowerFrom_after_dash (before x p : List Char) :
    u.lowerFrom (before ++ '-' :: x) p = u.lowerFrom before p := by
  induction p generalizing before with
  | nil => rfl
  | cons c p ih =>
    rw [lowerFrom, lowerFrom, mapUppercaseSigma, mapUppercaseSigma, caseIgnorableThenCased_dash]
    exact congrArg _ (ih (c :: before))

theorem lowerFrom_append_dash (before p q : List Char) :
    u.lowerFrom before (p ++ '-' :: q) = u.lowerFrom before p ++ '-' :: u.toLowercase q := by
  induction p generalizing before with
  | nil =>
    -- a final sigma looks back to the dash and no further
    have hq : u.lowerFrom ('-' :: before) q = u.toLowercase q :=
      u.lowerFrom_after_dash [] before q
    have hdash : u.lowerFrom before ('-' :: q) = ['-'] ++ u.lowerFrom ('-' :: before) q := by
      rw [lowerFrom, if_neg (by decide), u.lower_dash]
    rw [List.nil_append, hdash, hq]
    rfl
  | cons c p ih =>
    rw [List.cons_append, lowerFrom, lowerFrom, ih, mapUppercaseSigma, mapUppercaseSigma,
      caseIgnorableThenCased_dash, List.append_assoc]

/-- **The lower case of parts joined by dashes.** -/
theorem toLowercase_intercalate (parts : List (List Char)) :
    u.toLowercase (['-'].intercalate parts) = ['-'].intercalate (parts.map u.toLowercase) := by
  induction parts with
  | nil => rfl
  | cons part parts ih =>
    cases parts with
    | nil =>
      rw [List.intercalate_singleton, List.map_singleton, List.intercalate_singleton]
    | cons part' parts =>
      rw [List.map_cons, List.map_cons, List.intercalate_cons_cons, List.intercalate_cons_cons,
        List.append_assoc, List.append_assoc, List.singleton_append, List.singleton_append,
        ← List.map_cons, ← ih]
      exact u.lowerFrom_append_dash [] part _

theorem lowerFrom_eq_nil {before s : List Char} : u.lowerFrom before s = [] ↔ s = [] := by
  cases s with
  | nil => exact iff_of_true rfl rfl
  | cons c s =>
    refine iff_of_false (fun h => ?_) (List.cons_ne_nil c s)
    have hc := (List.append_eq_nil_iff.mp h).1
    split at hc
    · cases hc
    · exact u.lower_ne_nil c hc

/-- A character that no other becomes is in a lower case only where it was. -/
theorem notMem_lowerFrom {x : Char} (hx : ∀ c, c ≠ x → x ∉ u.lower c) (hς : x ≠ 'ς')
    (hσ : x ≠ 'σ') {s : List Char} (hs : x ∉ s) (before : List Char) :
    x ∉ u.lowerFrom before s := by
  induction s generalizing before with
  | nil => exact List.not_mem_nil
  | cons c s ih =>
    rw [List.mem_cons, not_or] at hs
    rw [lowerFrom, List.mem_append, not_or]
    refine ⟨?_, ih hs.2 _⟩
    split
    · unfold mapUppercaseSigma
      split
      · exact fun h => hς (List.mem_singleton.mp h)
      · exact fun h => hσ (List.mem_singleton.mp h)
    · exact hx c (Ne.symm hs.1)

theorem dash_notMem_toLowercase {s : List Char} (hs : '-' ∉ s) : '-' ∉ u.toLowercase s :=
  u.notMem_lowerFrom u.dash_notMem (by decide) (by decide) hs []

theorem slash_notMem_toLowercase {s : List Char} (hs : '/' ∉ s) : '/' ∉ u.toLowercase s :=
  u.notMem_lowerFrom u.slash_notMem (by decide) (by decide) hs []

end Lowercase

/-! ### Slugs -/

/-- The names between the slashes of a path. -/
def repoNames (absPath : List Char) : List (List Char) := (absPath.splitOn '/').filter (· ≠ [])

/-- `slugify_repo_path` -/
def slugifyRepoPath (u : Lowercase) (absPath : List Char) : List Char :=
  u.toLowercase (['-'].intercalate (repoNames absPath))

/-- The parts of a path between its slashes and dashes, in lower case. -/
def lowerParts (u : Lowercase) (absPath : List Char) : List (List Char) :=
  ((repoNames absPath).flatMap (List.splitOn '-')).map u.toLowercase

/-- The paths differ in these parts. -/
def Apart (u : Lowercase) (p q : List Char) : Prop := lowerParts u p ≠ lowerParts u q

instance (u : Lowercase) (p q : List Char) : Decidable (Apart u p q) :=
  inferInstanceAs (Decidable (¬ lowerParts u p = lowerParts u q))

section Slugs

variable {u : Lowercase} {p q name : List Char}

theorem mem_repoNames (h : name ∈ repoNames p) : name ≠ [] ∧ '/' ∉ name := by
  obtain ⟨hsplit, hname⟩ := List.mem_filter.mp h
  exact ⟨of_decide_eq_true hname, not_mem_of_mem_splitOn hsplit⟩

theorem flatMap_cons_eq_intercalate {α : Type*} {a : α} {xs : List (List α)} (h : xs ≠ []) :
    xs.flatMap (a :: ·) = a :: [a].intercalate xs := by
  induction xs with
  | nil => exact absurd rfl h
  | cons x xs ih =>
    rw [List.flatMap_cons]
    cases xs with
    | nil => rw [List.flatMap_nil, List.append_nil, List.intercalate_singleton]
    | cons x' xs =>
      rw [ih (List.cons_ne_nil x' xs), List.intercalate_cons_cons, List.append_assoc]
      rfl

theorem repoNames_flatMap {names : List (List Char)}
    (h : ∀ name ∈ names, name ≠ [] ∧ '/' ∉ name) :
    repoNames (names.flatMap ('/' :: ·)) = names := by
  by_cases hnames : names = []
  · subst hnames
    rfl
  · rw [flatMap_cons_eq_intercalate hnames, ← List.nil_append ('/' :: _), repoNames,
      List.splitOn_append_cons_self,
      List.splitOn_intercalate '/' (fun name hn => (h name hn).2) hnames]
    exact List.filter_eq_self.mpr fun name hn => decide_eq_true (h name hn).1

theorem dash_notMem_of_mem_flatMap {part : List Char}
    (h : part ∈ (repoNames p).flatMap (List.splitOn '-')) : '-' ∉ part := by
  obtain ⟨name, -, hpart⟩ := List.mem_flatMap.mp h
  exact not_mem_of_mem_splitOn hpart

/-- Names joined by dashes are their parts joined by dashes. -/
theorem intercalate_flatMap_splitOn (names : List (List Char)) :
    ['-'].intercalate (names.flatMap (List.splitOn '-')) = ['-'].intercalate names := by
  induction names with
  | nil => rfl
  | cons name names ih =>
    rw [List.flatMap_cons]
    cases names with
    | nil =>
      rw [List.flatMap_nil, List.append_nil, List.intercalate_splitOn,
        List.intercalate_singleton]
    | cons name' names =>
      have hne : (name' :: names).flatMap (List.splitOn '-') ≠ [] := by
        rw [List.flatMap_cons]
        exact List.append_ne_nil_of_left_ne_nil (List.splitOn_ne_nil '-' name') _
      rw [Pieces.intercalate_append (List.splitOn_ne_nil '-' name) hne, List.intercalate_splitOn,
        ih, List.intercalate_cons_cons, List.append_assoc]

theorem slugifyRepoPath_eq (u : Lowercase) (p : List Char) :
    slugifyRepoPath u p = ['-'].intercalate (lowerParts u p) := by
  rw [slugifyRepoPath, lowerParts, ← u.toLowercase_intercalate, intercalate_flatMap_splitOn]

theorem slugifyRepoPath_eq_nil : slugifyRepoPath u p = [] ↔ repoNames p = [] := by
  rw [slugifyRepoPath, Lowercase.toLowercase, u.lowerFrom_eq_nil]
  constructor
  · intro h
    cases hnames : repoNames p with
    | nil => rfl
    | cons name names =>
      have hname : name ≠ [] := (mem_repoNames (hnames ▸ List.mem_cons_self)).1
      rw [hnames] at h
      cases names with
      | nil =>
        rw [List.intercalate_singleton] at h
        exact absurd h hname
      | cons name' names =>
        rw [List.intercalate_cons_cons, List.append_assoc] at h
        exact absurd (List.append_eq_nil_iff.mp h).1 hname
  · intro h
    rw [h]
    rfl

theorem lowerParts_eq_nil : lowerParts u p = [] ↔ repoNames p = [] := by
  rw [lowerParts, List.map_eq_nil_iff, List.flatMap_eq_nil_iff]
  constructor
  · intro h
    exact List.eq_nil_iff_forall_not_mem.mpr fun name hname =>
      List.splitOn_ne_nil '-' name (h name hname)
  · intro h name hname
    rw [h] at hname
    cases hname

/-- Split at its dashes, a slug gives the parts back. -/
theorem splitOn_slugifyRepoPath (h : repoNames p ≠ []) :
    (slugifyRepoPath u p).splitOn '-' = lowerParts u p := by
  rw [slugifyRepoPath_eq]
  refine List.splitOn_intercalate '-' (fun lowered hlowered => ?_) (mt lowerParts_eq_nil.mp h)
  obtain ⟨part, hpart, rfl⟩ := List.mem_map.mp hlowered
  exact u.dash_notMem_toLowercase (dash_notMem_of_mem_flatMap hpart)

/-- **Two paths have different slugs exactly when they are apart.** -/
theorem slugifyRepoPath_ne_iff (u : Lowercase) (p q : List Char) :
    slugifyRepoPath u p ≠ slugifyRepoPath u q ↔ Apart u p q := by
  refine not_congr ⟨fun h => ?_, fun h => ?_⟩
  · by_cases hp : repoNames p = []
    · have hq : repoNames q = [] := slugifyRepoPath_eq_nil.mp (h ▸ slugifyRepoPath_eq_nil.mpr hp)
      rw [lowerParts_eq_nil.mpr hp, lowerParts_eq_nil.mpr hq]
    · have hq : repoNames q ≠ [] := fun hq =>
        hp (slugifyRepoPath_eq_nil.mp (h.trans (slugifyRepoPath_eq_nil.mpr hq)))
      rw [← splitOn_slugifyRepoPath hp, ← splitOn_slugifyRepoPath hq, h]
  · rw [slugifyRepoPath_eq, slugifyRepoPath_eq, h]

theorem slash_notMem_slugifyRepoPath (u : Lowercase) (p : List Char) :
    '/' ∉ slugifyRepoPath u p := by
  exact u.slash_notMem_toLowercase
    (Pieces.notMem_intercalate (by decide) fun _ hname => (mem_repoNames hname).2)

end Slugs

/-! ### Plans -/

/-- One component in the loop of `resolve_lexical`. -/
def resolveName (absolute : List (List Char)) (name : List Char) : List (List Char) :=
  if name = "..".toList then absolute.dropLast else absolute ++ [name]

/-- `resolve_lexical`, where the server runs in `cwd`. -/
def resolveLexical (cwd path : List Char) : List Char :=
  let absolute := if ['/'] <+: path then [] else components cwd
  ((components path).foldl resolveName absolute).flatMap ('/' :: ·)

structure WorktreePlan where
  path : List Char
  command : List Char
  args : List (List Char)
  name : List Char
  base : List Char
  deriving DecidableEq

/-- `plan_worktree` -/
def planWorktree (u : Lowercase) (cwd repoDir : List Char) (vcs : Vcs) (id : List Char)
    (baseBranch : Option (List Char)) (worktreeRoot : List Char) : WorktreePlan :=
  let base := resolveLexical cwd repoDir
  let name := "pantoken-".toList ++ id
  let path := joinPath (joinPath worktreeRoot (slugifyRepoPath u base)) name
  match vcs with
  | .jj =>
    { path, name, base
      command := "jj".toList
      args := ["-R".toList, base, "workspace".toList, "add".toList, "--name".toList, name] ++
        (match baseBranch with
          | some branch => ["-r".toList, branch]
          | none => []) ++ [path] }
  | .git =>
    { path, name, base
      command := "git".toList
      args := ["-C".toList, base, "worktree".toList, "add".toList, "--detach".toList, path] ++
        baseBranch.toList }

section Plans

variable {u : Lowercase} {cwd p q : List Char}

theorem path_planWorktree (vcs : Vcs) (id : List Char) (baseBranch : Option (List Char))
    (root : List Char) :
    (planWorktree u cwd p vcs id baseBranch root).path
      = joinPath (joinPath root (slugifyRepoPath u (resolveLexical cwd p)))
          ("pantoken-".toList ++ id) := by
  cases vcs <;> rfl

/-- A slug is read off the directory. -/
theorem append_slash_inj {s t : List Char}
    (h : (s ++ if s = [] then [] else ['/']) = t ++ if t = [] then [] else ['/']) : s = t := by
  split_ifs at h with hs ht ht
  · rw [hs, ht]
  · rw [hs] at h
    exact absurd h.symm (by simp)
  · rw [ht] at h
    exact absurd h (by simp)
  · exact List.append_cancel_right h

theorem relative_name (id : List Char) : ¬ ['/'] <+: "pantoken-".toList ++ id := by
  intro h
  have hcons : ['/'] <+: 'p' :: ("antoken-".toList ++ id) := h
  exact absurd (List.cons_prefix_cons.mp hcons).1 (by decide)

/-- An absolute path without parents is resolved to its names. -/
theorem repoNames_resolveLexical (cwd : List Char) (habs : ['/'] <+: p)
    (hp : "..".toList ∉ components p) :
    repoNames (resolveLexical cwd p) = components p := by
  have hfold : ∀ names start : List (List Char), "..".toList ∉ names →
      names.foldl resolveName start = start ++ names := by
    intro names
    induction names with
    | nil => exact fun start _ => (List.append_nil start).symm
    | cons name names ih =>
      intro start h
      rw [List.mem_cons, not_or] at h
      rw [List.foldl_cons, ih _ h.2, resolveName, if_neg (Ne.symm h.1), List.append_assoc]
      rfl
  have hbase : resolveLexical cwd p = (components p).flatMap ('/' :: ·) := by
    unfold resolveLexical
    dsimp only
    rw [if_pos habs, hfold _ [] hp, List.nil_append]
  rw [hbase]
  exact repoNames_flatMap fun name hname => ⟨(mem_components hname).1, (mem_components hname).2.2⟩

/-- Two paths have different slugs exactly when they are apart, and **the worktrees planned
for them have different paths, under every root and every name, exactly when the bases are
apart**. -/
theorem worktree_ne_iff (u : Lowercase) (cwd p q : List Char) :
    (slugifyRepoPath u p ≠ slugifyRepoPath u q ↔ Apart u p q) ∧
    ∀ vcs vcs' id baseBranch baseBranch' root,
      (planWorktree u cwd p vcs id baseBranch root).path
          ≠ (planWorktree u cwd q vcs' id baseBranch' root).path
        ↔ Apart u (resolveLexical cwd p) (resolveLexical cwd q) := by
  refine ⟨slugifyRepoPath_ne_iff u p q, fun vcs vcs' id baseBranch baseBranch' root => ?_⟩
  have hname := relative_name id
  rw [path_planWorktree, path_planWorktree,
    joinPath_joinPath (slash_notMem_slugifyRepoPath u _) hname,
    joinPath_joinPath (slash_notMem_slugifyRepoPath u _) hname, ← slugifyRepoPath_ne_iff]
  refine not_congr ⟨fun h => ?_, fun h => by rw [h]⟩
  -- the root and the name are the same on both sides, and the slugs are what is left
  exact append_slash_inj (List.append_cancel_left (List.append_cancel_right h))

theorem notMem_toLower {c x : Char} (hx : x.toNat < 65) (h : c ≠ x) : x ∉ [c.toLower] := by
  intro hmem
  have hlower : x = c.toLower := List.mem_singleton.mp hmem
  unfold Char.toLower at hlower
  split at hlower
  · rename_i hupper
    have hge : 65 ≤ c.val.toNat := hupper.1
    have hle : c.val.toNat ≤ 90 := hupper.2
    have hval : x.toNat = (c.val + ('a'.val - 'A'.val)).toNat := congrArg Char.toNat hlower
    have hsum : (c.val + ('a'.val - 'A'.val)).toNat = (c.val.toNat + 32) % 2 ^ 32 :=
      UInt32.toNat_add _ _
    omega
  · exact h hlower.symm

/-- The lower case of the characters of ASCII. -/
def asciiLowercase : Lowercase where
  lower c := [c.toLower]
  cased c := c.isAlpha
  caseIgnorable c := [0x27, 0x2e, 0x3a, 0x5e, 0x60].contains c.toNat
  lower_ne_nil _ := List.cons_ne_nil _ _
  lower_dash := rfl
  dash_notMem c h := notMem_toLower (by decide) h
  slash_notMem c h := notMem_toLower (by decide) h
  cased_dash := rfl
  caseIgnorable_dash := rfl

/-- **The worktrees of two repositories are put in one directory**: a dash stands for a slash,
and a letter for its capital. -/
theorem not_worktree_ne :
    let path p := (planWorktree asciiLowercase [] p .git "calm-otter".toList none "/wt".toList).path
    slugifyRepoPath asciiLowercase "/src/app-server".toList = "src-app-server".toList ∧
      slugifyRepoPath asciiLowercase "/src/app/server".toList = "src-app-server".toList ∧
      slugifyRepoPath asciiLowercase "/Src/app-server".toList = "src-app-server".toList ∧
      path "/src/app-server".toList = path "/src/app/server".toList := by
  decide

end Plans

end Pantoken
