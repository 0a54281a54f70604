import Mathlib.Algebra.Group.Nat.Defs
import Mathlib.Data.Char
import Pantoken.Lib.Lexicographic

/-!
# Versions

The provisioning compares versions with a parser and a comparison of its own.  Three numbers
decide first, a pre-release is below its release, and two pre-releases are compared identifier
by identifier, numbers by their value and below all other identifiers.

## Main definitions

* `parseVersion`, `compareSemver` — the code.
* `Version.key` — the place of a version in a lexicographic order.
* `precedence` — the precedence of SemVer, `readU64` what the code takes for a number instead.
* `Narrow` — no number beyond a machine word decides between two pre-releases.

## Main results

* `compareSemver_eq_order` — the comparison is the one of a linear order.
* `compareSemver_precedence` — **it is a total preorder, and the one of SemVer exactly on the
  pairs that are narrow.**
-/

namespace Pantoken.Remote

open Lexicographic

namespace Semver

structure Version where
  major : ℕ
  minor : ℕ
  patch : ℕ
  prerelease : Option (List Char)
  deriving DecidableEq

/-- `str::split_once` -/
def splitOnce (c : Char) (s : List Char) : Option (List Char × List Char) :=
  if c ∈ s then some (s.takeWhile (· ≠ c), (s.dropWhile (· ≠ c)).tail) else none

theorem splitOnce_append {c : Char} {front : List Char} (h : c ∉ front) (back : List Char) :
    splitOnce c (front ++ c :: back) = some (front, back) := by
  have hall : ∀ d ∈ front, decide (d ≠ c) = true := by
    intro d hd
    rw [decide_eq_true_eq]
    rintro rfl
    exact h hd
  rw [splitOnce, if_pos (by simp), List.takeWhile_append_of_pos hall,
    List.dropWhile_append_of_pos hall]
  simp

theorem splitOnce_of_notMem {c : Char} {s : List Char} (h : c ∉ s) : splitOnce c s = none :=
  if_neg h

/-- The value of decimal digits. -/
def digitsValue (s : List Char) : ℕ :=
  s.foldl (fun n c => 10 * n + (c.toNat - '0'.toNat)) 0

/-- `str::parse::<u64>` of decimal digits. -/
def parseU64 (s : List Char) : Option ℕ :=
  if digitsValue s < 2 ^ 64 then some (digitsValue s) else none

/-- One turn of the loop over the parts of the core. -/
def parsePart (part : List Char) : Option ℕ :=
  if part = [] then none
  else if part = ['0'] then some 0
  else if ¬ part.all Char.isDigit then none
  else if ['0'] <+: part then none
  else parseU64 part

/-- The check of a pre-release. -/
def validPrerelease (pre : List Char) : Bool :=
  pre ≠ [] && (pre.splitOn '.').all fun segment =>
    segment ≠ [] && segment.all fun c => c.isAlphanum || c = '-'

def parseVersion (s : List Char) : Option Version :=
  let (core, prerelease) := match splitOnce '-' s with
    | some (c, p) => (c, some p)
    | none => (s, none)
  match core.splitOn '.' with
  | [a, b, c] => do
    let major ← parsePart a
    let minor ← parsePart b
    let patch ← parsePart c
    if prerelease.all validPrerelease then some ⟨major, minor, patch, prerelease⟩ else none
  | _ => none

def isNumeric (segment : List Char) : Bool := segment.all Char.isDigit && segment ≠ []

def comparePrereleaseSegment (a b : List Char) : Ordering :=
  match isNumeric a, isNumeric b with
  | true, true => order ((parseU64 a).getD 0) ((parseU64 b).getD 0)
  | true, false => .lt
  | false, true => .gt
  | false, false => order a b

def comparePrerelease (a b : List Char) : Ordering :=
  let segsA := a.splitOn '.'
  let segsB := b.splitOn '.'
  ((List.zipWith comparePrereleaseSegment segsA segsB).find? (· ≠ .eq)).getD
    (order segsA.length segsB.length)

def compareVersions (a b : Version) : Ordering :=
  (order a.major b.major).then <| (order a.minor b.minor).then <|
    (order a.patch b.patch).then <|
      match a.prerelease, b.prerelease with
      | none, none => .eq
      | none, some _ => .gt
      | some _, none => .lt
      | some pa, some pb => comparePrerelease pa pb

def compareSemver (a b : List Char) : Ordering :=
  match parseVersion a, parseVersion b with
  | some va, some vb => compareVersions va vb
  | some _, none => .gt
  | none, some _ => .lt
  | none, none => .eq

/-! ### Precedence -/

/-- An identifier of a pre-release: a number, or above all numbers a text. -/
abbrev Identifier := ℕ ⊕ₗ List Char

/-- The identifier of a segment, with its number as `read` has it. -/
def identifier (read : ℕ → ℕ) (segment : List Char) : Identifier :=
  if isNumeric segment then toLex (.inl (read (digitsValue segment))) else toLex (.inr segment)

def identifiers (read : ℕ → ℕ) (pre : List Char) : List Identifier :=
  (pre.splitOn '.').map (identifier read)

/-- Versions in lexicographic order, with a release above its pre-releases. -/
abbrev Key := ℕ ×ₗ ℕ ×ₗ ℕ ×ₗ WithTop (List Identifier)

def Version.key (read : ℕ → ℕ) (v : Version) : Key :=
  toLex (v.major, toLex (v.minor, toLex (v.patch,
    match v.prerelease with
    | none => ⊤
    | some pre => (identifiers read pre : WithTop (List Identifier)))))

/-- The precedence of SemVer: numbers of any length count with their value. -/
def precedence (a b : Version) : Ordering := order (a.key id) (b.key id)

/-- What the code takes for a number in a pre-release. -/
def readU64 (n : ℕ) : ℕ := if n < 2 ^ 64 then n else 0

/-- A pre-release as the code reads it. -/
def readIdentifier (i : Identifier) : Identifier :=
  match ofLex i with
  | .inl n => toLex (.inl (readU64 n))
  | .inr s => toLex (.inr s)

/-- Where the first difference of two pre-releases is in two numbers, one of them beyond a machine
word, both are read as the same and what follows is read in the order of the two. -/
def Narrow (is js : List Identifier) : Prop :=
  ∀ p m n is' js', is = p ++ toLex (.inl m) :: is' → js = p ++ toLex (.inl n) :: js' →
    m ≠ n → 2 ^ 64 ≤ max m n →
      readU64 m = readU64 n ∧
        order (is'.map readIdentifier) (js'.map readIdentifier) = order m n

/-- Two versions that are told apart without a number beyond a machine word: by their cores, as
a release and a pre-release, or by narrow pre-releases. -/
def NarrowPair (a b : Version) : Prop :=
  a.major = b.major → a.minor = b.minor → a.patch = b.patch → ∀ pa pb,
    a.prerelease = some pa → b.prerelease = some pb → Narrow (identifiers id pa) (identifiers id pb)

/-! ### The comparison is the one of a linear order -/

theorem getD_parseU64 (s : List Char) : (parseU64 s).getD 0 = readU64 (digitsValue s) := by
  rw [parseU64, readU64]
  split_ifs <;> rfl

theorem comparePrereleaseSegment_eq_order (a b : List Char) :
    comparePrereleaseSegment a b = order (identifier readU64 a) (identifier readU64 b) := by
  cases ha : isNumeric a <;> cases hb : isNumeric b <;>
    simp only [comparePrereleaseSegment, identifier, ha, hb, if_true, Bool.false_eq_true, if_false,
      getD_parseU64]
  · exact (order_inr_inr a b).symm
  · exact (order_inr_inl _ a).symm
  · exact (order_inl_inr _ b).symm
  · exact (order_inl_inl _ _).symm

theorem comparePrerelease_eq_order (a b : List Char) :
    comparePrerelease a b = order (identifiers readU64 a) (identifiers readU64 b) :=
  (order_map_eq_firstDifference comparePrereleaseSegment_eq_order _ _).symm

theorem order_key (read : ℕ → ℕ) (a b : Version) :
    order (a.key read) (b.key read) =
      (order a.major b.major).then ((order a.minor b.minor).then ((order a.patch b.patch).then
        (match a.prerelease, b.prerelease with
          | none, none => .eq
          | none, some _ => .gt
          | some _, none => .lt
          | some pa, some pb => order (identifiers read pa) (identifiers read pb)))) := by
  rw [Version.key, Version.key, order_toLex, order_toLex, order_toLex]
  rcases a.prerelease with _ | pa <;> rcases b.prerelease with _ | pb
  · rw [order_self]
  · rw [order_top_coe]
  · rw [order_coe_top]
  · rw [order_coe_coe]

theorem compareVersions_eq_order (a b : Version) :
    compareVersions a b = order (a.key readU64) (b.key readU64) := by
  rw [order_key, compareVersions]
  rcases a.prerelease with _ | pa <;> rcases b.prerelease with _ | pb <;> try rfl
  simp only [comparePrerelease_eq_order]

/-- The place of a text: those that are no version are below all versions. -/
def rank (s : List Char) : WithBot Key :=
  match parseVersion s with
  | some v => (v.key readU64 : WithBot Key)
  | none => ⊥

theorem compareSemver_eq_order (a b : List Char) :
    compareSemver a b = order (rank a) (rank b) := by
  rw [compareSemver, rank, rank]
  rcases parseVersion a with _ | va <;> rcases parseVersion b with _ | vb
  · exact (order_self _).symm
  · exact (order_bot_coe _).symm
  · exact (order_coe_bot _).symm
  · exact (compareVersions_eq_order va vb).trans (order_bot_coe_coe _ _).symm

/-! ### Numbers beyond a machine word -/

theorem readU64_of_lt {n : ℕ} (h : n < 2 ^ 64) : readU64 n = n := if_pos h

theorem readU64_of_le {n : ℕ} (h : 2 ^ 64 ≤ n) : readU64 n = 0 := if_neg (Nat.not_lt.mpr h)

/-- A number beyond a machine word is not put above a smaller one. -/
theorem order_readU64_ne {m n : ℕ} (hne : m ≠ n) (hwide : 2 ^ 64 ≤ max m n)
    (hread : readU64 m ≠ readU64 n) : order (readU64 m) (readU64 n) ≠ order m n := by
  rcases Nat.lt_or_gt_of_ne hne with h | h
  · rw [readU64_of_le (n := n) (by omega)] at hread ⊢
    rw [order_of_gt (Nat.pos_of_ne_zero hread), order_of_lt h]
    decide
  · rw [readU64_of_le (n := m) (by omega)] at hread ⊢
    rw [order_of_lt (Nat.pos_of_ne_zero hread.symm), order_of_gt h]
    decide

/-- Behind two numbers that differ and are read the wrong way round, or alike, the rest decides
only if they are read alike. -/
theorem order_then_eq_iff {m n : ℕ} (hne : m ≠ n) (hwide : 2 ^ 64 ≤ max m n) (o : Ordering) :
    (order (readU64 m) (readU64 n)).then o = order m n ↔
      readU64 m = readU64 n ∧ o = order m n := by
  by_cases hread : readU64 m = readU64 n
  · rw [hread, order_self]
    exact ⟨fun h => ⟨rfl, h⟩, And.right⟩
  · refine ⟨fun h => ?_, fun h => absurd h.1 hread⟩
    rw [then_of_ne hread] at h
    exact absurd h (order_readU64_ne hne hwide hread)

theorem identifiers_readU64 (pre : List Char) :
    identifiers readU64 pre = (identifiers id pre).map readIdentifier := by
  rw [identifiers, identifiers, List.map_map]
  refine List.map_congr_left fun segment _ => ?_
  simp only [Function.comp_apply, identifier]
  split_ifs <;> rfl

/-- Two identifiers whose order is that of what the code reads. -/
theorem order_readIdentifier {i j : Identifier}
    (h : ∀ m n, i = toLex (.inl m) → j = toLex (.inl n) → m ≠ n → ¬ 2 ^ 64 ≤ max m n) :
    order (readIdentifier i) (readIdentifier j) = order i j := by
  rcases i with m | s <;> rcases j with n | t
  · by_cases hne : m = n
    · subst hne
      exact (order_self _).trans (order_self _).symm
    · have hwide := h m n rfl rfl hne
      have hread : readIdentifier (toLex (.inl m)) = toLex (.inl m) ∧
          readIdentifier (toLex (.inl n)) = toLex (.inl n) := by
        simp only [readIdentifier, ofLex_toLex]
        rw [readU64_of_lt (by omega), readU64_of_lt (by omega)]
        exact ⟨rfl, rfl⟩
      exact congrArg₂ order hread.1 hread.2
  · exact (order_inl_inr _ t).trans (order_inl_inr m t).symm
  · exact (order_inr_inl _ s).trans (order_inr_inl n s).symm
  · rfl

theorem narrow_cons_self {i : Identifier} {is js : List Identifier} :
    Narrow (i :: is) (i :: js) ↔ Narrow is js := by
  constructor
  · rintro h p m n is' js' rfl rfl hne
    exact h (i :: p) m n is' js' rfl rfl hne
  · intro h p m n is' js' his hjs hne
    rcases p with _ | ⟨k, p⟩
    · obtain ⟨rfl, -⟩ := List.cons.inj his
      obtain ⟨heq, -⟩ := List.cons.inj hjs
      exact absurd (Sum.inl.inj (toLex_inj.mp heq)) hne
    · exact h p m n is' js' (List.cons.inj his).2 (List.cons.inj hjs).2 hne

/-- Behind a first difference nothing counts but that difference. -/
theorem narrow_cons_of_ne {i j : Identifier} {is js : List Identifier} (hne : i ≠ j) :
    Narrow (i :: is) (j :: js) ↔
      ∀ m n, i = toLex (.inl m) → j = toLex (.inl n) → 2 ^ 64 ≤ max m n →
        readU64 m = readU64 n ∧
          order (is.map readIdentifier) (js.map readIdentifier) = order m n := by
  constructor
  · rintro h m n rfl rfl
    exact h [] m n is js rfl rfl fun heq => hne (heq ▸ rfl)
  · intro h p m n is' js' his hjs _
    rcases p with _ | ⟨k, p⟩
    · obtain ⟨rfl, rfl⟩ := List.cons.inj his
      obtain ⟨rfl, rfl⟩ := List.cons.inj hjs
      exact h m n rfl rfl
    · exact absurd ((List.cons.inj his).1.trans (List.cons.inj hjs).1.symm) hne

/-- **Two pre-releases are read in their order exactly if they are narrow.** -/
theorem order_read_iff (is js : List Identifier) :
    order (is.map readIdentifier) (js.map readIdentifier) = order is js ↔ Narrow is js := by
  induction is generalizing js with
  | nil =>
    refine ⟨fun _ p m n is' js' his => by simp at his, fun _ => ?_⟩
    cases js with
    | nil => rfl
    | cons j js => exact (order_nil_cons _ _).trans (order_nil_cons _ _).symm
  | cons i is ih =>
    cases js with
    | nil =>
      refine ⟨fun _ p m n is' js' _ hjs => by simp at hjs, fun _ => ?_⟩
      exact (order_cons_nil _ _).trans (order_cons_nil _ _).symm
    | cons j js =>
      rw [List.map_cons, List.map_cons, order_cons_cons]
      by_cases hij : i = j
      · subst hij
        rw [order_self, order_cons_cons, order_self, narrow_cons_self]
        exact ih js
      · -- the first that differ decide, and the code misreads none but wide numbers
        have hspec : order (i :: is) (j :: js) = order i j :=
          order_append_cons_of_ne [] is js hij
        rw [hspec, narrow_cons_of_ne hij]
        by_cases hnum : ∃ m n, i = toLex (.inl m) ∧ j = toLex (.inl n) ∧ 2 ^ 64 ≤ max m n
        · obtain ⟨m, n, rfl, rfl, hwide⟩ := hnum
          have hne : m ≠ n := fun heq => hij (heq ▸ rfl)
          have hfirst : order (readIdentifier (toLex (.inl m)))
              (readIdentifier (toLex (.inl n))) = order (readU64 m) (readU64 n) :=
            order_inl_inl _ _
          rw [order_inl_inl, hfirst, order_then_eq_iff hne hwide]
          constructor
          · intro h m' n' hm hn _
            obtain rfl := Sum.inl.inj (toLex_inj.mp hm)
            obtain rfl := Sum.inl.inj (toLex_inj.mp hn)
            exact h
          · intro h
            exact h m n rfl rfl hwide
        · have hnot : ∀ m n, i = toLex (.inl m) → j = toLex (.inl n) → ¬ 2 ^ 64 ≤ max m n :=
            fun m n hm hn hwide => hnum ⟨m, n, hm, hn, hwide⟩
          rw [order_readIdentifier fun m n hm hn _ => hnot m n hm hn]
          exact ⟨fun _ m n hm hn hwide => absurd hwide (hnot m n hm hn), fun _ => then_of_ne hij _⟩

theorem compareVersions_eq_precedence_iff (a b : Version) :
    compareVersions a b = precedence a b ↔ NarrowPair a b := by
  rw [compareVersions_eq_order, precedence, order_key, order_key]
  by_cases hcore : a.major = b.major ∧ a.minor = b.minor ∧ a.patch = b.patch
  · obtain ⟨hmajor, hminor, hpatch⟩ := hcore
    rw [hmajor, hminor, hpatch, order_self, order_self, order_self]
    have hpair : NarrowPair a b ↔ ∀ pa pb, a.prerelease = some pa → b.prerelease = some pb →
        Narrow (identifiers id pa) (identifiers id pb) :=
      ⟨fun h => h hmajor hminor hpatch, fun h _ _ _ => h⟩
    rw [hpair]
    rcases a.prerelease with _ | pa <;> rcases b.prerelease with _ | pb
    · simp
    · simp
    · simp
    · simp only [identifiers_readU64]
      refine (order_read_iff _ _).trans ⟨?_, fun h => h pa pb rfl rfl⟩
      rintro h _ _ ⟨⟩ ⟨⟩
      exact h
  · refine ⟨fun _ hmajor hminor hpatch => absurd ⟨hmajor, hminor, hpatch⟩ hcore, fun _ => ?_⟩
    -- the cores differ, and the pre-releases are not looked at
    by_cases hmajor : a.major = b.major
    · by_cases hminor : a.minor = b.minor
      · have hpatch : a.patch ≠ b.patch := fun h => hcore ⟨hmajor, hminor, h⟩
        rw [then_of_ne hpatch, then_of_ne hpatch]
      · rw [then_of_ne hminor, then_of_ne hminor]
    · rw [then_of_ne hmajor, then_of_ne hmajor]

/-- **The comparison of two texts is a total preorder with what is no version lowest, and it is
the precedence of SemVer exactly on the pairs that are narrow.** -/
theorem compareSemver_precedence (a b : List Char) :
    (∀ va vb, parseVersion a = some va → parseVersion b = some vb →
      (compareSemver a b = precedence va vb ↔ NarrowPair va vb)) ∧
    TotalPreorder compareSemver ∧
    (parseVersion a = none →
      compareSemver a b ≠ .gt ∧ (parseVersion b ≠ none → compareSemver a b = .lt)) := by
  refine ⟨fun va vb ha hb => ?_, ?_, fun ha => ?_⟩
  · rw [compareSemver, ha, hb]
    exact compareVersions_eq_precedence_iff va vb
  · have horder : compareSemver = fun a b => order (rank a) (rank b) :=
      funext₂ compareSemver_eq_order
    rw [horder]
    exact totalPreorder_order rank
  · rw [compareSemver, ha]
    rcases parseVersion b with _ | vb
    · exact ⟨Ordering.noConfusion, fun h => absurd rfl h⟩
    · exact ⟨Ordering.noConfusion, fun _ => rfl⟩

theorem compareSemver_precedence_unstable :
    compareSemver "0.5.0-unstable.9".toList "0.5.0-unstable.10".toList = .lt ∧
      NarrowPair ⟨0, 5, 0, some "unstable.9".toList⟩ ⟨0, 5, 0, some "unstable.10".toList⟩ :=
  ⟨by decide, ((compareSemver_precedence "0.5.0-unstable.9".toList
    "0.5.0-unstable.10".toList).1 _ _ rfl rfl).mp (by decide)⟩

/-- A number beyond a machine word is below one. -/
theorem compareSemver_wide :
    ¬ ∀ a b va vb, parseVersion a = some va → parseVersion b = some vb →
      compareSemver a b = precedence va vb := by
  intro h
  have hwide := h "1.0.0-18446744073709551616".toList "1.0.0-1".toList
    ⟨1, 0, 0, some "18446744073709551616".toList⟩ ⟨1, 0, 0, some "1".toList⟩ (by decide) (by decide)
  exact absurd hwide (by decide)

end Semver

end Pantoken.Remote
