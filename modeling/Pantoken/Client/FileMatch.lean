import Mathlib.Algebra.Order.Ring.Rat
import Mathlib.Data.List.DropRight
import Mathlib.Data.List.Lex
import Mathlib.Data.Prod.Lex
import Pantoken.Lib.Rounding
import Pantoken.Lib.Utf16

/-!
# Files for a mention

The files of a project are ranked against what is typed after the sign of a mention: a file matches
when the query is a subsequence of its path, in lower case.  The matches come in tiers, by where
the query stands in the path as one piece, and those where it does not by a score of an alignment.

## Main definitions

* `fuzzyScore`, `filterFiles` — the client.
* `alignments`, `bestScore`, `docTier` — all the ways to find a query in a path, the score of the
  best one, and the tier as it is documented.
* `docLe` — the documented order.
* `Judged` — the pairs of paths where the leftmost alignments and the first places stand for the
  best ones.

## Main results

* `fuzzyScore_isSome_iff` — **what is scored are the paths that the query is a subsequence of.**
* `mem_alignments_iff` — what is enumerated are the increasing positions of the query.
* `matchPositions_leftmost` — the matcher finds the leftmost alignment.
* `abs_scoreOf_sub_le` — how far the score of an alignment is off in doubles.
* `filterFiles_ranked` — **the first of the matching files in the documented order**, where the
  leftmost alignments are best ones and the first place of the query is as good as any.
* `not_asClaimed` — no query, a directory, a tier that is alphabetical, and the other cases.
-/

namespace Pantoken.Client.FileMatch

open Rounding

def slash : ℕ := '/'.toNat

/-- `WORD_BOUNDARIES` -/
def wordBoundaries : List ℕ := ['-', '_', '.', ' '].map Char.toNat

structure FileInfo where
  path : JsString
  isDirectory : Bool
  deriving DecidableEq

/-! ### Scores -/

/-- The leftmost positions of a query, from a position on; `none` where it is no subsequence. -/
def matchPositions : ℕ → JsString → JsString → Option (List ℕ)
  | _, _, [] => some []
  | _, [], _ :: _ => none
  | pi, c :: path, qc :: q =>
    if c = qc then (matchPositions (pi + 1) path q).map (pi :: ·)
    else matchPositions (pi + 1) path (qc :: q)

/-- A position at the start of the path or after a slash. -/
def startsSegment (path : JsString) (pos : ℕ) : Bool :=
  pos = 0 ∨ path[pos - 1]? = some slash

/-- A position after a word separator. -/
def startsWord (path : JsString) (pos : ℕ) : Bool :=
  0 < pos ∧ path[pos - 1]?.any (wordBoundaries.contains ·)

/-- The loop that scores some positions, where `round` rounds the results of the arithmetic. -/
def scoreFrom (round : ℚ → ℚ) (path : JsString) : List ℕ → ℤ → ℕ → ℚ → ℚ
  | [], _, _, score => score
  | pos :: rest, prevPos, consecutive, score =>
    let consecutive := if pos = prevPos + 1 then consecutive + 1 else 0
    let score := round (score + if pos = prevPos + 1 then 10 + consecutive * 5 else 1)
    let score :=
      if startsSegment path pos then round (score + 20)
      else if startsWord path pos then round (score + 10)
      else score
    -- early positions are worth slightly more
    scoreFrom round path rest pos consecutive (round (score - round (pos * round (1 / 10))))

def scoreOf (round : ℚ → ℚ) (path : JsString) (positions : List ℕ) : ℚ :=
  scoreFrom round path positions (-2) 0 0

/-! ### Tiers -/

/-- The path after its last slash. -/
def basename (path : JsString) : JsString := path.rtakeWhile (· ≠ slash)

def basenameStart (path : JsString) : ℕ := path.length - (basename path).length

/-- `indexOf` -/
def indexOf (path q : JsString) : Option ℕ :=
  (List.range (path.length + 1)).find? fun i => q.isPrefixOf (path.drop i)

/-- The tier of a path that matches. -/
def tierOf (path q : JsString) : ℕ :=
  if q.isPrefixOf path then 0
  else if q.isPrefixOf (basename path) then 1
  else if (List.range (basenameStart path)).any fun i =>
      path[i]? = some slash && q.isPrefixOf (path.drop (i + 1)) then 2
  else
    match indexOf path q with
    | some wbIdx => if startsWord path wbIdx then 3 else 4
    | none => 4

structure FuzzyScore where
  tier : ℕ
  score : ℚ
  len : ℕ

def fuzzyScore (round : ℚ → ℚ) (path q : JsString) : Option FuzzyScore :=
  if q = [] then some ⟨0, 0, path.length⟩
  else if path.length < q.length then none
  else
    (matchPositions 0 path q).map fun positions =>
      ⟨tierOf path q, scoreOf round path positions, path.length⟩

/-! ### The ranking -/

section Filter

variable {κ : Type*} [LinearOrder κ] (round : ℚ → ℚ) (lower : JsString → JsString)
  (collate : JsString → κ)

/-- The directory of a drill-down and its immediate children. -/
def drilled (dirQuery : JsString) (f : FileInfo) : Bool :=
  (lower f.path = dirQuery ∧ f.isDirectory) ∨
    (dirQuery ++ [slash] <+: lower f.path ∧ slash ∉ (lower f.path).drop (dirQuery.length + 1))

/-- The files that match, with their scores. -/
def scored (files : List FileInfo) (q : JsString) : List (FileInfo × FuzzyScore) :=
  files.filterMap fun f => (fuzzyScore round (lower f.path) q).map (f, ·)

/-- The comparison of `sort`; `localeCompare` compares collation keys. -/
def sortLe (a b : FileInfo × FuzzyScore) : Bool :=
  if a.2.tier ≠ b.2.tier then a.2.tier ≤ b.2.tier
  else if a.2.tier = 4 ∧ a.2.score ≠ b.2.score then b.2.score ≤ a.2.score
  else collate a.1.path ≤ collate b.1.path

def filterFiles (files : List FileInfo) (query : JsString) (limit : ℕ) : List FileInfo :=
  if query = [] then files.take limit
  else if query.getLast? = some slash then
    -- drill-down: in the order of the index, and not scored
    (files.filter (drilled lower (lower query.dropLast))).take limit
  else
    (((scored round lower files (lower query)).mergeSort (sortLe collate)).take limit).map (·.1)

end Filter

/-! ### What is documented -/

/-- All the ways to find a query in a path, from a position on. -/
def alignments : ℕ → JsString → JsString → List (List ℕ)
  | _, _, [] => [[]]
  | _, [], _ :: _ => []
  | i, c :: path, d :: q =>
    (if c = d then (alignments (i + 1) path q).map (i :: ·) else []) ++
      alignments (i + 1) path (d :: q)

/-- The alignment each of whose positions is the first possible one. -/
def Leftmost (path q : JsString) (ps : List ℕ) : Prop :=
  ps ∈ alignments 0 path q ∧ ∀ qs ∈ alignments 0 path q, List.Forall₂ (· ≤ ·) ps qs

instance (path q : JsString) (ps : List ℕ) : Decidable (Leftmost path q ps) :=
  inferInstanceAs (Decidable (_ ∧ _))

/-- The score of an alignment in exact arithmetic. -/
def exactScore (path : JsString) (positions : List ℕ) : ℚ := scoreOf id path positions

/-- The score of the best alignment. -/
def bestScore (path q : JsString) : ℚ :=
  (((alignments 0 path q).map (exactScore path)).max?).getD 0

/-- The tier of a path as it is documented. -/
def docTier (path q : JsString) : ℕ :=
  if q <+: path then 0
  else if q <+: basename path then 1
  else if ∃ i < path.length, path[i]? = some slash ∧ q <+: path.drop (i + 1) then 2
  else if ∃ i < path.length + 1, startsWord path i = true ∧ q <+: path.drop i then 3
  else 4

/-! ### Positions -/

section Positions

variable {path q : JsString} {i : ℕ} {ps : List ℕ}

theorem matchPositions_isSome_iff : (matchPositions i path q).isSome = true ↔ q.Sublist path := by
  induction path generalizing i q with
  | nil =>
    cases q with
    | nil => exact iff_of_true rfl (List.nil_sublist _)
    | cons d q => exact iff_of_false Bool.false_ne_true fun h => by cases h
  | cons c path ih =>
    cases q with
    | nil => exact iff_of_true rfl (List.nil_sublist _)
    | cons d q =>
      unfold matchPositions
      split_ifs with hc
      · subst hc
        rw [Option.isSome_map, ih, List.cons_sublist_cons]
      · -- a code unit of the path that is not the next of the query is passed over
        rw [ih, List.sublist_cons_iff]
        refine ⟨.inl, fun h => h.resolve_right ?_⟩
        rintro ⟨r, hr, -⟩
        exact hc (List.cons.inj hr).1.symm

/-- **What is scored are the paths that the query is a subsequence of.** -/
theorem fuzzyScore_isSome_iff (round : ℚ → ℚ) (path q : JsString) :
    (fuzzyScore round path q).isSome = true ↔ q.Sublist path := by
  unfold fuzzyScore
  split_ifs with hq hlt
  · rw [hq]
    exact iff_of_true rfl (List.nil_sublist _)
  · exact iff_of_false Bool.false_ne_true fun h => absurd h.length_le (Nat.not_le.mpr hlt)
  · rw [Option.isSome_map, matchPositions_isSome_iff]

theorem getElem?_cons_sub {c p : ℕ} (h : i + 1 ≤ p) : (c :: path)[p - i]? = path[p - (i + 1)]? := by
  rw [show p - i = p - (i + 1) + 1 by omega, List.getElem?_cons_succ]

theorem alignments_nil : alignments i path [] = [[]] := by cases path <;> rfl

theorem matchPositions_nil : matchPositions i path [] = some [] := by cases path <;> rfl

/-- An empty query is found in one way. -/
theorem mem_alignments_nil : ps ∈ alignments i path [] ↔
    ps.Pairwise (· < ·) ∧ (∀ p ∈ ps, i ≤ p) ∧
      ps.map (fun p => path[p - i]?) = ([] : JsString).map some := by
  rw [alignments_nil, List.mem_singleton]
  constructor
  · rintro rfl
    exact ⟨.nil, fun _ h => (List.not_mem_nil h).elim, rfl⟩
  · exact fun h => List.map_eq_nil_iff.mp h.2.2

theorem mem_alignments_from : ps ∈ alignments i path q ↔
    ps.Pairwise (· < ·) ∧ (∀ p ∈ ps, i ≤ p) ∧ ps.map (fun p => path[p - i]?) = q.map some := by
  induction path generalizing i q ps with
  | nil =>
    cases q with
    | nil => exact mem_alignments_nil
    | cons d q =>
      refine iff_of_false List.not_mem_nil ?_
      rintro ⟨-, -, hmap⟩
      cases ps with
      | nil => cases hmap
      | cons p ps => cases (List.cons.inj hmap).1
  | cons c path ih =>
    cases q with
    | nil => exact mem_alignments_nil
    | cons d q =>
      -- past the first position the same alignment is one of the rest of the path
      have hshift : ∀ {qs : List ℕ}, (∀ p ∈ qs, i + 1 ≤ p) →
          qs.map (fun p => (c :: path)[p - i]?) = qs.map fun p => path[p - (i + 1)]? :=
        fun hqs => List.map_congr_left fun p hp => getElem?_cons_sub (hqs p hp)
      unfold alignments
      rw [List.mem_append, ih]
      constructor
      · rintro (hhere | ⟨hlt, hle, hmap⟩)
        · split_ifs at hhere with hc
          · obtain ⟨qs, hqs, rfl⟩ := List.mem_map.mp hhere
            obtain ⟨hlt, hle, hmap⟩ := ih.mp hqs
            refine ⟨List.pairwise_cons.mpr ⟨hle, hlt⟩, ?_, ?_⟩
            · exact List.forall_mem_cons.mpr
                ⟨Nat.le_refl i, fun p hp => Nat.le_of_succ_le (hle p hp)⟩
            · rw [List.map_cons, List.map_cons, hshift hle, hmap, Nat.sub_self, hc]
              rfl
          · exact (List.not_mem_nil hhere).elim
        · exact ⟨hlt, fun p hp => Nat.le_of_succ_le (hle p hp), (hshift hle).trans hmap⟩
      · rintro ⟨hlt, hle, hmap⟩
        cases ps with
        | nil => cases hmap
        | cons p qs =>
          obtain ⟨hfirst, hrest⟩ := List.cons.inj hmap
          obtain ⟨hbefore, hlt'⟩ := List.pairwise_cons.mp hlt
          obtain rfl | hp := Nat.eq_or_lt_of_le (hle p List.mem_cons_self)
          · dsimp only at hfirst
            rw [Nat.sub_self] at hfirst
            left
            rw [if_pos (Option.some.inj hfirst)]
            exact List.mem_map_of_mem (ih.mpr ⟨hlt', hbefore, (hshift hbefore).symm.trans hrest⟩)
          · have hall : ∀ r ∈ p :: qs, i + 1 ≤ r := List.forall_mem_cons.mpr
              ⟨hp, fun r hr => Nat.le_of_lt (Nat.lt_of_le_of_lt hp (hbefore r hr))⟩
            exact .inr ⟨hlt, hall, (hshift hall).symm.trans hmap⟩

/-- **The alignments of a query are the increasing positions that it stands at.** -/
theorem mem_alignments_iff : ps ∈ alignments 0 path q ↔
    ps.Pairwise (· < ·) ∧ ps.map (path[·]?) = q.map some := by
  rw [mem_alignments_from]
  exact and_congr_right fun _ => and_iff_right fun p _ => Nat.zero_le p

theorem matchPositions_nil_mem (h : matchPositions i path [] = some ps) :
    ps ∈ alignments i path [] := by
  rw [matchPositions_nil] at h
  obtain rfl := Option.some.inj h
  rw [alignments_nil]
  exact List.mem_singleton_self _

theorem matchPositions_mem (h : matchPositions i path q = some ps) : ps ∈ alignments i path q := by
  induction path generalizing i q ps with
  | nil =>
    cases q with
    | nil => exact matchPositions_nil_mem h
    | cons d q => cases h
  | cons c path ih =>
    cases q with
    | nil => exact matchPositions_nil_mem h
    | cons d q =>
      unfold matchPositions at h
      unfold alignments
      split_ifs at h ⊢ with hc
      · obtain ⟨qs, hqs, rfl⟩ := Option.map_eq_some_iff.mp h
        exact List.mem_append_left _ (List.mem_map_of_mem (ih hqs))
      · exact ih h

/-- No alignment has a position before the one that the matcher finds for it. -/
theorem matchPositions_le (h : matchPositions i path q = some ps) :
    ∀ qs ∈ alignments i path q, List.Forall₂ (· ≤ ·) ps qs := by
  induction path generalizing i q ps with
  | nil =>
    cases q with
    | nil =>
      obtain rfl := Option.some.inj h
      intro qs hqs
      obtain rfl := List.mem_singleton.mp hqs
      exact .nil
    | cons d q => cases h
  | cons c path ih =>
    cases q with
    | nil =>
      obtain rfl := Option.some.inj h
      intro qs hqs
      obtain rfl := List.mem_singleton.mp hqs
      exact .nil
    | cons d q =>
      intro qs hqs
      obtain ⟨hlt, hle, hmap⟩ := mem_alignments_from.mp hqs
      unfold matchPositions at h
      split_ifs at h with hc
      · -- the first position is the first of all, and the others are behind it
        obtain ⟨ps', hps', rfl⟩ := Option.map_eq_some_iff.mp h
        cases qs with
        | nil => cases hmap
        | cons p qs =>
          obtain ⟨hbefore, hlt'⟩ := List.pairwise_cons.mp hlt
          have hfirst : i ≤ p := hle p List.mem_cons_self
          have hbehind : ∀ r ∈ qs, i + 1 ≤ r := fun r hr => by
            have := hbefore r hr
            omega
          refine .cons hfirst (ih hps' qs (mem_alignments_from.mpr ⟨hlt', hbehind, ?_⟩))
          rw [← (List.cons.inj hmap).2]
          exact List.map_congr_left fun r hr => (getElem?_cons_sub (hbehind r hr)).symm
      · -- no alignment takes a code unit that is not the first of the query
        refine ih h qs ?_
        unfold alignments at hqs
        rwa [if_neg hc, List.nil_append] at hqs

theorem matchPositions_leftmost (h : matchPositions 0 path q = some ps) : Leftmost path q ps :=
  ⟨matchPositions_mem h, matchPositions_le h⟩

theorem Leftmost.unique {qs : List ℕ} (h : Leftmost path q ps) (h' : Leftmost path q qs) :
    ps = qs := by
  have hantisymm {ps qs : List ℕ} (hle : List.Forall₂ (· ≤ ·) ps qs)
      (hge : List.Forall₂ (· ≤ ·) qs ps) : ps = qs := by
    induction hle with
    | nil => rfl
    | cons hp _ ih =>
      cases hge with
      | cons hq hge => rw [Nat.le_antisymm hp hq, ih hge]
  exact hantisymm (h.2 qs h'.1) (h'.2 ps h.1)

/-- The positions of an alignment are in the path, one for each code unit of the query. -/
theorem lt_of_mem_alignments (h : ps ∈ alignments 0 path q) :
    ps.length = q.length ∧ ∀ p ∈ ps, p < path.length := by
  have hmap := (mem_alignments_iff.mp h).2
  refine ⟨by simpa using congrArg List.length hmap, fun p hp => ?_⟩
  obtain ⟨c, -, hc⟩ := List.mem_map.mp (hmap ▸ List.mem_map_of_mem (f := (path[·]?)) hp)
  exact (List.getElem?_eq_some_iff.mp hc.symm).1

/-- The best score is that of an alignment. -/
theorem exists_bestScore (h : ps ∈ alignments 0 path q) :
    ∃ qs ∈ alignments 0 path q, exactScore path qs = bestScore path q := by
  have hmem := List.mem_map_of_mem (f := exactScore path) h
  cases hmax : ((alignments 0 path q).map (exactScore path)).max? with
  | none =>
    rw [List.max?_eq_none_iff.mp hmax] at hmem
    cases hmem
  | some best =>
    rw [bestScore, hmax]
    exact List.mem_map.mp (List.max?_eq_some_iff.mp hmax).1

end Positions

/-! ### Scores in doubles -/

section Scores

variable {round : ℚ → ℚ} {path q : JsString} {ps : List ℕ}

/-- A score is computed from the positions and from what starts there. -/
theorem scoreFrom_congr {path' : JsString}
    (h : ∀ p ∈ ps, startsSegment path p = startsSegment path' p ∧
      startsWord path p = startsWord path' p) (prevPos : ℤ) (consecutive : ℕ) (score : ℚ) :
    scoreFrom round path ps prevPos consecutive score =
      scoreFrom round path' ps prevPos consecutive score := by
  induction ps generalizing prevPos consecutive score with
  | nil => rfl
  | cons pos rest ih =>
    obtain ⟨hpos, hrest⟩ := List.forall_mem_cons.mp h
    unfold scoreFrom
    simp only [hpos.1, hpos.2]
    exact ih hrest _ _ _

/-- How much one position can add to a score, or take from it, when no run is longer than `m`. -/
def scoreStep (path : JsString) (m : ℕ) : ℚ := 30 + 5 * m + path.length / 10

/-- What starts at a position adds to the score. -/
theorem near_start {u c t s s' : ℚ} (hround : RelErr u round) (hu : 0 ≤ u) (hc : 1 ≤ c)
    (h : Near c t s s') (path : JsString) (pos : ℕ) :
    Near (c * (1 + u)) (t + 20)
      (if startsSegment path pos then round (s + 20)
        else if startsWord path pos then round (s + 10) else s)
      (if startsSegment path pos then s' + 20
        else if startsWord path pos then s' + 10 else s') := by
  have hgrow : c ≤ c * (1 + u) := le_mul_of_one_le_right (by linarith) (by linarith)
  split_ifs
  · exact (h.add_exact hc (by norm_num)).round hround hu
  · exact (h.add_exact hc (by norm_num)).round hround hu
  · exact h.mono hgrow (hc.trans hgrow) (by linarith)

/-- A late position takes from it. -/
theorem near_penalty {u : ℚ} (hround : RelErr u round) (hu : 0 ≤ u) {pos : ℕ}
    (hpos : pos < path.length) :
    Near ((1 + u) ^ 2) (path.length / 10) (round (pos * round (1 / 10))) (pos * (1 / 10)) := by
  have htenth : Near (1 * (1 + u)) (1 / 10) (round (1 / 10)) (1 / 10) :=
    (Near.exact (by norm_num)).round hround hu
  have hproduct := (htenth.mul (Nat.cast_nonneg pos)).round hround hu
  rw [one_mul, ← pow_two] at hproduct
  refine hproduct.mono le_rfl (one_le_pow₀ (by linarith)) ?_
  have : (pos : ℚ) ≤ path.length := by exact_mod_cast hpos.le
  linarith

/-- Three roundings for each position, and two in the penalty. -/
theorem near_scoreFrom {u c t s s' : ℚ} (hround : RelErr u round) (hu : 0 ≤ u) {m : ℕ}
    (hps : ∀ p ∈ ps, p < path.length) {consecutive : ℕ} (hm : consecutive + ps.length ≤ m)
    (hc : (1 + u) ^ 2 ≤ c) (h : Near c t s s') (prevPos : ℤ) :
    Near (c * (1 + u) ^ (3 * ps.length)) (t + ps.length * scoreStep path m)
      (scoreFrom round path ps prevPos consecutive s)
      (scoreFrom id path ps prevPos consecutive s') := by
  induction ps generalizing consecutive prevPos c t s s' with
  | nil => simpa [scoreFrom] using h
  | cons pos rest ih =>
    obtain ⟨hpos, hrest⟩ := List.forall_mem_cons.mp hps
    rw [List.length_cons] at hm
    have hone : (1 : ℚ) ≤ 1 + u := by linarith
    have hc1 : 1 ≤ c := (one_le_pow₀ hone).trans hc
    have hgrow (n : ℕ) : c ≤ c * (1 + u) ^ n :=
      le_mul_of_one_le_right (by linarith) (one_le_pow₀ hone)
    obtain ⟨k, hk⟩ : ∃ k, k = if (pos : ℤ) = prevPos + 1 then consecutive + 1 else 0 := ⟨_, rfl⟩
    have hkm : k + rest.length ≤ m := by
      rw [hk]
      split_ifs <;> omega
    obtain ⟨gain, hgain⟩ : ∃ gain : ℚ, gain = if (pos : ℤ) = prevPos + 1 then 10 + k * 5 else 1 :=
      ⟨_, rfl⟩
    have hgain_le : |gain| ≤ 10 + 5 * m := by
      have hkm : (k : ℚ) ≤ m := by exact_mod_cast (Nat.le_add_right k _).trans hkm
      have : (0 : ℚ) ≤ k := Nat.cast_nonneg k
      rw [hgain, abs_le]
      split_ifs <;> push_cast <;> constructor <;> linarith
    -- the run, the start and the penalty
    have hgained := (h.add_exact hc1 hgain_le).round hround hu
    have hstart := near_start hround hu (by simpa using hc1.trans (hgrow 1)) hgained path pos
    rw [mul_assoc, ← pow_two] at hstart
    have hpenalty := (near_penalty hround hu hpos).mono (hc.trans (hgrow 2))
      (hc1.trans (hgrow 2)) le_rfl
    have hstep := (hstart.sub hpenalty).round hround hu
    rw [mul_assoc, ← pow_succ] at hstep
    have hrun := ih hrest hkm (hc.trans (hgrow 3)) hstep pos
    unfold scoreFrom
    simp only [← hk, ← hgain, id]
    convert hrun using 1
    · rw [mul_assoc, ← pow_add, List.length_cons]
      ring_nf
    · rw [List.length_cons]
      unfold scoreStep
      push_cast
      ring

/-- By how much the score of a path can be off in doubles. -/
def scoreError (path q : JsString) : ℚ :=
  ((1 + 1 / 2 ^ 53) ^ (3 * q.length + 2) - 1) * (q.length * scoreStep path q.length)

/-- **The score of an alignment in doubles is near the exact one.** -/
theorem abs_scoreOf_sub_le (hround : RelErr (1 / 2 ^ 53) round) (h : ps ∈ alignments 0 path q) :
    |scoreOf round path ps - exactScore path ps| ≤ scoreError path q := by
  obtain ⟨hlen, hlt⟩ := lt_of_mem_alignments h
  have hzero : Near ((1 + 1 / 2 ^ 53) ^ 2) 0 0 0 :=
    (Near.exact (by simp)).mono (one_le_pow₀ (by norm_num)) (one_le_pow₀ (by norm_num)) le_rfl
  have hnear := near_scoreFrom hround (by positivity) hlt (show 0 + ps.length ≤ q.length by omega)
    le_rfl hzero (-2)
  have herror := hnear.error
  rwa [← pow_add, hlen, zero_add, add_comm 2] at herror

/-- Exact scores are multiples of a tenth. -/
theorem exists_tenths (path : JsString) (ps : List ℕ) : ∃ k : ℤ, 10 * exactScore path ps = k := by
  have hfrom (prevPos : ℤ) (consecutive : ℕ) (score : ℚ) (hscore : ∃ k : ℤ, 10 * score = k) :
      ∃ k : ℤ, 10 * scoreFrom id path ps prevPos consecutive score = k := by
    induction ps generalizing prevPos consecutive score with
    | nil => exact hscore
    | cons pos rest ih =>
      obtain ⟨k, hk⟩ := hscore
      refine ih _ _ _ ?_
      obtain ⟨gain, hgain⟩ : ∃ gain : ℕ, gain = if (pos : ℤ) = prevPos + 1 then
        10 + (if (pos : ℤ) = prevPos + 1 then consecutive + 1 else 0) * 5 else 1 := ⟨_, rfl⟩
      simp only [← hgain, id]
      split_ifs
      · exact ⟨k + 10 * gain + 200 - pos, by push_cast; linarith⟩
      · exact ⟨k + 10 * gain + 100 - pos, by push_cast; linarith⟩
      · exact ⟨k + 10 * gain - pos, by push_cast; linarith⟩
  exact hfrom (-2) 0 0 ⟨0, by simp⟩

/-- A score of a path of a length that occurs is off by less than half of a tenth. -/
theorem scoreError_lt (hq : q.length ≤ path.length) (hpath : path.length ≤ 10000) :
    scoreError path q < 1 / 20 := by
  have hm : (q.length : ℚ) ≤ 10000 := by exact_mod_cast hq.trans hpath
  have hn : (path.length : ℚ) ≤ 10000 := by exact_mod_cast hpath
  have hfactor : (1 + 1 / 2 ^ 53 : ℚ) ^ (3 * q.length + 2) - 1 ≤ 60004 / 2 ^ 53 := by
    have hpow := one_add_pow_le (u := 1 / 2 ^ 53) (n := 3 * q.length + 2) (by positivity) (by
      push_cast
      linarith)
    push_cast at hpow
    linarith
  have hstep : scoreStep path q.length ≤ 51030 := by
    unfold scoreStep
    linarith
  calc scoreError path q ≤ 60004 / 2 ^ 53 * (10000 * 51030) := by
        unfold scoreError
        have : 0 ≤ scoreStep path q.length := by
          unfold scoreStep
          positivity
        gcongr
    _ < 1 / 20 := by norm_num

/-- So two best scores that are not the same are told apart in doubles. -/
theorem scoreError_lt_of_ne {path' : JsString} (h : q.Sublist path) (h' : q.Sublist path')
    (hpath : path.length ≤ 10000) (hpath' : path'.length ≤ 10000)
    (hne : bestScore path q ≠ bestScore path' q) :
    scoreError path q + scoreError path' q < |bestScore path q - bestScore path' q| := by
  have htenths {path : JsString} (h : q.Sublist path) : ∃ k : ℤ, 10 * bestScore path q = k := by
    obtain ⟨ps, hps⟩ := Option.isSome_iff_exists.mp (matchPositions_isSome_iff (i := 0).mpr h)
    obtain ⟨qs, -, hqs⟩ := exists_bestScore (matchPositions_mem hps)
    rw [← hqs]
    exact exists_tenths path qs
  obtain ⟨k, hk⟩ := htenths h
  obtain ⟨k', hk'⟩ := htenths h'
  have hdist : (1 : ℚ) ≤ |(k : ℚ) - k'| := by
    have hk : k - k' ≠ 0 := by
      intro heq
      rw [sub_eq_zero.mp heq, ← hk'] at hk
      exact hne (by linarith)
    exact_mod_cast Int.one_le_abs hk
  rw [← hk, ← hk', ← mul_sub, abs_mul, abs_of_pos (by norm_num : (0 : ℚ) < 10)] at hdist
  have hlt := scoreError_lt h.length_le hpath
  have hlt' := scoreError_lt h'.length_le hpath'
  linarith

end Scores

/-! ### The two tiers -/

section Tiers

variable {path q : JsString}

/-- A slash is before the last part of a path. -/
theorem lt_basenameStart {i : ℕ} (h : path[i]? = some slash) : i < basenameStart path := by
  have hsplit : path.rdropWhile (· ≠ slash) ++ basename path = path :=
    List.rdropWhile_append_rtakeWhile
  have hlen : (path.rdropWhile (· ≠ slash)).length = basenameStart path := by
    have := congrArg List.length hsplit
    rw [List.length_append] at this
    unfold basenameStart
    omega
  -- from there on, what is left of the path has no slash
  by_contra hle
  rw [← hsplit, List.getElem?_append_right (by omega)] at h
  have hne := List.mem_rtakeWhile_imp (List.mem_of_getElem? h)
  exact of_decide_eq_true hne rfl

theorem any_interior_iff : ((List.range (basenameStart path)).any fun i =>
      path[i]? = some slash && q.isPrefixOf (path.drop (i + 1))) = true ↔
    ∃ i < path.length, path[i]? = some slash ∧ q <+: path.drop (i + 1) := by
  rw [List.any_eq_true]
  constructor
  · rintro ⟨i, -, h⟩
    obtain ⟨hslash, hpre⟩ := Bool.and_eq_true_iff.mp h
    have hslash := of_decide_eq_true hslash
    exact ⟨i, (List.getElem?_eq_some_iff.mp hslash).1, hslash, List.isPrefixOf_iff_prefix.mp hpre⟩
  · rintro ⟨i, -, hslash, hpre⟩
    refine ⟨i, List.mem_range.mpr (lt_basenameStart hslash), Bool.and_eq_true_iff.mpr ⟨?_, ?_⟩⟩
    · exact decide_eq_true hslash
    · exact List.isPrefixOf_iff_prefix.mpr hpre

/-- **The tier is the documented one, or the query stands after a separator and not at its first
place.** -/
theorem tierOf_cases (path q : JsString) :
    tierOf path q = docTier path q ∨ (tierOf path q = 4 ∧ docTier path q = 3) := by
  unfold tierOf docTier
  simp only [List.isPrefixOf_iff_prefix, any_interior_iff]
  split_ifs with hfront hbase hinterior hword
  · exact .inl rfl
  · exact .inl rfl
  · exact .inl rfl
  · -- the query stands after a separator, and `indexOf` looks at its first place only
    cases indexOf path q with
    | none => exact .inr ⟨rfl, rfl⟩
    | some wbIdx =>
      dsimp only
      split_ifs
      · exact .inl rfl
      · exact .inr ⟨rfl, rfl⟩
  · -- it stands after no separator, so not at its first place either
    left
    cases hindex : indexOf path q with
    | none => rfl
    | some wbIdx =>
      refine if_neg fun hstarts => hword ⟨wbIdx, ?_, hstarts, ?_⟩
      · exact List.mem_range.mp (List.mem_of_find?_eq_some hindex)
      · exact List.isPrefixOf_iff_prefix.mp
          (List.find?_some (p := fun i => q.isPrefixOf (path.drop i)) hindex)

/-- Where the query stands after a separator and in no better place, it does so at its first
place. -/
def FirstPlace (path q : JsString) : Prop :=
  docTier path q = 3 → ∃ i < path.length + 1,
    (q <+: path.drop i ∧ ∀ j < i, ¬ q <+: path.drop j) ∧ startsWord path i = true

instance (path q : JsString) : Decidable (FirstPlace path q) :=
  inferInstanceAs (Decidable (_ → _))

/-- There the tier is the documented one. -/
theorem FirstPlace.tierOf_eq (h : FirstPlace path q) : tierOf path q = docTier path q := by
  rcases tierOf_cases path q with htier | ⟨hfour, hthree⟩
  · exact htier
  · obtain ⟨i, hi, ⟨hpre, hfirst⟩, hstarts⟩ := h hthree
    have hindex : indexOf path q = some i := by
      refine List.find?_range_eq_some.mpr
        ⟨List.isPrefixOf_iff_prefix.mpr hpre, List.mem_range.mpr hi, fun j hj => ?_⟩
      rw [Bool.not_eq_true', ← Bool.not_eq_true, List.isPrefixOf_iff_prefix]
      exact hfirst j hj
    unfold tierOf at hfour
    rw [hindex] at hfour
    dsimp only at hfour
    rw [if_pos hstarts] at hfour
    split_ifs at hfour <;> omega

end Tiers

/-! ### The order of the ranking -/

section Ranking

variable {κ : Type*} [LinearOrder κ] (round : ℚ → ℚ) (lower : JsString → JsString)
  (collate : JsString → κ) (q : JsString)

/-- The score that is computed for a path. -/
def foundScore (path : JsString) : ℚ :=
  ((matchPositions 0 path q).map (scoreOf round path)).getD 0

/-- **The documented order**: by the tier, then by the score of the best alignment where the query
is in no one piece, then by the path. -/
def docLe (a b : FileInfo) : Prop :=
  let tier (f : FileInfo) := docTier (lower f.path) q
  let best (f : FileInfo) := bestScore (lower f.path) q
  tier a < tier b ∨ tier a = tier b ∧
    if tier a = 4 ∧ best a ≠ best b then best b ≤ best a else collate a.path ≤ collate b.path

/-- The leftmost alignment of a query is a best one. -/
def LeftmostBest (path q : JsString) : Prop :=
  ∀ ps ∈ alignments 0 path q, Leftmost path q ps → exactScore path ps = bestScore path q

/-- The leftmost alignments of two paths are at the same positions, and the same starts there. -/
def SameMarks (a b q : JsString) : Prop :=
  ∃ ps ∈ alignments 0 a q, Leftmost a q ps ∧ Leftmost b q ps ∧
    ∀ p ∈ ps, startsSegment a p = startsSegment b p ∧ startsWord a p = startsWord b p

/-- One of two paths has the query at the start of a part; or both have it after a separator at its
first place, if at all, and where neither has it there, the leftmost alignments are best ones and
the best scores are told apart in doubles, if the alignments are not the same. -/
def Judged (a b : JsString) : Prop :=
  docTier a q ≤ 2 ∨ docTier b q ≤ 2 ∨
    (FirstPlace a q ∧ FirstPlace b q ∧
      (docTier a q = 4 → docTier b q = 4 →
        LeftmostBest a q ∧ LeftmostBest b q ∧
          (SameMarks a b q ∨ scoreError a q + scoreError b q < |bestScore a q - bestScore b q|)))

instance (a b : JsString) : Decidable (LeftmostBest a b) :=
  inferInstanceAs (Decidable (∀ _ ∈ _, _))

instance (a b : JsString) : Decidable (SameMarks a b q) :=
  inferInstanceAs (Decidable (∃ _ ∈ _, _))

instance (a b : JsString) : Decidable (Judged q a b) :=
  inferInstanceAs (Decidable (_ ∨ _))

variable {round lower collate q}

/-- What the sort compares. -/
def sortKey (collate : JsString → κ) (a : FileInfo × FuzzyScore) : ℕ ×ₗ ℚ ×ₗ κ :=
  toLex (a.2.tier, toLex (if a.2.tier = 4 then -a.2.score else 0, collate a.1.path))

theorem sortLe_iff {a b : FileInfo × FuzzyScore} :
    sortLe collate a b = true ↔ sortKey collate a ≤ sortKey collate b := by
  unfold sortLe sortKey
  rw [Prod.Lex.toLex_le_toLex, Prod.Lex.toLex_le_toLex]
  split_ifs with htier hscore <;> grind

theorem pairwise_sorted (l : List (FileInfo × FuzzyScore)) :
    (l.mergeSort (sortLe collate)).Pairwise fun a b => sortLe collate a b = true := by
  refine List.pairwise_mergeSort (fun a b c hab hbc => ?_) (fun a b => ?_) l
  · exact sortLe_iff.mpr ((sortLe_iff.mp hab).trans (sortLe_iff.mp hbc))
  · rw [Bool.or_eq_true, sortLe_iff, sortLe_iff]
    exact le_total _ _

theorem fuzzyScore_eq {path : JsString} {r : FuzzyScore} (h : fuzzyScore round path q = some r) :
    r.tier = tierOf path q ∧ r.score = foundScore round q path := by
  unfold fuzzyScore at h
  split_ifs at h with hq hlt
  · subst hq
    cases h
    cases path <;> exact ⟨rfl, rfl⟩
  · obtain ⟨positions, hpositions, rfl⟩ := Option.map_eq_some_iff.mp h
    rw [foundScore, hpositions]
    exact ⟨rfl, rfl⟩

theorem mem_scored {files : List FileInfo} {a : FileInfo × FuzzyScore}
    (h : a ∈ scored round lower files q) :
    a.1 ∈ files ∧ a.2.tier = tierOf (lower a.1.path) q ∧
      a.2.score = foundScore round q (lower a.1.path) := by
  obtain ⟨f, hf, hmap⟩ := List.mem_filterMap.mp h
  obtain ⟨r, hr, rfl⟩ := Option.map_eq_some_iff.mp hmap
  exact ⟨hf, fuzzyScore_eq hr⟩

/-- What is scored are the files that match. -/
theorem map_fst_scored (files : List FileInfo) : (scored round lower files q).map (·.1) =
    files.filter fun f => q.Sublist (lower f.path) := by
  unfold scored
  induction files with
  | nil => rfl
  | cons f files ih =>
    have hmatch := fuzzyScore_isSome_iff round (lower f.path) q
    cases hscore : fuzzyScore round (lower f.path) q with
    | none =>
      rw [hscore] at hmatch
      have hnot : ¬ decide (q.Sublist (lower f.path)) = true := by
        rw [decide_eq_true_iff, ← hmatch]
        exact Bool.false_ne_true
      rw [List.filterMap_cons_none (by rw [hscore]; rfl), List.filter_cons, if_neg hnot, ih]
    | some r =>
      rw [hscore] at hmatch
      rw [List.filterMap_cons_some (b := (f, r)) (by rw [hscore]; rfl), List.map_cons,
        List.filter_cons, if_pos (decide_eq_true (hmatch.mp rfl)), ih]

/-- What the sort says of two files, by their tiers and the scores that are computed. -/
theorem sortLe_scored {a b : FileInfo × FuzzyScore}
    (ha : a.2.tier = tierOf (lower a.1.path) q ∧ a.2.score = foundScore round q (lower a.1.path))
    (hb : b.2.tier = tierOf (lower b.1.path) q ∧ b.2.score = foundScore round q (lower b.1.path))
    (hle : sortLe collate a b = true) :
    tierOf (lower a.1.path) q < tierOf (lower b.1.path) q ∨
      tierOf (lower a.1.path) q = tierOf (lower b.1.path) q ∧
        if tierOf (lower a.1.path) q = 4 ∧
            foundScore round q (lower a.1.path) ≠ foundScore round q (lower b.1.path) then
          foundScore round q (lower b.1.path) ≤ foundScore round q (lower a.1.path)
        else collate a.1.path ≤ collate b.1.path := by
  unfold sortLe at hle
  rw [ha.1, ha.2, hb.1, hb.2] at hle
  by_cases htier : tierOf (lower a.1.path) q = tierOf (lower b.1.path) q
  · rw [if_neg (not_not.mpr htier)] at hle
    refine .inr ⟨htier, ?_⟩
    split_ifs at hle ⊢ with hscore
    · exact of_decide_eq_true hle
    · exact of_decide_eq_true hle
  · rw [if_pos htier] at hle
    exact .inl (Nat.lt_of_le_of_ne (of_decide_eq_true hle) htier)

/-- The score that is computed is that of the leftmost alignment, and near the best one where that
alignment is best. -/
theorem foundScore_near (hround : RelErr (1 / 2 ^ 53) round) {path : JsString}
    (h : q.Sublist path) (hbest : LeftmostBest path q) :
    |foundScore round q path - bestScore path q| ≤ scoreError path q := by
  obtain ⟨ps, hps⟩ := Option.isSome_iff_exists.mp (matchPositions_isSome_iff (i := 0).mpr h)
  have hmem := matchPositions_mem hps
  rw [foundScore, hps, ← hbest ps hmem (matchPositions_leftmost hps)]
  exact abs_scoreOf_sub_le hround hmem

variable (round) in
theorem foundScore_of_sameMarks {a b : JsString} (ha : q.Sublist a) (hb : q.Sublist b)
    (h : SameMarks a b q) : foundScore round q a = foundScore round q b := by
  obtain ⟨ps, -, hleft, hleft', hmarks⟩ := h
  obtain ⟨as, has⟩ := Option.isSome_iff_exists.mp (matchPositions_isSome_iff (i := 0).mpr ha)
  obtain ⟨bs, hbs⟩ := Option.isSome_iff_exists.mp (matchPositions_isSome_iff (i := 0).mpr hb)
  obtain rfl := (matchPositions_leftmost has).unique hleft
  obtain rfl := (matchPositions_leftmost hbs).unique hleft'
  rw [foundScore, foundScore, has, hbs]
  exact scoreFrom_congr hmarks _ _ _

/-- The scores that are computed compare as those of the best alignments. -/
theorem foundScore_le_iff (hround : RelErr (1 / 2 ^ 53) round) {a b : JsString}
    (ha : q.Sublist a) (hb : q.Sublist b) (hbesta : LeftmostBest a q) (hbestb : LeftmostBest b q)
    (h : SameMarks a b q ∨ scoreError a q + scoreError b q < |bestScore a q - bestScore b q|) :
    (foundScore round q b ≤ foundScore round q a ↔ bestScore b q ≤ bestScore a q) ∧
      (foundScore round q a ≤ foundScore round q b ↔ bestScore a q ≤ bestScore b q) := by
  rcases h with hmarks | hapart
  · have hbest : bestScore a q = bestScore b q := by
      obtain ⟨ps, hmem, hleft, hleft', hsame⟩ := hmarks
      rw [← hbesta ps hmem hleft, ← hbestb ps hleft'.1 hleft']
      exact scoreFrom_congr hsame _ _ _
    rw [foundScore_of_sameMarks round ha hb hmarks, hbest]
    exact ⟨iff_of_true le_rfl le_rfl, iff_of_true le_rfl le_rfl⟩
  · -- both scores are nearer to the best ones than these are to each other
    have hneara := abs_le.mp (foundScore_near hround ha hbesta)
    have hnearb := abs_le.mp (foundScore_near hround hb hbestb)
    rcases abs_cases (bestScore a q - bestScore b q) with ⟨habs, -⟩ | ⟨habs, -⟩
    all_goals
      rw [habs] at hapart
      refine ⟨⟨fun h => ?_, fun h => ?_⟩, ⟨fun h => ?_, fun h => ?_⟩⟩ <;> linarith

/-- The order of the sort is the documented one, for two files that are judged. -/
theorem docLe_of_sortLe (hround : RelErr (1 / 2 ^ 53) round) {a b : FileInfo × FuzzyScore}
    (hmatcha : q.Sublist (lower a.1.path)) (hmatchb : q.Sublist (lower b.1.path))
    (ha : a.2.tier = tierOf (lower a.1.path) q ∧ a.2.score = foundScore round q (lower a.1.path))
    (hb : b.2.tier = tierOf (lower b.1.path) q ∧ b.2.score = foundScore round q (lower b.1.path))
    (hle : sortLe collate a b = true) (h : Judged q (lower a.1.path) (lower b.1.path)) :
    docLe lower collate q a.1 b.1 := by
  have hsort := sortLe_scored ha hb hle
  have hcasesa := tierOf_cases (lower a.1.path) q
  have hcasesb := tierOf_cases (lower b.1.path) q
  unfold docLe
  dsimp only
  rcases h with h | h | ⟨hfirsta, hfirstb, hbest⟩
  · -- the first is in a tier that is right, and is not in the fourth
    grind
  · -- the second is
    grind
  · -- both tiers are right, and in the fourth the scores compare as the best ones
    have htiera := hfirsta.tierOf_eq
    have htierb := hfirstb.tierOf_eq
    have hscores (ha : docTier (lower a.1.path) q = 4) (hb : docTier (lower b.1.path) q = 4) :=
      foundScore_le_iff hround hmatcha hmatchb (hbest ha hb).1 (hbest ha hb).2.1 (hbest ha hb).2.2
    grind

/-- A drill-down shows the directory and what is directly in it. -/
theorem drilled_iff {dirQuery : JsString} {f : FileInfo} : drilled lower dirQuery f = true ↔
    (lower f.path = dirQuery ∧ f.isDirectory = true) ∨
      ∃ name, slash ∉ name ∧ lower f.path = dirQuery ++ slash :: name := by
  rw [drilled, decide_eq_true_iff]
  refine or_congr_right ⟨?_, ?_⟩
  · rintro ⟨⟨name, hname⟩, hslash⟩
    rw [List.append_assoc] at hname
    refine ⟨name, ?_, hname.symm⟩
    rwa [← hname, List.drop_length_add_append] at hslash
  · rintro ⟨name, hslash, hname⟩
    refine ⟨⟨name, by rw [hname, List.append_assoc]; rfl⟩, ?_⟩
    rwa [hname, List.drop_length_add_append]

theorem filterFiles_eq_take {query : JsString} (files : List FileInfo) (limit : ℕ)
    (hempty : query ≠ []) (hslash : query.getLast? ≠ some slash) :
    filterFiles round lower collate files query limit =
      (((scored round lower files (lower query)).mergeSort (sortLe collate)).map (·.1)).take
        limit := by
  rw [filterFiles, if_neg hempty, if_neg hslash, List.map_take]

variable (round lower collate q) in
theorem sorted_perm (files : List FileInfo) :
    (((scored round lower files q).mergeSort (sortLe collate)).map (·.1)).Perm
      (files.filter fun f => q.Sublist (lower f.path)) := by
  rw [← map_fst_scored]
  exact (List.mergeSort_perm _ _).map _

/-- What is left of no more files than the limit. -/
theorem mem_filterFiles {files : List FileInfo} {query : JsString} {limit : ℕ} {f : FileInfo}
    (hslash : query.getLast? ≠ some slash) (hlimit : files.length ≤ limit) :
    f ∈ filterFiles round lower collate files query limit ↔
      f ∈ files ∧ (query = [] ∨ (lower query).Sublist (lower f.path)) := by
  by_cases hempty : query = []
  · rw [filterFiles, if_pos hempty, List.take_of_length_le hlimit]
    exact (and_iff_left (.inl hempty)).symm
  · have hperm := sorted_perm round lower collate (lower query) files
    rw [filterFiles_eq_take files limit hempty hslash, List.take_of_length_le, hperm.mem_iff,
      List.mem_filter, decide_eq_true_iff, or_iff_right hempty]
    exact (hperm.length_eq.trans_le (List.length_filter_le _ _)).trans hlimit

/-- **The files of a mention**: the head of the index where nothing is typed, a directory and its
children where a slash is typed last, and else the first of the matching files in the documented
order, as far as two files are judged.  The best scores of two paths of the lengths that occur are
told apart in doubles. -/
theorem filterFiles_ranked (hround : RelErr (1 / 2 ^ 53) round) (files : List FileInfo)
    (query : JsString) (limit : ℕ) :
    (query = [] → filterFiles round lower collate files query limit = files.take limit) ∧
    (query.getLast? = some slash →
      filterFiles round lower collate files query limit =
        (files.filter (drilled lower (lower query.dropLast))).take limit ∧
      ∀ f, drilled lower (lower query.dropLast) f = true ↔
        (lower f.path = lower query.dropLast ∧ f.isDirectory = true) ∨
          ∃ name, slash ∉ name ∧ lower f.path = lower query.dropLast ++ slash :: name) ∧
    (query ≠ [] → query.getLast? ≠ some slash →
      ∃ ranked : List FileInfo,
        filterFiles round lower collate files query limit = ranked.take limit ∧
        ranked.Perm (files.filter fun f => (lower query).Sublist (lower f.path)) ∧
        ranked.Pairwise fun a b => Judged (lower query) (lower a.path) (lower b.path) →
          docLe lower collate (lower query) a b) ∧
    ∀ a b q : JsString, q.Sublist a → q.Sublist b → a.length ≤ 10000 → b.length ≤ 10000 →
      bestScore a q ≠ bestScore b q →
      scoreError a q + scoreError b q < |bestScore a q - bestScore b q| := by
  refine ⟨fun hempty => if_pos hempty, fun hslash => ⟨?_, fun f => drilled_iff⟩,
    fun hempty hslash => ?_, fun a b q => scoreError_lt_of_ne⟩
  · -- what ends with a slash is not empty
    have hempty : query ≠ [] := by
      rintro rfl
      cases hslash
    rw [filterFiles, if_neg hempty, if_pos hslash]
  · refine ⟨_, filterFiles_eq_take files limit hempty hslash, sorted_perm _ _ _ _ files, ?_⟩
    rw [List.pairwise_map]
    refine (pairwise_sorted _).imp_of_mem fun ha hb hle hjudged => ?_
    have hmatch {a : FileInfo × FuzzyScore}
        (ha : a ∈ (scored round lower files (lower query)).mergeSort (sortLe collate)) :
        (lower query).Sublist (lower a.1.path) := by
      have hmem := List.mem_map_of_mem (f := (·.1)) (List.mem_mergeSort.mp ha)
      rw [map_fst_scored] at hmem
      exact of_decide_eq_true (List.mem_filter.mp hmem).2
    exact docLe_of_sortLe hround (hmatch ha) (hmatch hb) (mem_scored (List.mem_mergeSort.mp ha)).2
      (mem_scored (List.mem_mergeSort.mp hb)).2 hle hjudged

def file (path : String) : FileInfo := ⟨utf16 path.toList, false⟩

theorem filterFiles_ranked_two : ∃ ranked : List FileInfo,
    filterFiles binary64 id id [file "0axb", file "b/axb"] (utf16 "ab".toList) 50 =
      ranked.take 50 ∧
    ranked.Perm [file "0axb", file "b/axb"] ∧
    ranked.Pairwise (docLe id id (utf16 "ab".toList)) := by
  obtain ⟨-, -, hquery, -⟩ := @filterFiles_ranked JsString _ binary64 id id relErr_binary64
    [file "0axb", file "b/axb"] (utf16 "ab".toList) 50
  obtain ⟨ranked, htake, hperm, hpairwise⟩ := hquery (by decide) (by decide)
  have hmatch : [file "0axb", file "b/axb"].filter
      (fun f => (utf16 "ab".toList).Sublist f.path) = [file "0axb", file "b/axb"] := by
    decide +kernel
  have hjudged : ∀ a ∈ [file "0axb", file "b/axb"], ∀ b ∈ [file "0axb", file "b/axb"],
      Judged (utf16 "ab".toList) a.path b.path := by
    decide +kernel
  have hmem {f : FileInfo} (h : f ∈ ranked) : f ∈ [file "0axb", file "b/axb"] := by
    rw [← hmatch]
    exact hperm.mem_iff.mp h
  exact ⟨ranked, htake, hperm.trans (.of_eq hmatch),
    hpairwise.imp_of_mem fun ha hb h => h (hjudged _ (hmem ha) _ (hmem hb))⟩

/-- A list that is in order stays as it is. -/
theorem filterFiles_of_pairwise {files : List FileInfo} {query : JsString} (limit : ℕ)
    (hempty : query ≠ []) (hslash : query.getLast? ≠ some slash)
    (h : (scored round lower files (lower query)).Pairwise
      fun a b => sortLe collate a b = true) :
    filterFiles round lower collate files query limit =
      ((scored round lower files (lower query)).take limit).map (·.1) := by
  rw [filterFiles, if_neg hempty, if_neg hslash, List.mergeSort_of_pairwise h]

variable (round lower collate q)

/-- By the tier, then by the score of the best alignment, then by the path. -/
def claimLe (a b : FileInfo) : Prop :=
  let tier (f : FileInfo) := docTier (lower f.path) q
  let best (f : FileInfo) := bestScore (lower f.path) q
  tier a < tier b ∨ tier a = tier b ∧
    (best b < best a ∨ best b = best a ∧ collate a.path ≤ collate b.path)

instance (a b : FileInfo) : Decidable (claimLe lower collate q a b) :=
  inferInstanceAs (Decidable (_ ∨ _))

/-- The first of exactly the matching files in this order. -/
def AsClaimed (files : List FileInfo) (query : JsString) (limit : ℕ) : Prop :=
  ∃ ranked : List FileInfo,
    ranked.Perm (files.filter fun f => (lower query).Sublist (lower f.path)) ∧
      ranked.Pairwise (claimLe lower collate (lower query)) ∧
      filterFiles round lower collate files query limit = ranked.take limit

variable {round lower collate q}

/-- All of them, where there are no more than the limit. -/
theorem AsClaimed.all {files : List FileInfo} {query : JsString} {limit : ℕ}
    (h : AsClaimed round lower collate files query limit) (hlimit : files.length ≤ limit) :
    (filterFiles round lower collate files query limit).Perm
        (files.filter fun f => (lower query).Sublist (lower f.path)) ∧
      (filterFiles round lower collate files query limit).Pairwise
        (claimLe lower collate (lower query)) := by
  obtain ⟨ranked, hperm, hpairwise, hfilter⟩ := h
  have hlen : ranked.length ≤ limit :=
    (hperm.length_eq.trans_le (List.length_filter_le _ _)).trans hlimit
  rw [hfilter, List.take_of_length_le hlen]
  exact ⟨hperm, hpairwise⟩

/-- So they are in this order as they are scored, where that is the order of the sort. -/
theorem AsClaimed.pairwise_scored {files : List FileInfo} {query : JsString} {limit : ℕ}
    (h : AsClaimed round lower collate files query limit) (hempty : query ≠ [])
    (hslash : query.getLast? ≠ some slash) (hlimit : files.length ≤ limit)
    (hsorted : (scored round lower files (lower query)).Pairwise
      fun a b => sortLe collate a b = true) :
    (((scored round lower files (lower query)).take limit).map (·.1)).Pairwise
      (claimLe lower collate (lower query)) := by
  rw [← filterFiles_of_pairwise limit hempty hslash hsorted]
  exact (h.all hlimit).2

end Ranking

/-- **The ranking is not the one by the tier and the best score**: not where nothing is typed, not
in a directory, and not in a tier that is alphabetical; nor where the query stands after a separator
at its second place, where the leftmost alignment is not the best, and where scores that are the
same are not so in doubles. -/
theorem not_asClaimed :
    ¬ AsClaimed id id id [file "b", file "a"] [] 50 ∧
    ¬ AsClaimed id id id [file "xa/b"] (utf16 "a/".toList) 50 ∧
    ¬ AsClaimed id id id [file "aaaa/s", file "zz/s"] (utf16 "s".toList) 50 ∧
    ¬ AsClaimed id id id [file "0b", file "ab-b"] (utf16 "b".toList) 50 ∧
    ¬ AsClaimed id id id [file "xaxb", file "xa-xab"] (utf16 "ab".toList) 50 ∧
    ¬ AsClaimed binary64 id id [file "xxaxxb", file "maxxxxb"] (utf16 "ab".toList) 50 := by
  refine ⟨fun h => ?_, fun h => ?_, fun h => ?_, fun h => ?_, fun h => ?_, fun h => ?_⟩
  · exact absurd (h.all (by decide)).2 (by decide +kernel)
  · exact absurd (h.all (by decide)).1.length_eq (by decide +kernel)
  all_goals
    exact absurd (h.pairwise_scored (by decide) (by decide) (by decide) (by decide +kernel))
      (by decide +kernel)

end Pantoken.Client.FileMatch
