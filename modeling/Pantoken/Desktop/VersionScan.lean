import Mathlib
import Pantoken.Desktop.Preflight
import Pantoken.Desktop.Reconcile
import Pantoken.Lib.Delimited
import Pantoken.Lib.Pieces
import Pantoken.Lib.StrSlice

/-!
# The version in a line

Provisioning reads the version of a host's polytoken out of what it prints.  The scan starts at
every byte that is a digit and takes the characters of a version from there; what it takes is cut
out of the line at byte positions, and a slice inside a character panics, here `none`.

## Main definitions

* `extractSemverSliced`, `extractVersionString` — the code, with its slices.
* `words` — the runs of characters that may belong to a version.
* `FirstVersion` — the version a line is searched for: the longest one that ends the first word
  that ends in one.
* `Hyphenated` — a word with a hyphen behind a dot of a pre-release, where the scan stops early.

## Main results

* `extractSemverSliced_eq` — no slice panics.
* `extractSemverFromLine_iff` — what is found in a line without such hyphens.
* `extraction_exact` — **the version that is found, and what it is classified as.**
* `not_extract_delimited` — a version that is found behind a letter.
-/

namespace Pantoken.Desktop.Provisioning

open Remote.Semver (parseVersion splitOnce parsePart validPrerelease)

/-! ### The code with its slices -/

/-- `u8::is_ascii_digit` -/
def isDigitByte (b : UInt8) : Bool := 48 ≤ b.toNat && b.toNat ≤ 57

/-- `parse_semver_prefix`: the characters it takes are counted, and as many bytes are cut. -/
def parseSemverSliced (s : List Char) : Option (Option (List Char)) :=
  let (taken, seenDot) := semverPrefix 0 s
  if seenDot < 2 then some none
  else (sliceTo s taken.length).map fun candidate =>
    if (parseVersion candidate).isSome then some candidate else none

/-- The loop over the bytes of the line. -/
def scanBytes (line : List Char) : List ℕ → Option (Option (List Char))
  | [] => some none
  | i :: is =>
    if ((Utf8.encode line)[i]?).any isDigitByte then
      (sliceFrom line i).bind fun candidate =>
        (parseSemverSliced candidate).bind fun
          | some v => some (some v)
          | none => scanBytes line is
    else scanBytes line is

/-- `extract_semver_from_line` -/
def extractSemverSliced (line : List Char) : Option (Option (List Char)) :=
  scanBytes line (List.range (Utf8.encode line).length)

/-- `extract_version_string` -/
def extractVersionString (output : CommandOutput) : Option (Option (List Char)) :=
  if ¬ output.isSuccess then some none
  else
    match (lines output.stdout).head? with
    | none => some none
    | some firstLine => extractSemverSliced firstLine

/-! ### What is searched for -/

/-- A character that can belong to a version. -/
def isVersionChar (c : Char) : Bool := c.isAlphanum || c = '.' || c = '-'

def isVersion (s : List Char) : Bool := (parseVersion s).isSome

/-- The runs of characters that can belong to a version. -/
def words (line : List Char) : List (List Char) := line.splitOnP fun c => !isVersionChar c

/-- The longest version that ends a word. -/
def LongestEnd (w v : List Char) : Prop :=
  v <:+ w ∧ isVersion v ∧ ∀ s, s <:+ w → isVersion s → s.length ≤ v.length

/-- The longest version that ends the first word that ends in one. -/
def FirstVersion (line v : List Char) : Prop :=
  ∃ before w after, words line = before ++ w :: after ∧ LongestEnd w v ∧
    ∀ u ∈ before, ∀ s, s <:+ u → ¬ isVersion s

/-- A hyphen stands behind a dot of a pre-release. -/
def Hyphenated (w : List Char) : Prop :=
  ∃ core pre, isVersion core ∧ '-' ∉ core ∧ '.' ∈ pre ∧ core ++ '-' :: pre ++ ['-'] <:+: w

/-! ### Slices -/

theorem length_encode (s : List Char) : (Utf8.encode s).length = byteLength s := by
  induction s with
  | nil => rfl
  | cons c s ih =>
    rw [Utf8.encode_cons, List.length_append, String.length_utf8EncodeChar, ih, byteLength]

/-- A byte that is a digit is a character. -/
theorem isDigitByte_iff {c : Char} {b : UInt8} (hb : b ∈ String.utf8EncodeChar c) :
    isDigitByte b ↔ c.isDigit := by
  have hdigit : c.isDigit ↔ 48 ≤ c.val.toNat ∧ c.val.toNat ≤ 57 := by
    simp only [Char.isDigit, Bool.and_eq_true, decide_eq_true_eq]
    exact Iff.rfl
  have hmax : c.val.toNat < 1114112 := by
    have := c.valid
    unfold UInt32.isValidChar Nat.isValidChar at this
    omega
  rw [hdigit]
  unfold String.utf8EncodeChar at hb
  simp only [isDigitByte, Bool.and_eq_true, decide_eq_true_eq] at hb ⊢
  split_ifs at hb with h1 h2 h3
  · rw [List.mem_singleton.mp hb, UInt8.toNat_ofNat']
    omega
  -- the bytes of a longer character are above the digits
  · simp only [List.mem_cons, List.not_mem_nil, or_false] at hb
    rcases hb with rfl | rfl <;> rw [UInt8.toNat_ofNat'] <;> omega
  · simp only [List.mem_cons, List.not_mem_nil, or_false] at hb
    rcases hb with rfl | rfl | rfl <;> rw [UInt8.toNat_ofNat'] <;> omega
  · simp only [List.mem_cons, List.not_mem_nil, or_false] at hb
    rcases hb with rfl | rfl | rfl | rfl <;> rw [UInt8.toNat_ofNat'] <;> omega

/-- The characters of a version are bytes. -/
theorem utf8Size_of_isVersionChar {c : Char} (h : isVersionChar c) : c.utf8Size = 1 := by
  rw [Char.utf8Size_eq_one_iff]
  simp only [isVersionChar, Char.isAlphanum, Char.isAlpha, Char.isUpper, Char.isLower,
    Char.isDigit, Bool.or_eq_true, Bool.and_eq_true, decide_eq_true_eq] at h
  rcases h with ((((h | h) | h) | rfl) | rfl)
  · exact UInt32.le_trans h.2 (by decide)
  · exact UInt32.le_trans h.2 (by decide)
  · exact UInt32.le_trans h.2 (by decide)
  · decide
  · decide

/-- Places that are no digits are passed over. -/
theorem scanBytes_append {line : List Char} {is js : List ℕ}
    (h : ∀ i ∈ is, ¬ ((Utf8.encode line)[i]?).any isDigitByte) :
    scanBytes line (is ++ js) = scanBytes line js := by
  induction is with
  | nil => rfl
  | cons i is ih =>
    rw [List.cons_append, scanBytes, if_neg (h i List.mem_cons_self),
      ih fun j hj => h j (List.mem_cons_of_mem i hj)]

/-- The bytes of a character in a line. -/
theorem getElem?_encode {front rest : List Char} {c : Char} {k : ℕ} (hk : k < c.utf8Size) :
    (Utf8.encode (front ++ c :: rest))[byteLength front + k]? = (String.utf8EncodeChar c)[k]? := by
  rw [Utf8.encode_append, Utf8.encode_cons,
    List.getElem?_append_right (by rw [length_encode]; omega), length_encode,
    Nat.add_sub_cancel_left, List.getElem?_append_left (by rwa [String.length_utf8EncodeChar])]

theorem extractSemverFromLine_cons (c : Char) (cs : List Char) : extractSemverFromLine (c :: cs) =
    (if c.isDigit then parseSemverPrefix (c :: cs) else none).or (extractSemverFromLine cs) := by
  simp only [extractSemverFromLine, List.tails_cons, List.findSome?_cons]
  by_cases hc : c.isDigit
  · simp only [if_pos hc]
    cases parseSemverPrefix (c :: cs) <;> rfl
  · simp only [if_neg hc, Option.none_or]

/-- What the loop takes is a front of the text, of as many bytes as characters. -/
theorem semverPrefix_prefix (n : ℕ) (s : List Char) :
    (semverPrefix n s).1 <+: s ∧ ∀ c ∈ (semverPrefix n s).1, isVersionChar c := by
  induction s generalizing n with
  | nil => exact ⟨List.prefix_refl _, by simp [semverPrefix]⟩
  | cons c cs ih =>
    have hcons (m : ℕ) (hc : isVersionChar c) : c :: (semverPrefix m cs).1 <+: c :: cs ∧
        ∀ d ∈ c :: (semverPrefix m cs).1, isVersionChar d :=
      ⟨List.cons_prefix_cons.mpr ⟨rfl, (ih m).1⟩, List.forall_mem_cons.mpr ⟨hc, (ih m).2⟩⟩
    rw [semverPrefix]
    split
    · next h => exact hcons _ (by simp [isVersionChar, h])
    · split
      · next h =>
        refine hcons _ ?_
        rcases h with ⟨rfl, -⟩ | h
        · rfl
        · simp [isVersionChar, h]
      · exact ⟨List.nil_prefix, by simp⟩

theorem byteLength_of_isVersionChar {s : List Char} (h : ∀ c ∈ s, isVersionChar c) :
    byteLength s = s.length := by
  induction s with
  | nil => rfl
  | cons c s ih =>
    rw [byteLength, utf8Size_of_isVersionChar (h c List.mem_cons_self),
      ih fun d hd => h d (List.mem_cons_of_mem c hd), List.length_cons, Nat.add_comm]

theorem parseSemverSliced_eq (s : List Char) :
    parseSemverSliced s = some (parseSemverPrefix s) := by
  obtain ⟨⟨rest, hrest⟩, hchars⟩ := semverPrefix_prefix 0 s
  have hslice : sliceTo s (semverPrefix 0 s).1.length = some (semverPrefix 0 s).1 := by
    have hcut := sliceTo_append (semverPrefix 0 s).1 rest
    rwa [hrest, byteLength_of_isVersionChar hchars] at hcut
  unfold parseSemverSliced parseSemverPrefix
  simp only [hslice, Option.map_some]
  split <;> rfl

theorem scanBytes_eq (front rest : List Char) :
    scanBytes (front ++ rest) (List.range' (byteLength front) (byteLength rest)) =
      some (extractSemverFromLine rest) := by
  induction rest generalizing front with
  | nil => rfl
  | cons c cs ih =>
    have hnext := ih (front ++ [c])
    rw [List.append_assoc, List.singleton_append, byteLength_append, byteLength, byteLength,
      Nat.add_zero] at hnext
    rw [byteLength, ← List.range'_append_1, extractSemverFromLine_cons]
    by_cases hc : c.isDigit
    · have hsize : c.utf8Size = 1 := utf8Size_of_isVersionChar (by
        simp [isVersionChar, Char.isAlphanum, hc])
      have hbyte : ((Utf8.encode (front ++ c :: cs))[byteLength front]?).any isDigitByte := by
        have hget : (Utf8.encode (front ++ c :: cs))[byteLength front + 0]? =
            (String.utf8EncodeChar c)[0]? := getElem?_encode (by omega)
        rw [Nat.add_zero] at hget
        obtain ⟨b, bs, hbytes⟩ := List.exists_cons_of_ne_nil (String.utf8EncodeChar_ne_nil (c := c))
        rw [hget, hbytes]
        exact (isDigitByte_iff (hbytes ▸ List.mem_cons_self)).mpr hc
      rw [hsize] at hnext ⊢
      rw [List.range'_one, List.singleton_append, scanBytes, if_pos hbyte, sliceFrom_append,
        Option.bind_some, parseSemverSliced_eq, Option.bind_some, if_pos hc, hnext]
      cases parseSemverPrefix (c :: cs) <;> rfl
    · rw [scanBytes_append, hnext, if_neg hc, Option.none_or]
      intro i hi hany
      rw [List.mem_range'_1] at hi
      obtain ⟨k, rfl⟩ : ∃ k, i = byteLength front + k := ⟨i - byteLength front, by omega⟩
      rw [getElem?_encode (by omega)] at hany
      obtain ⟨b, hb, hdigit⟩ := (Option.any_eq_true _ _).mp hany
      exact hc ((isDigitByte_iff (List.mem_of_getElem? hb)).mp hdigit)

/-- **No slice panics.** -/
theorem extractSemverSliced_eq (line : List Char) :
    extractSemverSliced line = some (extractSemverFromLine line) := by
  rw [extractSemverSliced, length_encode, List.range_eq_range']
  exact scanBytes_eq [] line

/-! ### The parts of a version -/

theorem digits_of_parsePart {part : List Char} (h : (parsePart part).isSome) :
    part ≠ [] ∧ ∀ c ∈ part, c.isDigit := by
  unfold parsePart at h
  split_ifs at h with hnil hzero hdigits hlead
  · cases h
  · refine ⟨hnil, fun c hc => ?_⟩
    rw [hzero] at hc
    obtain rfl := List.mem_singleton.mp hc
    rfl
  · cases h
  · exact ⟨hnil, List.all_eq_true.mp hdigits⟩
  · cases h

theorem isVersionChar_of_isDigit {c : Char} (h : c.isDigit) : isVersionChar c := by
  simp [isVersionChar, Char.isAlphanum, h]

/-- Three numbers. -/
def IsCore (core : List Char) : Prop :=
  ∃ a b c, core.splitOn '.' = [a, b, c] ∧ (parsePart a).isSome ∧ (parsePart b).isSome ∧
    (parsePart c).isSome

/-- What is read of the two parts. -/
theorem isSome_parts (core : List Char) (pre : Option (List Char)) :
    (match core.splitOn '.' with
      | [a, b, c] => do
        let major ← parsePart a
        let minor ← parsePart b
        let patch ← parsePart c
        if pre.all validPrerelease then some (⟨major, minor, patch, pre⟩ : Remote.Semver.Version)
        else none
      | _ => none).isSome ↔ IsCore core ∧ pre.all validPrerelease := by
  unfold IsCore
  split
  · next a b c hsplit =>
    cases ha : parsePart a <;> cases hb : parsePart b <;> cases hc : parsePart c <;>
      by_cases hpre : pre.all validPrerelease <;> simp [ha, hb, hc, hpre, hsplit]
  · next hne =>
    simp only [Option.isSome_none, Bool.false_eq_true, false_iff, not_and]
    rintro ⟨a, b, c, hsplit, -⟩
    exact absurd hsplit (hne a b c)

theorem isVersion_core {core : List Char} (h : '-' ∉ core) : isVersion core ↔ IsCore core := by
  have hparts := isSome_parts core none
  rw [Option.all_none, and_iff_left rfl] at hparts
  unfold isVersion parseVersion
  rw [Remote.Semver.splitOnce_of_notMem h]
  exact hparts

theorem isVersion_append {core : List Char} (h : '-' ∉ core) (pre : List Char) :
    isVersion (core ++ '-' :: pre) ↔ IsCore core ∧ validPrerelease pre := by
  unfold isVersion parseVersion
  rw [Remote.Semver.splitOnce_append h]
  exact isSome_parts core (some pre)

/-- A core has two dots and starts with a digit. -/
theorem IsCore.count {core : List Char} (h : IsCore core) : core.count '.' = 2 ∧
    (∀ c ∈ core, isVersionChar c) ∧ ∃ c cs, core = c :: cs ∧ c.isDigit := by
  obtain ⟨a, b, c, hsplit, ha, hb, hc⟩ := h
  obtain ⟨hane, ha⟩ := digits_of_parsePart ha
  obtain ⟨-, hb⟩ := digits_of_parsePart hb
  obtain ⟨-, hc⟩ := digits_of_parsePart hc
  have hcore : core = a ++ '.' :: (b ++ '.' :: c) := by
    have hjoined : ['.'].intercalate (core.splitOn '.') = core := List.intercalate_splitOn '.'
    rw [← hjoined, hsplit]
    simp [List.intercalate]
  have hcount {s : List Char} (h : ∀ c ∈ s, c.isDigit) : s.count '.' = 0 := by
    rw [List.count_eq_zero]
    intro hmem
    exact absurd (h _ hmem) (by decide)
  refine ⟨?_, ?_, ?_⟩
  · rw [hcore, List.count_append, List.count_cons, List.count_append, List.count_cons, hcount ha,
      hcount hb, hcount hc]
    rfl
  · intro x hx
    rw [hcore, List.mem_append, List.mem_cons, List.mem_append, List.mem_cons] at hx
    rcases hx with h | rfl | h | rfl | h
    · exact isVersionChar_of_isDigit (ha x h)
    · decide
    · exact isVersionChar_of_isDigit (hb x h)
    · decide
    · exact isVersionChar_of_isDigit (hc x h)
  · obtain ⟨d, ds, rfl⟩ := List.exists_cons_of_ne_nil hane
    exact ⟨d, _, hcore, ha d List.mem_cons_self⟩

/-- The characters of a pre-release. -/
theorem isVersionChar_of_validPrerelease {pre : List Char} (h : validPrerelease pre) :
    ∀ c ∈ pre, isVersionChar c := by
  simp only [validPrerelease, ne_eq, Bool.and_eq_true, decide_eq_true_eq, List.all_eq_true,
    Bool.or_eq_true] at h
  intro c hc
  have hjoined : ['.'].intercalate (pre.splitOn '.') = pre := List.intercalate_splitOn '.'
  rw [← hjoined] at hc
  by_contra hchar
  refine Pieces.notMem_intercalate (a := c) ?_ ?_ hc
  · rw [List.mem_singleton]
    rintro rfl
    exact hchar rfl
  · intro segment hsegment hmem
    rcases (h.2 segment hsegment).2 c hmem with h | rfl
    · exact hchar (by simp [isVersionChar, h])
    · exact hchar rfl

/-- A version is a core, with a pre-release behind a hyphen or without one. -/
theorem exists_core {s : List Char} (h : isVersion s) : ∃ core, IsCore core ∧ '-' ∉ core ∧
    (s = core ∨ ∃ pre, s = core ++ '-' :: pre ∧ ∀ c ∈ pre, isVersionChar c) := by
  by_cases hmem : '-' ∈ s
  · obtain ⟨core, pre, rfl, hcore⟩ := List.eq_append_cons_of_mem hmem
    obtain ⟨hisCore, hpre⟩ := (isVersion_append hcore pre).mp h
    exact ⟨core, hisCore, hcore, .inr ⟨pre, rfl, isVersionChar_of_validPrerelease hpre⟩⟩
  · exact ⟨s, (isVersion_core hmem).mp h, hmem, .inl rfl⟩

theorem isVersionChar_of_isVersion {s : List Char} (h : isVersion s) :
    ∀ c ∈ s, isVersionChar c := by
  obtain ⟨core, hcore, -, rfl | ⟨pre, rfl, hpre⟩⟩ := exists_core h
  · exact hcore.count.2.1
  · intro c hc
    rw [List.mem_append, List.mem_cons] at hc
    rcases hc with hc | rfl | hc
    · exact hcore.count.2.1 c hc
    · decide
    · exact hpre c hc

/-! ### What the loop takes -/

/-- Each hyphen stands behind two dots, `n` of them taken before. -/
def InPlace (n : ℕ) (v : List Char) : Prop :=
  ∀ front rest, v = front ++ '-' :: rest → n + front.count '.' = 2

/-- The loop stops in front of the text after `n` dots. -/
def Stops (n : ℕ) : List Char → Prop
  | [] => True
  | c :: _ => ¬ isVersionChar c ∨ c = '-' ∧ n ≠ 2

theorem inPlace_cons {n : ℕ} {c : Char} {v : List Char} : InPlace n (c :: v) ↔
    (c = '-' → n = 2) ∧ InPlace (n + if c = '.' then 1 else 0) v := by
  unfold InPlace
  constructor
  · intro h
    refine ⟨fun hc => ?_, fun front rest hv => ?_⟩
    · have := h [] v (by rw [hc]; rfl)
      simpa using this
    · have := h (c :: front) rest (by rw [hv]; rfl)
      rw [List.count_cons] at this
      simp only [beq_iff_eq] at this
      omega
  · rintro ⟨hhead, hrest⟩ front rest hv
    cases front with
    | nil =>
      obtain ⟨rfl, -⟩ := List.cons_eq_cons.mp hv
      simpa using hhead rfl
    | cons d front =>
      obtain ⟨rfl, hv'⟩ := List.cons_eq_cons.mp hv
      have := hrest front rest hv'
      rw [List.count_cons]
      simp only [beq_iff_eq]
      omega

/-- One character more. -/
theorem semverPrefix_cons (n : ℕ) (c : Char) (cs : List Char) : semverPrefix n (c :: cs) =
    if isVersionChar c ∧ (c = '-' → n = 2) then
      (c :: (semverPrefix (n + if c = '.' then 1 else 0) cs).1,
        (semverPrefix (n + if c = '.' then 1 else 0) cs).2)
    else ([], n) := by
  rw [semverPrefix]
  by_cases hdot : c = '.'
  · subst hdot
    rw [if_pos rfl, if_pos ⟨by decide, by simp⟩, if_pos rfl]
  · by_cases hhyphen : c = '-'
    · subst hhyphen
      by_cases hn : n = 2
      · simp [hn, isVersionChar]
      · simp [hn, Char.isAlphanum, Char.isAlpha, Char.isUpper, Char.isLower, Char.isDigit]
    · by_cases halnum : c.isAlphanum
      · simp [hdot, hhyphen, halnum, isVersionChar]
      · simp [hdot, hhyphen, halnum, isVersionChar]

/-- What the loop takes, and where it stops. -/
theorem semverPrefix_eq_iff {n dots : ℕ} {s v : List Char} : semverPrefix n s = (v, dots) ↔
    ∃ back, s = v ++ back ∧ (∀ c ∈ v, isVersionChar c) ∧ InPlace n v ∧
      dots = n + v.count '.' ∧ Stops dots back := by
  induction s generalizing n v dots with
  | nil =>
    rw [semverPrefix]
    constructor
    · intro h
      obtain ⟨rfl, rfl⟩ := Prod.mk.inj h
      exact ⟨[], rfl, by simp, by simp [InPlace], by simp, trivial⟩
    · rintro ⟨back, hs, -, -, hdots, -⟩
      obtain ⟨rfl, rfl⟩ := List.append_eq_nil_iff.mp hs.symm
      simpa using hdots.symm
  | cons c cs ih =>
    rw [semverPrefix_cons]
    split
    · next h =>
      obtain ⟨hc, hhyphen⟩ := h
      constructor
      · intro heq
        obtain ⟨rfl, rfl⟩ := Prod.mk.inj heq
        obtain ⟨back, hcs, hchars, hplace, hcount, hstops⟩ := ih.mp rfl
        refine ⟨back, by rw [List.cons_append, ← hcs], List.forall_mem_cons.mpr ⟨hc, hchars⟩,
          inPlace_cons.mpr ⟨hhyphen, hplace⟩, ?_, hstops⟩
        rw [List.count_cons]
        simp only [beq_iff_eq]
        omega
      · rintro ⟨back, hs, hchars, hplace, hcount, hstops⟩
        cases v with
        | nil =>
          rw [List.nil_append] at hs
          subst hs
          rcases hstops with hstop | ⟨hstop, hn⟩
          · exact absurd hc hstop
          · rw [List.count_nil, Nat.add_zero] at hcount
            exact absurd (hhyphen hstop) (hcount ▸ hn)
        | cons d v =>
          obtain ⟨rfl, hcs⟩ := List.cons_eq_cons.mp hs
          rw [List.count_cons] at hcount
          simp only [beq_iff_eq] at hcount
          rw [ih.mpr ⟨back, hcs, fun x hx => hchars x (List.mem_cons_of_mem c hx),
            (inPlace_cons.mp hplace).2, by omega, hstops⟩]
    · next h =>
      constructor
      · intro heq
        obtain ⟨rfl, rfl⟩ := Prod.mk.inj heq
        refine ⟨c :: cs, rfl, by simp, by simp [InPlace], by simp, ?_⟩
        by_cases hc : isVersionChar c
        · simp only [hc, true_and, Classical.not_imp] at h
          exact .inr h
        · exact .inl hc
      · rintro ⟨back, hs, hchars, hplace, hcount, -⟩
        cases v with
        | nil => simpa using hcount.symm
        | cons d v =>
          obtain ⟨rfl, -⟩ := List.cons_eq_cons.mp hs
          exact absurd ⟨hchars c List.mem_cons_self, (inPlace_cons.mp hplace).1⟩ h

/-- The version at the front of a text. -/
theorem parseSemverPrefix_iff {s v : List Char} : parseSemverPrefix s = some v ↔
    isVersion v ∧ InPlace 0 v ∧ ∃ back, s = v ++ back ∧ Stops (v.count '.') back := by
  have hdots (h : isVersion v) : 2 ≤ v.count '.' := by
    obtain ⟨core, hcore, -, rfl | ⟨pre, rfl, -⟩⟩ := exists_core h
    · exact hcore.count.1.ge
    · rw [List.count_append, hcore.count.1]
      omega
  have hsplit := @semverPrefix_eq_iff 0 (v.count '.') s v
  unfold parseSemverPrefix
  constructor
  · intro h
    cases htaken : semverPrefix 0 s with
    | mk taken dots =>
      simp only [htaken] at h
      split_ifs at h with hfew hversion
      cases h
      obtain ⟨back, hs, -, hplace, hcount, hstops⟩ := semverPrefix_eq_iff.mp htaken
      rw [Nat.zero_add] at hcount
      exact ⟨hversion, hplace, back, hs, hcount ▸ hstops⟩
  · rintro ⟨hversion, hplace, back, hs, hstops⟩
    rw [hsplit.mpr ⟨back, hs, isVersionChar_of_isVersion hversion, hplace, by simp, hstops⟩]
    have := hdots hversion
    simp only
    rw [if_neg (by omega)]
    exact if_pos hversion

/-! ### Words -/

/-- The longest version that ends a word. -/
def versionEnd (w : List Char) : Option (List Char) := w.tails.find? isVersion

/-- What follows a word: nothing, or a character that belongs to no version. -/
def EndsWord (tail : List Char) : Prop := ∀ c ∈ tail.head?, ¬ isVersionChar c

theorem Hyphenated.of_suffix {s w : List Char} (h : Hyphenated s) (hs : s <:+ w) :
    Hyphenated w := by
  obtain ⟨core, pre, hcore, hhyphen, hdot, hinfix⟩ := h
  exact ⟨core, pre, hcore, hhyphen, hdot, hinfix.trans hs.isInfix⟩

/-- Two hyphens are needed. -/
theorem not_hyphenated {w : List Char} (h : w.count '-' < 2) : ¬ Hyphenated w := by
  rintro ⟨core, pre, -, -, -, hinfix⟩
  have hle := hinfix.sublist.count_le '-'
  simp at hle
  omega

/-- The hyphens of a version stand where they are read unless it is hyphenated. -/
theorem inPlace_of_isVersion {v : List Char} (h : isVersion v) (hv : ¬ Hyphenated v) :
    InPlace 0 v := by
  obtain ⟨core, hcore, hhyphen, rfl | ⟨pre, rfl, -⟩⟩ := exists_core h
  · intro front rest hv
    rw [hv] at hhyphen
    exact absurd (List.mem_append_right front List.mem_cons_self) hhyphen
  · intro front rest hfront
    rw [Nat.zero_add]
    rcases List.append_eq_append_iff.mp hfront with ⟨mid, hmid, hpre⟩ | ⟨mid, hmid, hpre⟩
    · cases mid with
      | nil => rw [hmid, List.append_nil, hcore.count.1]
      | cons c mid =>
        obtain ⟨rfl, rfl⟩ := List.cons_eq_cons.mp hpre
        have hdot : '.' ∉ mid := by
          intro hdot
          refine hv ⟨core, mid, (isVersion_core hhyphen).mpr hcore, hhyphen, hdot, [], rest, ?_⟩
          simp
        rw [hmid, List.count_append, List.count_cons, hcore.count.1, List.count_eq_zero.mpr hdot]
        rfl
    · cases mid with
      | nil => rw [← List.append_nil front, ← hmid, hcore.count.1]
      | cons c mid =>
        obtain ⟨rfl, -⟩ := List.cons_eq_cons.mp hpre
        rw [hmid] at hhyphen
        exact absurd (List.mem_append_right front List.mem_cons_self) hhyphen

/-- The scan of a word that is not hyphenated takes all of it or nothing. -/
theorem parseSemverPrefix_word {w tail : List Char} (hw : ∀ c ∈ w, isVersionChar c)
    (hhyphen : ¬ Hyphenated w) (htail : EndsWord tail) :
    parseSemverPrefix (w ++ tail) = if isVersion w then some w else none := by
  split
  · next h =>
    refine parseSemverPrefix_iff.mpr ⟨h, inPlace_of_isVersion h hhyphen, tail, rfl, ?_⟩
    cases tail with
    | nil => trivial
    | cons c tail => exact .inl (htail c rfl)
  · next h =>
    rw [Option.eq_none_iff_forall_not_mem]
    intro v hv
    obtain ⟨hversion, -, back, happend, hstops⟩ := parseSemverPrefix_iff.mp hv
    have hchars := isVersionChar_of_isVersion hversion
    rcases List.append_eq_append_iff.mp happend with ⟨mid, rfl, hback⟩ | ⟨mid, rfl, hback⟩
    · -- the version goes beyond the word
      cases mid with
      | nil => exact h (by simpa using hversion)
      | cons c mid =>
        refine htail c (by rw [hback]; rfl) (hchars c ?_)
        exact List.mem_append_right w List.mem_cons_self
    · -- the version is a front of the word
      cases mid with
      | nil => exact h (by simpa using hversion)
      | cons c mid =>
        subst hback
        rcases hstops with hc | ⟨rfl, hcount⟩
        · exact hc (hw c (List.mem_append_right v List.mem_cons_self))
        · obtain ⟨core, hcore, hcorehyphen, rfl | ⟨pre, rfl, -⟩⟩ := exists_core hversion
          · exact hcount hcore.count.1
          · refine hhyphen ⟨core, pre, (isVersion_core hcorehyphen).mpr hcore, hcorehyphen, ?_,
              [], mid, by simp⟩
            by_contra hdot
            rw [List.count_append, List.count_cons, hcore.count.1,
              List.count_eq_zero.mpr hdot] at hcount
            exact hcount rfl

theorem isDigit_of_isVersion {c : Char} {cs : List Char} (h : isVersion (c :: cs)) : c.isDigit := by
  obtain ⟨core, hcore, -, heq⟩ := exists_core h
  obtain ⟨-, -, d, ds, rfl, hd⟩ := hcore.count
  rcases heq with heq | ⟨pre, heq, -⟩
  · obtain ⟨rfl, -⟩ := List.cons_eq_cons.mp heq
    exact hd
  · obtain ⟨rfl, -⟩ := List.cons_eq_cons.mp heq
    exact hd

/-- The scan of a word finds the longest version that ends it. -/
theorem extractSemverFromLine_word {w tail : List Char} (hw : ∀ c ∈ w, isVersionChar c)
    (hhyphen : ¬ Hyphenated w) (htail : EndsWord tail) :
    extractSemverFromLine (w ++ tail) = (versionEnd w).or (extractSemverFromLine tail) := by
  induction w with
  | nil => rfl
  | cons c w ih =>
    have hprefix := parseSemverPrefix_word hw hhyphen htail
    have hrest := ih (fun d hd => hw d (List.mem_cons_of_mem c hd))
      (fun h => hhyphen (h.of_suffix (List.suffix_cons c w)))
    rw [List.cons_append] at hprefix
    rw [List.cons_append, extractSemverFromLine_cons, hprefix, hrest, versionEnd, versionEnd,
      List.tails_cons, List.find?_cons]
    cases hversion : isVersion (c :: w) with
    | true =>
      rw [if_pos (isDigit_of_isVersion hversion), if_pos rfl, Option.some_or, Option.some_or]
    | false =>
      rw [if_neg Bool.false_ne_true, ite_self, Option.none_or]

/-- A text is a word, or a word before a character that belongs to none. -/
theorem exists_word (text : List Char) : ∃ w, (∀ c ∈ w, isVersionChar c) ∧
    (text = w ∨ ∃ d rest, text = w ++ d :: rest ∧ ¬ isVersionChar d) := by
  refine ⟨text.takeWhile isVersionChar, fun c hc => List.mem_takeWhile_imp hc, ?_⟩
  have hsplit := List.takeWhile_append_dropWhile (p := isVersionChar) (l := text)
  cases hdrop : text.dropWhile isVersionChar with
  | nil =>
    rw [hdrop, List.append_nil] at hsplit
    exact .inl hsplit.symm
  | cons d rest =>
    refine .inr ⟨d, rest, by rw [← hdrop, hsplit], ?_⟩
    have hhead := List.head?_dropWhile_not isVersionChar text
    rw [hdrop] at hhead
    simpa using hhead

/-- The scan of a line goes from word to word. -/
theorem extractSemverFromLine_words (text tail : List Char)
    (hhyphen : ∀ w ∈ words text, ¬ Hyphenated w) (htail : EndsWord tail) :
    extractSemverFromLine (text ++ tail) =
      ((words text).findSome? versionEnd).or (extractSemverFromLine tail) := by
  induction hlen : text.length using Nat.strong_induction_on generalizing text with
  | _ n ih =>
    obtain ⟨w, hw, rfl | ⟨d, rest, rfl, hd⟩⟩ := exists_word text
    · have hwords : words text = [text] :=
        List.splitOnP_eq_singleton fun c hc => by simp [hw c hc]
      rw [hwords] at hhyphen ⊢
      rw [extractSemverFromLine_word hw (hhyphen text List.mem_cons_self) htail,
        List.findSome?_singleton]
    · have hwords : words (w ++ d :: rest) = w :: words rest :=
        List.splitOnP_append_cons_of_forall_mem (fun c hc => by simp [hw c hc]) d (by simp [hd])
          rest
      rw [hwords] at hhyphen ⊢
      have hlt : rest.length < n := by
        rw [← hlen, List.length_append, List.length_cons]
        omega
      have hrest := ih rest.length hlt rest
        (fun u hu => hhyphen u (List.mem_cons_of_mem w hu)) rfl
      have hdigit : ¬ d.isDigit := fun h => hd (isVersionChar_of_isDigit h)
      have hword : extractSemverFromLine (w ++ d :: (rest ++ tail)) =
          (versionEnd w).or (extractSemverFromLine (d :: (rest ++ tail))) :=
        extractSemverFromLine_word hw (hhyphen w List.mem_cons_self) (by rintro c ⟨⟩; exact hd)
      rw [List.append_assoc, List.cons_append, hword, extractSemverFromLine_cons, if_neg hdigit,
        Option.none_or, hrest, List.findSome?_cons]
      cases versionEnd w <;> rfl

/-! ### What is found -/

theorem versionEnd_eq_none {w : List Char} (h : ∀ s, s <:+ w → ¬ isVersion s) :
    versionEnd w = none := by
  rw [versionEnd, List.find?_eq_none]
  intro s hs
  exact h s ((List.mem_tails _ _).mp hs)

theorem versionEnd_eq_some_iff {w v : List Char} : versionEnd w = some v ↔ LongestEnd w v := by
  induction w with
  | nil =>
    have hnil : ¬ isVersion [] := by decide
    refine ⟨fun h => ?_, fun ⟨hv, hversion, _⟩ => ?_⟩
    · rw [versionEnd_eq_none fun s hs => by rwa [List.suffix_nil.mp hs]] at h
      cases h
    · rw [List.suffix_nil.mp hv] at hversion
      exact absurd hversion hnil
  | cons c w ih =>
    rw [versionEnd, List.tails_cons, List.find?_cons]
    cases hversion : isVersion (c :: w) with
    | true =>
      constructor
      · rintro ⟨⟩
        exact ⟨List.suffix_refl _, hversion, fun s hs _ => hs.length_le⟩
      · rintro ⟨hv, -, hlongest⟩
        rw [hv.eq_of_length_le (hlongest _ (List.suffix_refl _) hversion)]
    | false =>
      have hcons {s : List Char} (hs : isVersion s) : s <:+ c :: w ↔ s <:+ w := by
        rw [List.suffix_cons_iff]
        refine or_iff_right ?_
        rintro rfl
        rw [hversion] at hs
        cases hs
      refine ih.trans ⟨?_, ?_⟩
      · rintro ⟨hv, hv', hlongest⟩
        exact ⟨(hcons hv').mpr hv, hv', fun s hs hs' => hlongest s ((hcons hs').mp hs) hs'⟩
      · rintro ⟨hv, hv', hlongest⟩
        exact ⟨(hcons hv').mp hv, hv', fun s hs hs' => hlongest s ((hcons hs').mpr hs) hs'⟩

/-- What is found in a line without hyphens behind a dot of a pre-release. -/
theorem extractSemverFromLine_iff {line : List Char} (h : ∀ w ∈ words line, ¬ Hyphenated w)
    (v : List Char) : extractSemverFromLine line = some v ↔ FirstVersion line v := by
  have hline := extractSemverFromLine_words line [] h (by simp [EndsWord])
  rw [List.append_nil, show extractSemverFromLine [] = none from rfl, Option.or_none] at hline
  rw [hline, List.findSome?_eq_some_iff]
  have hnone (u : List Char) : versionEnd u = none ↔ ∀ s, s <:+ u → ¬ isVersion s := by
    rw [versionEnd, List.find?_eq_none]
    simp only [List.mem_tails]
  simp only [versionEnd_eq_some_iff, hnone]
  rfl

/-- A version is found behind words that end in none. -/
theorem extractSemverFromLine_printed {pre v post : List Char} (hv : isVersion v)
    (hhyphen : ¬ Hyphenated v) (hlast : ∀ c ∈ pre.getLast?, ¬ isVersionChar c)
    (hpost : EndsWord post)
    (hpre : ∀ w ∈ words pre, ¬ Hyphenated w ∧ ∀ s, s <:+ w → ¬ isVersion s) :
    extractSemverFromLine (pre ++ v ++ post) = some v := by
  have hfound : extractSemverFromLine (v ++ post) = some v := by
    have hend : versionEnd v = some v :=
      versionEnd_eq_some_iff.mpr ⟨List.suffix_refl v, hv, fun s hs _ => hs.length_le⟩
    rw [extractSemverFromLine_word (isVersionChar_of_isVersion hv) hhyphen hpost, hend,
      Option.some_or]
  rcases List.eq_nil_or_concat pre with rfl | ⟨front, d, rfl⟩
  · exact hfound
  · have hd : ¬ isVersionChar d := hlast d (by simp)
    have hdigit : ¬ d.isDigit := fun h => hd (isVersionChar_of_isDigit h)
    have hwords : words (front ++ [d]) = words front ++ words [] :=
      List.splitOnP_append_cons front [] (by simp [hd])
    have hfront : ∀ w ∈ words front, ¬ Hyphenated w ∧ ∀ s, s <:+ w → ¬ isVersion s := by
      intro w hw
      refine hpre w ?_
      rw [List.concat_eq_append, hwords]
      exact List.mem_append_left _ hw
    have hnone : (words front).findSome? versionEnd = none :=
      List.findSome?_eq_none_iff.mpr fun w hw => versionEnd_eq_none (hfront w hw).2
    have hline := extractSemverFromLine_words front (d :: (v ++ post)) (fun w hw => (hfront w hw).1)
      (by rintro c ⟨⟩; exact hd)
    rw [List.concat_eq_append, List.append_assoc, List.append_assoc, List.singleton_append, hline,
      hnone, Option.none_or, extractSemverFromLine_cons, if_neg hdigit, Option.none_or, hfound]

/-- **The version that is found, and what it is classified as.**  No line makes the scan panic.
Where no hyphen stands behind a dot of a pre-release, the scan finds the longest version that ends
the first word that ends in one; and a version that is printed behind words that end in none is
classified as itself. -/
theorem extraction_exact :
    (∀ line, (extractSemverSliced line).isSome) ∧
    (∀ line, (∀ w ∈ words line, ¬ Hyphenated w) → ∀ v,
      extractSemverSliced line = some (some v) ↔ FirstVersion line v) ∧
    ∀ output pre v post target, output.isSuccess →
      (lines output.stdout).head? = some (pre ++ v ++ post) → isVersion v → ¬ Hyphenated v →
      (∀ c ∈ pre.getLast?, ¬ isVersionChar c) → EndsWord post →
      (∀ w ∈ words pre, ¬ Hyphenated w ∧ ∀ s, s <:+ w → ¬ isVersion s) →
      (extractVersionString output).map (fun found => classifyCompat found target) =
        some (classifyCompat (some v) target) := by
  refine ⟨fun line => ?_, fun line hline v => ?_,
    fun output pre v post target hsuccess hfirst hv hhyphen hlast hpost hpre => ?_⟩
  · rw [extractSemverSliced_eq]
    rfl
  · rw [extractSemverSliced_eq, Option.some.injEq]
    exact extractSemverFromLine_iff hline v
  · have hfound := extractSemverFromLine_printed hv hhyphen hlast hpost hpre
    rw [extractVersionString, if_neg (not_not.mpr hsuccess), hfirst]
    simp only
    rw [extractSemverSliced_eq, hfound]
    rfl

theorem extraction_exact_printed :
    extractSemverSliced "polytoken 0.5.0-rc.1 (linux)".toList =
        some (some "0.5.0-rc.1".toList) ∧
      (extractVersionString ⟨"polytoken 0.5.0-rc.1 (linux)\n".toList, [], some 0⟩).map
          (fun found => classifyCompat found "0.5.0".toList) =
        some (classifyCompat (some "0.5.0-rc.1".toList) "0.5.0".toList) := by
  have hprogram : ∀ s, s <:+ "polytoken".toList → ¬ isVersion s := by
    have htails : ∀ s ∈ "polytoken".toList.tails, ¬ isVersion s := by decide +kernel
    exact fun s hs => htails s ((List.mem_tails s _).mpr hs)
  have hwords : ∀ w ∈ words "polytoken 0.5.0-rc.1 (linux)".toList, w.count '-' < 2 := by
    decide +kernel
  obtain ⟨-, hfirst, hprinted⟩ := extraction_exact
  constructor
  · refine (hfirst _ (fun w hw => not_hyphenated (hwords w hw)) _).mpr
      ⟨["polytoken".toList], "0.5.0-rc.1".toList, [[], "linux".toList, []], by decide +kernel,
        ⟨List.suffix_rfl, by decide +kernel, fun s hs _ => hs.length_le⟩, fun u hu => ?_⟩
    obtain rfl := List.mem_singleton.mp hu
    exact hprogram
  · refine hprinted _ "polytoken ".toList _ " (linux)".toList _ rfl (by decide +kernel)
      (by decide +kernel) (not_hyphenated (by decide +kernel)) ?_ ?_ ?_
    · rintro c ⟨⟩
      decide
    · rintro c ⟨⟩
      decide
    · have hsplit : words "polytoken ".toList = ["polytoken".toList, []] := by decide +kernel
      rw [hsplit]
      refine List.forall_mem_cons.mpr ⟨⟨not_hyphenated (by decide +kernel), hprogram⟩, ?_⟩
      refine List.forall_mem_singleton.mpr ⟨not_hyphenated (by decide), fun s hs => ?_⟩
      obtain rfl := List.suffix_nil.mp hs
      decide +kernel

/-- **A version is found behind a letter**, though no version stands there by itself. -/
theorem not_extract_delimited :
    ¬ ∀ line, extractSemverSliced line = some ((words line).find? isVersion) := by
  intro h
  have hline := h "polytoken v1.2.3".toList
  rw [extractSemverSliced_eq] at hline
  exact absurd hline (by decide)

end Pantoken.Desktop.Provisioning
