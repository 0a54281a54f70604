import Pantoken.Client.FileMatch
import Pantoken.Polytoken.FileSearch

/-!
# Files of the query before

While the server looks for the files of a mention, the client shows those of its last answer that
still match.  For a directory outside the project it splits the query as the server does, keeps the
answer for the same directory, and filters it by the part of a name with its own matcher.

## Main definitions

* `classifyAtQuery`, `splitExternalQuery`, `staleServerFiles` — the client.
* `ShowsNoWrongFile` — what is kept is in the answer to come, and both split alike.

## Main results

* `classifyAtQuery_external_iff`, `splitExternalQuery_utf16` — both take the same queries for
  external ones and split them in the same way.
* `showsNoWrongFile_iff` — **when no wrong file is shown.**
* `not_showsNoWrongFile` — a name with the letters apart, a letter of the directory, a hidden file.
-/

namespace Pantoken.Client.StaleFiles

open FileMatch (slash filterFiles)
open FileSearch (Directory listExternal listedEntries Shows joinPrefix fileQueryCap)

/-! ### The client -/

inductive AtQueryClass
  | skill (part : JsString)
  | subagent (part : JsString)
  | model (part : JsString)
  | external (raw : JsString)
  | project (part : JsString)
  deriving DecidableEq

/-- A query that starts with a sigil. -/
def startsWith (sigil : String) (query : JsString) : Bool :=
  (utf16 sigil.toList).isPrefixOf query

def classifyAtQuery (query : JsString) : AtQueryClass :=
  if startsWith "skill:" query then .skill (query.drop 6)
  else if startsWith "s:" query then .skill (query.drop 2)
  else if startsWith "subagent:" query then .subagent (query.drop 9)
  else if startsWith "a:" query then .subagent (query.drop 2)
  else if startsWith "model:" query then .model (query.drop 6)
  else if startsWith "m:" query then .model (query.drop 2)
  else if startsWith "/" query || startsWith "~" query || startsWith ".." query then .external query
  else .project query

def splitExternalQuery (query : JsString) : JsString × JsString :=
  match lastIndexOf slash query with
  | none => (query, [])
  | some idx =>
    let dirPrefix := query.take idx
    let dirPrefix := if dirPrefix = [] ∧ [slash] <+: query then [slash] else dirPrefix
    (dirPrefix, query.drop (idx + 1))

inductive ServerFileMode
  | external | project
  deriving DecidableEq

structure CachedServerFiles where
  files : List FileMatch.FileInfo
  query : JsString
  includeIgnored : Bool
  mode : ServerFileMode

structure FreshServerFiles where
  items : List FileMatch.FileInfo
  query : JsString
  includeIgnored : Bool

/-- `AT_MENU_LIMIT` -/
def atMenuLimit : ℕ := 50

section Stale

variable {κ : Type*} [LinearOrder κ] (round : ℚ → ℚ) (lower : JsString → JsString)
  (collate : JsString → κ)

def staleServerFiles (fresh : FreshServerFiles) (cached : Option CachedServerFiles)
    (atQ : JsString) (mode : ServerFileMode) (ignoreOff : Bool) : List FileMatch.FileInfo :=
  if fresh.query = atQ ∧ fresh.includeIgnored = ignoreOff then fresh.items
  else
    match cached with
    | none => []
    | some cached =>
      if cached.mode = mode ∧ cached.includeIgnored = ignoreOff then
        if mode = .external then
          -- files of another directory are not shown
          if (splitExternalQuery cached.query).1 ≠ (splitExternalQuery atQ).1 then []
          else filterFiles round lower collate cached.files (splitExternalQuery atQ).2 atMenuLimit
        else filterFiles round lower collate cached.files atQ atMenuLimit
      else []

end Stale

/-! ### Code units -/

/-- Only a slash has the code unit of one. -/
theorem slash_mem_utf16_iff {s : List Char} : slash ∈ utf16 s ↔ '/' ∈ s := mem_utf16_iff (by decide)

/-! ### Both split alike -/

/-- **Both split a query in the same way.** -/
theorem splitExternalQuery_utf16 (query : List Char) :
    splitExternalQuery (utf16 query) =
      (utf16 (FileSearch.splitExternalQuery query).1,
        utf16 (FileSearch.splitExternalQuery query).2) := by
  by_cases h : '/' ∈ query
  · obtain ⟨front, rest, rfl, hrest⟩ := exists_append_of_mem_last h
    have hrest' : slash ∉ utf16 rest := fun hmem => hrest (slash_mem_utf16_iff.mp hmem)
    have hquery : utf16 (front ++ '/' :: rest) = utf16 front ++ slash :: utf16 rest := by
      rw [utf16_append, utf16_cons]
      rfl
    rw [FileSearch.splitExternalQuery_append front hrest, hquery, splitExternalQuery,
      lastIndexOf_append _ hrest']
    dsimp only
    rw [List.take_left, ← List.drop_drop, List.drop_left, List.drop_one, List.tail_cons]
    cases front with
    | nil => rfl
    | cons c front =>
      have hne : utf16 (c :: front) ≠ [] :=
        fun hnil => List.cons_ne_nil _ _ (utf16_eq_nil_iff.mp hnil)
      rw [if_neg fun h => hne h.1, if_neg (List.cons_ne_nil _ _)]
  · have h' : slash ∉ utf16 query := fun hmem => h (slash_mem_utf16_iff.mp hmem)
    rw [FileSearch.splitExternalQuery_of_notMem h, splitExternalQuery, lastIndexOf_eq_none h']
    rfl

theorem startsWith_iff {sigil : String} {query : List Char} :
    startsWith sigil (utf16 query) = true ↔ sigil.toList <+: query := by
  rw [startsWith, List.isPrefixOf_iff_prefix, utf16_prefix_iff]

theorem isExternalQuery_iff {query : List Char} : FileSearch.isExternalQuery query = true ↔
    ['/'] <+: query ∨ ['~'] <+: query ∨ ['.', '.'] <+: query := by
  simp only [FileSearch.isExternalQuery, Bool.or_eq_true, List.isPrefixOf_iff_prefix, or_assoc]

/-- A query that starts with a sigil of a letter is none. -/
theorem not_external_of_sigil {sigil : String} {query : List Char}
    (h : startsWith sigil (utf16 query) = true) (hne : sigil.toList ≠ [])
    (hletter : sigil.toList.head?.all Char.isAlpha = true) :
    ¬ FileSearch.isExternalQuery query = true := by
  have hpre := startsWith_iff.mp h
  obtain ⟨c, rest, hsigil⟩ := List.exists_cons_of_ne_nil hne
  rw [hsigil] at hpre hletter
  have hc : c.isAlpha = true := hletter
  obtain ⟨tail, rfl⟩ := hpre
  rw [isExternalQuery_iff]
  rintro (h | h | h)
  all_goals
    rw [← (List.cons_prefix_cons.mp h).1] at hc
    exact absurd hc (by decide)

/-- **Both take the same queries for external ones.** -/
theorem classifyAtQuery_external_iff (query : List Char) :
    classifyAtQuery (utf16 query) = .external (utf16 query) ↔
      FileSearch.isExternalQuery query = true := by
  have hexternal : (startsWith "/" (utf16 query) || startsWith "~" (utf16 query) ||
      startsWith ".." (utf16 query)) = true ↔ FileSearch.isExternalQuery query = true := by
    rw [Bool.or_eq_true, Bool.or_eq_true, startsWith_iff, startsWith_iff, startsWith_iff,
      isExternalQuery_iff, or_assoc]
    rfl
  unfold classifyAtQuery
  split_ifs with h h h h h h h
  · exact iff_of_false (by rintro ⟨⟩) (not_external_of_sigil h (by decide) (by decide))
  · exact iff_of_false (by rintro ⟨⟩) (not_external_of_sigil h (by decide) (by decide))
  · exact iff_of_false (by rintro ⟨⟩) (not_external_of_sigil h (by decide) (by decide))
  · exact iff_of_false (by rintro ⟨⟩) (not_external_of_sigil h (by decide) (by decide))
  · exact iff_of_false (by rintro ⟨⟩) (not_external_of_sigil h (by decide) (by decide))
  · exact iff_of_false (by rintro ⟨⟩) (not_external_of_sigil h (by decide) (by decide))
  · exact iff_of_true rfl (hexternal.mp h)
  · exact iff_of_false (by rintro ⟨⟩) fun hext => h (hexternal.mpr hext)

/-! ### What is kept -/

section Kept

variable {κ : Type*} [LinearOrder κ] (round : ℚ → ℚ) (jsLower : JsString → JsString)
  (collate : JsString → κ) (readDir : List Char → Option Directory)
  (lower : List Char → List Char) (base home : List Char)

/-- A file for the client. -/
def toClient (f : FileSearch.FileInfo) : FileMatch.FileInfo := ⟨utf16 f.path, f.isDirectory⟩

/-- The answer of the server to a query, as the client keeps it. -/
def cachedAnswer (query : List Char) (includeIgnored : Bool) : CachedServerFiles :=
  ⟨(listExternal readDir lower base home query fileQueryCap includeIgnored).map toClient,
    utf16 query, includeIgnored, .external⟩

/-- **No wrong file is shown**: while the answer to a query is on its way, what is kept of that to
another is in the answer without a limit; and both take the same queries for external ones and
split them in the same way. -/
def ShowsNoWrongFile (q₁ q₂ : List Char) (includeIgnored : Bool) : Prop :=
  (∀ fresh : FreshServerFiles,
    ¬ (fresh.query = utf16 q₂ ∧ fresh.includeIgnored = includeIgnored) →
    ∀ f ∈ staleServerFiles round jsLower collate fresh
        (some (cachedAnswer readDir lower base home q₁ includeIgnored)) (utf16 q₂) .external
        includeIgnored,
      ∃ g, (∃ cap, g ∈ listExternal readDir lower base home q₂ cap includeIgnored) ∧
        f = toClient g) ∧
  ∀ query, (classifyAtQuery (utf16 query) = .external (utf16 query) ↔
      FileSearch.isExternalQuery query = true) ∧
    splitExternalQuery (utf16 query) =
      (utf16 (FileSearch.splitExternalQuery query).1,
        utf16 (FileSearch.splitExternalQuery query).2)

/-- The client's test of a child of a directory, by its whole path. -/
def Keeps (dirPrefix part name : List Char) : Prop :=
  part = [] ∨ (jsLower (utf16 part)).Sublist (jsLower (utf16 (joinPrefix dirPrefix name)))

instance (dirPrefix part name : List Char) : Decidable (Keeps jsLower dirPrefix part name) :=
  inferInstanceAs (Decidable (_ ∨ _))

variable {round jsLower collate readDir lower base home}

theorem mem_cachedAnswer {query : List Char} {includeIgnored : Bool} {f : FileMatch.FileInfo} :
    f ∈ (cachedAnswer readDir lower base home query includeIgnored).files ↔
      ∃ e ∈ listedEntries readDir lower base home query fileQueryCap includeIgnored,
        f = ⟨utf16 (joinPrefix (FileSearch.splitExternalQuery query).1 e.1), e.2⟩ := by
  unfold cachedAnswer listExternal
  rw [List.map_map, List.mem_map]
  exact exists_congr fun e => and_congr_right fun _ => eq_comm

/-- What is kept of an answer for the same directory. -/
theorem mem_staleServerFiles {q₁ q₂ : List Char} {includeIgnored : Bool}
    {fresh : FreshServerFiles}
    (hpending : ¬ (fresh.query = utf16 q₂ ∧ fresh.includeIgnored = includeIgnored))
    {f : FileMatch.FileInfo} :
    f ∈ staleServerFiles round jsLower collate fresh
        (some (cachedAnswer readDir lower base home q₁ includeIgnored)) (utf16 q₂) .external
        includeIgnored ↔
      (FileSearch.splitExternalQuery q₁).1 = (FileSearch.splitExternalQuery q₂).1 ∧
        ∃ e ∈ listedEntries readDir lower base home q₁ fileQueryCap includeIgnored,
          Keeps jsLower (FileSearch.splitExternalQuery q₂).1 (FileSearch.splitExternalQuery q₂).2
              e.1 ∧
            f = ⟨utf16 (joinPrefix (FileSearch.splitExternalQuery q₂).1 e.1), e.2⟩ := by
  have hquery : (cachedAnswer readDir lower base home q₁ includeIgnored).query = utf16 q₁ := rfl
  unfold staleServerFiles
  rw [if_neg hpending]
  dsimp only
  rw [if_pos ⟨rfl, rfl⟩, if_pos rfl, hquery, splitExternalQuery_utf16, splitExternalQuery_utf16]
  dsimp only
  by_cases hdir : (FileSearch.splitExternalQuery q₁).1 = (FileSearch.splitExternalQuery q₂).1
  · -- the part of a name is no drill-down, and the answer is no longer than the menu
    have hslash : (utf16 (FileSearch.splitExternalQuery q₂).2).getLast? ≠ some slash :=
      fun hlast => FileSearch.slash_notMem_part q₂
        (slash_mem_utf16_iff.mp (List.mem_of_getLast? hlast))
    have hlen : (cachedAnswer readDir lower base home q₁ includeIgnored).files.length ≤
        atMenuLimit := by
      unfold cachedAnswer listExternal
      rw [List.length_map, List.length_map]
      exact FileSearch.length_listedEntries_le _ _ _
    rw [if_neg (not_not.mpr (congrArg utf16 hdir)), FileMatch.mem_filterFiles hslash hlen,
      mem_cachedAnswer, and_iff_right hdir, hdir]
    constructor
    · rintro ⟨⟨e, he, rfl⟩, hkeep⟩
      exact ⟨e, he, hkeep.imp_left utf16_eq_nil_iff.mp, rfl⟩
    · rintro ⟨e, he, hkeep, rfl⟩
      exact ⟨⟨e, he, rfl⟩, hkeep.imp_left utf16_eq_nil_iff.mpr⟩
  · rw [if_pos fun h => hdir (utf16_injective h)]
    exact iff_of_false List.not_mem_nil fun h => hdir h.1

/-- What the client's test leaves of the answer before, the server shows for the new query. -/
theorem ShowsNoWrongFile.shows {q₁ q₂ : List Char} {includeIgnored : Bool}
    (h : ShowsNoWrongFile round jsLower collate readDir lower base home q₁ q₂ includeIgnored)
    (hdir : (FileSearch.splitExternalQuery q₁).1 = (FileSearch.splitExternalQuery q₂).1)
    {e : List Char × Bool}
    (he : e ∈ listedEntries readDir lower base home q₁ fileQueryCap includeIgnored)
    (hkeep : Keeps jsLower (FileSearch.splitExternalQuery q₂).1
      (FileSearch.splitExternalQuery q₂).2 e.1) :
    Shows lower includeIgnored (FileSearch.splitExternalQuery q₂).2 e.1 := by
  -- a state of the client with an answer to the other setting of the toggle
  have hpending : ¬ ((⟨[], [], !includeIgnored⟩ : FreshServerFiles).query = utf16 q₂ ∧
      (!includeIgnored) = includeIgnored) := fun h => Bool.not_ne_self _ h.2
  obtain ⟨g, hg, hfile⟩ := h.1 _ hpending _
    ((mem_staleServerFiles hpending).mpr ⟨hdir, e, he, hkeep, rfl⟩)
  obtain ⟨-, -, e', -, hshows, rfl⟩ := FileSearch.mem_listExternal_iff.mp hg
  have hpath := utf16_injective (congrArg FileMatch.FileInfo.path hfile)
  rwa [FileSearch.joinPrefix_injective hpath]

/-- So a child that only the first query shows and the client keeps is a wrong file. -/
theorem ShowsNoWrongFile.not_of_mem {q₁ q₂ : List Char} {includeIgnored : Bool}
    {entries : Directory} {e : List Char × Bool} (hcap : entries.length ≤ fileQueryCap)
    (hread : readDir (FileSearch.resolveDirPrefix (FileSearch.splitExternalQuery q₁).1 base home) =
      some entries)
    (hdir : (FileSearch.splitExternalQuery q₁).1 = (FileSearch.splitExternalQuery q₂).1)
    (he : e ∈ entries)
    (hlisted : Shows lower includeIgnored (FileSearch.splitExternalQuery q₁).2 e.1)
    (hkeep : Keeps jsLower (FileSearch.splitExternalQuery q₂).1
      (FileSearch.splitExternalQuery q₂).2 e.1)
    (hnot : ¬ Shows lower includeIgnored (FileSearch.splitExternalQuery q₂).2 e.1) :
    ¬ ShowsNoWrongFile round jsLower collate readDir lower base home q₁ q₂ includeIgnored :=
  fun h => hnot
    (h.shows hdir (FileSearch.mem_listedEntries_of_length_le hread hcap he hlisted) hkeep)

/-- **No wrong file is shown exactly when every child in the answer before that the client's test
leaves is one that the server shows for the new query**, where the directory is the same. -/
theorem showsNoWrongFile_iff {q₁ q₂ : List Char} {includeIgnored : Bool} :
    ShowsNoWrongFile round jsLower collate readDir lower base home q₁ q₂ includeIgnored ↔
      ((FileSearch.splitExternalQuery q₁).1 = (FileSearch.splitExternalQuery q₂).1 →
        ∀ e ∈ listedEntries readDir lower base home q₁ fileQueryCap includeIgnored,
          Keeps jsLower (FileSearch.splitExternalQuery q₂).1 (FileSearch.splitExternalQuery q₂).2
              e.1 →
            Shows lower includeIgnored (FileSearch.splitExternalQuery q₂).2 e.1) := by
  constructor
  · exact fun h hdir e he hkeep => h.shows hdir he hkeep
  · intro h
    refine ⟨fun fresh hpending f hf => ?_, fun query =>
      ⟨classifyAtQuery_external_iff query, splitExternalQuery_utf16 query⟩⟩
    obtain ⟨hdir, e, he, hkeep, rfl⟩ := (mem_staleServerFiles hpending).mp hf
    obtain ⟨entries, hread, hentry, -⟩ := FileSearch.mem_listedEntries he
    rw [hdir] at hread
    exact ⟨⟨joinPrefix (FileSearch.splitExternalQuery q₂).1 e.1, e.2⟩,
      FileSearch.mem_listExternal_iff.mpr ⟨entries, hread, e, hentry, h hdir e he hkeep, rfl⟩, rfl⟩

end Kept

/-- A home directory with a hidden file. -/
def homeEntries : Directory :=
  [(".env".toList, false), ("notes.md".toList, false), ("projects".toList, true)]

def homeDir (path : List Char) : Option Directory :=
  if path = "/home".toList ∨ path = "/home/".toList then some homeEntries else none

/-- **Wrong files are shown**: one with the letters of the part apart, one for a letter of the
directory, and a hidden one after its dot is deleted. -/
theorem not_showsNoWrongFile :
    ¬ ShowsNoWrongFile id id id homeDir id [] "/home".toList "~/".toList "~/pj".toList false ∧
    ¬ ShowsNoWrongFile id id id homeDir id [] [] "/home/".toList "/home/h".toList false ∧
    ¬ ShowsNoWrongFile id id id homeDir id [] "/home".toList "~/.e".toList "~/".toList false := by
  have hcap : homeEntries.length ≤ fileQueryCap := by decide
  refine ⟨?_, ?_, ?_⟩
  · refine ShowsNoWrongFile.not_of_mem (e := ("projects".toList, true)) hcap ?_ ?_ ?_ ?_ ?_ ?_
    all_goals decide +kernel
  · refine ShowsNoWrongFile.not_of_mem (e := ("notes.md".toList, false)) hcap ?_ ?_ ?_ ?_ ?_ ?_
    all_goals decide +kernel
  · refine ShowsNoWrongFile.not_of_mem (e := (".env".toList, false)) hcap ?_ ?_ ?_ ?_ ?_ ?_
    all_goals decide +kernel

end Pantoken.Client.StaleFiles
