import Pantoken.Lib.Cut
import Pantoken.Server.WorktreePlan

/-!
# The listing of the models

`polytoken models` prints the catalog as indented text.  The server walks over its lines,
keeps the model whose block it is in, and puts that model out when the next header comes.

## Main definitions

* `parseReasoning`, `ModelWalk.step`, `parseModels` — the reader, line by line.
* `Catalog`, `Catalog.print` — a catalog, and its text with either end at every line.
* `Catalog.expected` — what the reader should say of it.
* `Level.Stripped` — the level is not marked, or marked in one of two spellings.

## Main results

* `ModelWalk.foldl_block` — a printed block leaves its model waiting, its fields read.
* `parseModels_print` — what the reader makes of a printed catalog.
* `parseModels_print_iff` — **it reads back the catalog exactly when every mark is spelled
  in one of the two ways the reader strips.**
* `not_parseModels_print` — a mark with one capital letter stays in its level.
-/

namespace Pantoken

open Cut (isWhitespace)

/-- What is asked of the characters of a list is decided along the list, and not over all
characters. -/
local instance (priority := 2000) decidableForallMemChars (p : Char → Prop) [DecidablePred p]
    (l : List Char) : Decidable (∀ c ∈ l, p c) := List.decidableBAll p l

local instance (priority := 2000) decidableForallMemChar (p : Char → Prop) [DecidablePred p]
    (o : Option Char) : Decidable (∀ c ∈ o, p c) := Option.decidableForallMem o

/-- `session_driver.rs`, `ModelOption` -/
structure ModelOption where
  modelId : List Char
  label : List Char
  thinkingLevels : Option (List (List Char))
  defaultThinkingLevel : Option (List Char)
deriving DecidableEq

namespace ModelListing

/-! ### The reader -/

structure ParsedModels where
  models : List ModelOption
  defaultModel : Option (List Char)
  defaultSmallModel : Option (List Char)
  defaultThinkingLevel : Option (List Char)
deriving DecidableEq

structure ReasoningInfo where
  levels : List (List Char) := []
  defaultLevel : Option (List Char) := none

def defaultMark : List Char := ['(', 'd', 'e', 'f', 'a', 'u', 'l', 't', ')']

def upperMark : List Char := ['(', 'D', 'E', 'F', 'A', 'U', 'L', 'T', ')']

def levelsKey : List Char := ['l', 'e', 'v', 'e', 'l', 's', '=']

def reasoningKey : List Char := ['r', 'e', 'a', 's', 'o', 'n', 'i', 'n', 'g', ':']

/-- The level that is left of a piece of the `levels=` segment. -/
def stripMark (raw : List Char) : List Char :=
  Cut.trim isWhitespace (Cut.without upperMark (Cut.without defaultMark raw))

/-- One round of the loop over the pieces. -/
def ReasoningInfo.add (u : Lowercase) (info : ReasoningInfo) (raw : List Char) : ReasoningInfo :=
  let isDefault := decide (defaultMark <:+: u.toLowercase raw)
  let level := stripMark raw
  if level = [] then info
  else
    { levels := info.levels ++ [level]
      defaultLevel :=
        if isDefault && info.defaultLevel.isNone then some level else info.defaultLevel }

def parseReasoning (u : Lowercase) (reasoningLine : List Char) : ReasoningInfo :=
  match Cut.afterFirst levelsKey reasoningLine with
  | none => {}
  | some rest => ((rest.takeWhile (· ≠ ';')).splitOn ',').foldl (ReasoningInfo.add u) {}

def firstTokenAfterPrefix (line pre : List Char) : Option (List Char) :=
  (Cut.stripPrefix pre line).bind (Cut.firstToken isWhitespace)

def parseModelHeader (line : List Char) : Option (List Char) :=
  match Cut.stripPrefix ['-'] line with
  | some (c :: rest) => if isWhitespace c then Cut.firstToken isWhitespace rest else none
  | _ => none

def parseIndentedFieldRest (line field : List Char) : Option (List Char) :=
  match line with
  | [] => none
  | first :: _ =>
    if isWhitespace first then
      (Cut.stripPrefix field (line.dropWhile isWhitespace)).map (·.dropWhile isWhitespace)
    else none

/-- The variables of `parse_models`. -/
structure ModelWalk where
  defaultModel : Option (List Char) := none
  defaultSmallModel : Option (List Char) := none
  models : List ModelOption := []
  currentId : Option (List Char) := none
  currentReasoning : Option (List Char) := none
  inModelsSection : Bool := false
  defaultThinkingLevel : Option (List Char) := none

namespace ModelWalk

/-- The block of a model is over.  Both callers of the closure keep the default level it
returns when the model is the default one. -/
def flush (u : Lowercase) (w : ModelWalk) : ModelWalk :=
  match w.currentId with
  | none => { w with currentReasoning := none }
  | some id =>
    let info := w.currentReasoning.map (parseReasoning u)
    let level := info.bind (·.defaultLevel)
    { w with
      models := w.models ++ [⟨id, id, info.map (·.levels), level⟩]
      currentId := none
      currentReasoning := none
      defaultThinkingLevel :=
        if some id = w.defaultModel then level else w.defaultThinkingLevel }

/-- A line without its end. -/
def line (u : Lowercase) (w : ModelWalk) (l : List Char) : ModelWalk :=
  match firstTokenAfterPrefix l "default_model:".toList with
  | some token => { w with defaultModel := some token }
  | none =>
    match firstTokenAfterPrefix l "default_small_model:".toList with
    | some token => { w with defaultSmallModel := some token }
    | none =>
      if Cut.trim isWhitespace l = "models:".toList then { w with inModelsSection := true }
      else
        match if w.inModelsSection then parseModelHeader l else none with
        | some id => { w.flush u with currentId := some id }
        | none =>
          if w.currentId.isNone then w
          else
            match parseIndentedFieldRest l reasoningKey with
            | some rest => { w with currentReasoning := some rest }
            | none => w

/-- `raw.strip_suffix('\r').unwrap_or(raw)` -/
def stripCr (raw : List Char) : List Char :=
  if raw.getLast? = some '\r' then raw.dropLast else raw

/-- One round of the loop over the lines. -/
def step (u : Lowercase) (w : ModelWalk) (raw : List Char) : ModelWalk := w.line u (stripCr raw)

end ModelWalk

def parseModels (u : Lowercase) (stdout : List Char) : ParsedModels :=
  let w := ((stdout.splitOn '\n').foldl (ModelWalk.step u) {}).flush u
  { models := w.models
    defaultModel := w.defaultModel
    defaultSmallModel := w.defaultSmallModel
    defaultThinkingLevel := w.defaultThinkingLevel }

/-! ### Catalogs -/

/-- The tables, with what they say of ASCII and of the bracket. -/
structure AsciiCase where
  tables : Lowercase
  lower_ascii : ∀ c : Char, c.toNat < 128 → tables.lower c = [c.toLower]
  bracket_notMem : ∀ c, c ≠ '(' → '(' ∉ tables.lower c

/-- A text that is told apart from the end of its line. -/
def Clean (l : List Char) : Prop := '\n' ∉ l ∧ l.getLast? ≠ some '\r'

instance (l : List Char) : Decidable (Clean l) :=
  inferInstanceAs (Decidable ('\n' ∉ l ∧ l.getLast? ≠ some '\r'))

abbrev LineText : Type := { l : List Char // Clean l }

/-- A name: some characters, none of them blank. -/
abbrev Name : Type := { s : List Char // s ≠ [] ∧ ∀ c ∈ s, isWhitespace c = false }

/-- `(default)` in any letter case. -/
abbrev Mark : Type := { m : List Char // m.map Char.toLower = defaultMark }

/-- A level, perhaps marked.  Its name holds none of the characters that end it. -/
structure Level where
  name : List Char
  mark : Option Mark
  solid : Cut.Solid isWhitespace name
  plain : ∀ c ∈ name, c ∉ [',', ';', '(', '\n']

/-- The text of a level. -/
def Level.print (l : Level) : List Char :=
  l.name ++ match l.mark with
    | none => []
    | some m => ' ' :: m.val

/-- A reasoning field: segments, one of which lists the levels. -/
structure Reasoning where
  before : List (List Char)
  levels : List Level
  after : LineText
  before_plain : ∀ s ∈ before, '\n' ∉ s ∧ ¬ levelsKey <:+: s
  after_head : ∀ c ∈ after.val.head?, c = ';'

/-- The text of the field, after its name. -/
def Reasoning.print (r : Reasoning) : List Char :=
  (r.before.flatMap (· ++ "; ".toList)) ++ levelsKey ++
    ", ".toList.intercalate (r.levels.map Level.print) ++ r.after.val

/-- An indented field that is not the reasoning field. -/
structure Field where
  text : LineText
  indented : ∃ c ∈ text.val.head?, isWhitespace c = true
  other : ¬ reasoningKey <+: text.val.dropWhile isWhitespace

/-- A model, the marks after its name, and its fields. -/
structure Model where
  name : Name
  header : LineText
  before : List Field
  reasoning : Option Reasoning
  after : List Field
  header_head : ∀ c ∈ header.val.head?, isWhitespace c = true

/-- The lines of a block. -/
def Model.lines (m : Model) : List (List Char) :=
  ("- ".toList ++ m.name.val ++ m.header.val) :: m.before.map (·.text.val) ++
    (m.reasoning.map fun r => "  reasoning: ".toList ++ r.print).toList ++
    m.after.map (·.text.val)

/-- A catalog: the two default models, and models of different names. -/
structure Catalog where
  default : Option Name
  small : Option Name
  models : List Model
  nodup : (models.map (·.name)).Nodup

namespace Catalog

def lines (c : Catalog) : List (List Char) :=
  (c.default.map fun d => "default_model: ".toList ++ d.val).toList ++
    (c.small.map fun d => "default_small_model: ".toList ++ d.val).toList ++
    [[], "models:".toList] ++ c.models.flatMap Model.lines

/-- The text, with the end of each line as given. -/
def print (c : Catalog) (crlf : ℕ → Bool) : List Char :=
  (c.lines.mapIdx fun i l => l ++ if crlf i then ['\r', '\n'] else ['\n']).flatten

end Catalog

/-- What the reader should say of some levels. -/
def defaultLevel (ls : List Level) : Option (List Char) :=
  (ls.find? (·.mark.isSome)).map (·.name)

def Model.expected (m : Model) : ModelOption where
  modelId := m.name.val
  label := m.name.val
  thinkingLevels := m.reasoning.map fun r => r.levels.map (·.name)
  defaultThinkingLevel := m.reasoning.bind fun r => defaultLevel r.levels

/-- What the reader should say of a catalog. -/
def Catalog.expected (c : Catalog) : ParsedModels where
  models := c.models.map Model.expected
  defaultModel := c.default.map (·.val)
  defaultSmallModel := c.small.map (·.val)
  defaultThinkingLevel :=
    (c.models.find? fun m => some m.name = c.default).bind fun m => m.expected.defaultThinkingLevel

/-- The reader strips the mark in these two spellings. -/
def Mark.Stripped (m : Mark) : Prop := m.val = defaultMark ∨ m.val = upperMark

instance (m : Mark) : Decidable m.Stripped :=
  inferInstanceAs (Decidable (m.val = defaultMark ∨ m.val = upperMark))

def Level.Stripped (l : Level) : Prop := ∀ m ∈ l.mark, m.Stripped

instance (l : Level) : Decidable l.Stripped :=
  inferInstanceAs (Decidable (∀ m ∈ l.mark, m.Stripped))

/-- What the reader says of a level. -/
def Level.read (l : Level) : List Char := if l.Stripped then l.name else l.print

/-- What the reader says of some levels: the first one marked is the default. -/
def readDefault (ls : List Level) : Option (List Char) :=
  (ls.find? (·.mark.isSome)).map Level.read

def Model.read (m : Model) : ModelOption where
  modelId := m.name.val
  label := m.name.val
  thinkingLevels := m.reasoning.map fun r => r.levels.map Level.read
  defaultThinkingLevel := m.reasoning.bind fun r => readDefault r.levels

/-- What the reader says of a catalog. -/
def Catalog.read (c : Catalog) : ParsedModels where
  models := c.models.map Model.read
  defaultModel := c.default.map (·.val)
  defaultSmallModel := c.small.map (·.val)
  defaultThinkingLevel :=
    (c.models.find? fun m => some m.name = c.default).bind fun m => m.read.defaultThinkingLevel

/-! ### Marks -/

theorem toLower_eq_or (c : Char) :
    c.toLower = c ∨ 'A' ≤ c ∧ c.toLower.toNat = c.toNat + 32 := by
  unfold Char.toLower
  split
  · next h =>
    refine Or.inr ⟨h.1, ?_⟩
    have hle : c.val.toNat ≤ 90 := UInt32.le_iff_toNat_le.mp h.2
    have hsub : ('a'.val - 'A'.val).toNat = 32 := rfl
    change (c.val + ('a'.val - 'A'.val)).toNat = c.val.toNat + 32
    rw [UInt32.toNat_add, hsub]
    omega
  · exact Or.inl rfl

namespace AsciiCase

variable (u : AsciiCase)

theorem exists_lowerFrom_append (before x y : List Char) :
    ∃ z, u.tables.lowerFrom before (x ++ y) = z ++ u.tables.lowerFrom (x.reverse ++ before) y := by
  induction x generalizing before with
  | nil => exact ⟨[], rfl⟩
  | cons c x ih =>
    obtain ⟨z, hz⟩ := ih (c :: before)
    rw [List.cons_append, Lowercase.lowerFrom, hz, ← List.append_assoc, List.reverse_cons,
      List.append_assoc x.reverse, List.singleton_append]
    exact ⟨_, rfl⟩

theorem lowerFrom_ascii {before x : List Char} (hx : ∀ c ∈ x, c.toNat < 128) :
    u.tables.lowerFrom before x = x.map Char.toLower := by
  induction x generalizing before with
  | nil => rfl
  | cons c x ih =>
    have hc : c.toNat < 128 := hx c List.mem_cons_self
    have hsigma : c ≠ 'Σ' := fun h => absurd (h ▸ hc) (by decide)
    rw [Lowercase.lowerFrom, if_neg hsigma, u.lower_ascii c hc,
      ih fun d hd => hx d (List.mem_cons_of_mem c hd)]
    rfl

theorem bracket_notMem_lowerFrom {before x : List Char} (hx : '(' ∉ x) :
    '(' ∉ u.tables.lowerFrom before x := by
  induction x generalizing before with
  | nil => exact List.not_mem_nil
  | cons c x ih =>
    obtain ⟨hc, hx⟩ := not_or.mp (List.mem_cons.not.mp hx)
    rw [Lowercase.lowerFrom, List.mem_append, not_or]
    refine ⟨?_, ih hx⟩
    split
    · rw [Lowercase.mapUppercaseSigma]
      split <;> decide
    · exact u.bracket_notMem c (Ne.symm hc)

end AsciiCase

namespace Mark

variable (m : Mark)

theorem length_val : m.val.length = 9 := by
  rw [← List.length_map (f := Char.toLower), m.property]
  rfl

theorem toLower_mem {c : Char} (hc : c ∈ m.val) : c.toLower ∈ defaultMark := by
  rw [← m.property]
  exact List.mem_map_of_mem hc

theorem ascii {c : Char} (hc : c ∈ m.val) : c.toNat < 128 := by
  have hlow : c.toLower.toNat < 128 := by
    have hall : ∀ d ∈ defaultMark, d.toNat < 128 := by decide
    exact hall _ (m.toLower_mem hc)
  obtain h | ⟨-, h⟩ := toLower_eq_or c
  · rwa [h] at hlow
  · omega

theorem not_blank {c : Char} (hc : c ∈ m.val) : isWhitespace c = false := by
  obtain h | ⟨hle, -⟩ := toLower_eq_or c
  · have hall : ∀ d ∈ defaultMark, isWhitespace d = false := by decide
    rw [← h]
    exact hall _ (m.toLower_mem hc)
  · have hle' : 65 ≤ c.toNat := hle
    have hlt := m.ascii hc
    simp only [isWhitespace, decide_eq_false_iff_not]
    omega

/-- A mark is a bracket and what holds no bracket. -/
theorem exists_eq_cons : ∃ rest, m.val = '(' :: rest ∧ '(' ∉ rest := by
  obtain ⟨c, rest, hm⟩ := List.exists_cons_of_ne_nil
    (List.ne_nil_of_length_pos (by rw [m.length_val]; decide : 0 < m.val.length))
  have hlow := m.property
  rw [hm, List.map_cons] at hlow
  obtain ⟨hc, hrest⟩ := List.cons_eq_cons.mp hlow
  refine ⟨rest, ?_, fun hmem => ?_⟩
  · rw [hm]
    obtain h | ⟨hle, h⟩ := toLower_eq_or c
    · rw [← h, hc]
    · have hle' : 65 ≤ c.toNat := hle
      rw [hc] at h
      have hbracket : '('.toNat = 40 := rfl
      omega
  · have := List.mem_map_of_mem (f := Char.toLower) hmem
    rw [hrest] at this
    exact absurd this (by decide)

/-- One spelling is taken away from a mark when it is its own. -/
theorem without_val {pat : List Char} (hpat : pat.length = 9) (hhead : pat.head? = some '(') :
    Cut.without pat m.val = if m.val = pat then [] else m.val := by
  by_cases h : m.val = pat
  · rw [if_pos h, h]
    exact Cut.without_self pat
  · obtain ⟨rest, hm, hrest⟩ := m.exists_eq_cons
    obtain ⟨pat, rfl⟩ : ∃ t, pat = '(' :: t := by
      cases pat with
      | nil => cases hhead
      | cons c t => exact ⟨t, by rw [Option.some.inj hhead]⟩
    have hnot : ¬ '(' :: pat <+: '(' :: rest := fun hp =>
      h (by rw [hm, hp.eq_of_length (by rw [hpat, ← hm, m.length_val])])
    rw [if_neg h, hm, Cut.without, Cut.withoutFrom, if_neg hnot]
    exact congrArg ('(' :: ·) (Cut.without_of_notMem hrest)

end Mark

/-! ### Levels -/

namespace Level

variable (l : Level)

theorem bracket_notMem : '(' ∉ l.name := fun h => l.plain _ h (by decide)

/-- A level is not blank at either end, whether marked or not. -/
theorem solid_print : Cut.Solid isWhitespace l.print where
  ne_nil h := l.solid.ne_nil (List.append_eq_nil_iff.mp h).1
  head := by
    rw [print, List.head?_append_of_ne_nil _ l.solid.ne_nil]
    exact l.solid.head
  last := by
    unfold print
    cases hm : l.mark with
    | none =>
      rw [List.append_nil]
      exact l.solid.last
    | some m =>
      have hne : m.val ≠ [] := List.ne_nil_of_length_pos (by rw [m.length_val]; decide)
      intro c hc
      rw [List.getLast?_append_of_ne_nil _ (List.cons_ne_nil _ _), List.getLast?_cons,
        List.getLast?_eq_some_getLast hne] at hc
      exact m.not_blank (Option.some.inj hc ▸ List.getLast_mem hne)

/-- **The reader strips two spellings of the mark, and no other.** -/
theorem stripMark_print {pad : List Char} (hpad : ∀ c ∈ pad, isWhitespace c = true)
    (hbracket : '(' ∉ pad) : stripMark (pad ++ l.print) = l.read := by
  have hplain : '(' ∉ pad ++ (l.name ++ [' ']) := by
    simp [hbracket, l.bracket_notMem]
  have hblank : ∀ c ∈ [' '], isWhitespace c = true := by decide
  unfold stripMark
  cases hm : l.mark with
  | none =>
    have hprint : pad ++ l.print = pad ++ (l.name ++ []) := by rw [print, hm]
    have hnone : '(' ∉ pad ++ (l.name ++ []) := by simp [hbracket, l.bracket_notMem]
    have hread : l.read = l.name := if_pos fun m h => by simp [hm] at h
    rw [hprint, defaultMark, Cut.without_of_notMem hnone, upperMark, Cut.without_of_notMem hnone,
      hread]
    exact Cut.trim_pad l.solid hpad (by simp)
  | some m =>
    have hprint : pad ++ l.print = (pad ++ (l.name ++ [' '])) ++ m.val := by
      rw [print, hm]
      simp
    rw [hprint]
    have hdefault : Cut.without defaultMark ((pad ++ (l.name ++ [' '])) ++ m.val) =
        (pad ++ (l.name ++ [' '])) ++ if m.val = defaultMark then [] else m.val := by
      rw [← m.without_val rfl rfl]
      exact Cut.without_append hplain _
    have hplain' : Cut.without upperMark (pad ++ (l.name ++ [' '])) = pad ++ (l.name ++ [' ']) :=
      Cut.without_of_notMem hplain
    have hupper : Cut.without upperMark ((pad ++ (l.name ++ [' '])) ++ m.val) =
        (pad ++ (l.name ++ [' '])) ++ if m.val = upperMark then [] else m.val := by
      rw [← m.without_val rfl rfl]
      exact Cut.without_append hplain _
    have hstripped : l.Stripped ↔ m.Stripped := by
      unfold Stripped
      rw [hm]
      exact ⟨fun h => h m rfl, fun h m' hm' => Option.some.inj hm' ▸ h⟩
    -- the two spellings that are taken away, and all others that stay
    by_cases hd : m.val = defaultMark
    · rw [hdefault, if_pos hd, List.append_nil, hplain', read, if_pos (hstripped.mpr (Or.inl hd))]
      exact Cut.trim_pad l.solid hpad hblank
    · rw [hdefault, if_neg hd, hupper]
      by_cases hu : m.val = upperMark
      · rw [if_pos hu, List.append_nil, read, if_pos (hstripped.mpr (Or.inr hu))]
        exact Cut.trim_pad l.solid hpad hblank
      · have hnot : ¬ l.Stripped := fun h => (hstripped.mp h).elim hd hu
        rw [if_neg hu, ← hprint, read, if_neg hnot]
        have := Cut.trim_pad (b := []) l.solid_print hpad (by simp)
        rwa [List.append_nil] at this

/-- The reader sees every mark. -/
theorem isInfix_print (u : AsciiCase) {pad : List Char} (hbracket : '(' ∉ pad) :
    defaultMark <:+: u.tables.toLowercase (pad ++ l.print) ↔ l.mark.isSome = true := by
  cases hm : l.mark with
  | none =>
    have hnone : '(' ∉ pad ++ l.print := by
      rw [print, hm]
      simp [hbracket, l.bracket_notMem]
    exact iff_of_false (fun h => u.bracket_notMem_lowerFrom hnone (h.subset List.mem_cons_self))
      (by decide)
  | some m =>
    refine iff_of_true ?_ rfl
    have hprint : pad ++ l.print = (pad ++ (l.name ++ [' '])) ++ m.val := by
      rw [print, hm]
      simp
    obtain ⟨z, hz⟩ := u.exists_lowerFrom_append [] (pad ++ (l.name ++ [' '])) m.val
    rw [hprint, Lowercase.toLowercase, hz, u.lowerFrom_ascii fun c => m.ascii, m.property]
    exact (List.suffix_append z defaultMark).isInfix

theorem read_ne_nil : l.read ≠ [] := by
  unfold read
  split
  · exact l.solid.ne_nil
  · exact l.solid_print.ne_nil

/-- One piece of the segment. -/
theorem add_print (u : AsciiCase) (info : ReasoningInfo) (pad : List Char)
    (hpad : ∀ c ∈ pad, isWhitespace c = true) (hbracket : '(' ∉ pad) :
    info.add u.tables (pad ++ l.print) =
      { levels := info.levels ++ [l.read]
        defaultLevel := info.defaultLevel.or (if l.mark.isSome then some l.read else none) } := by
  have hmark : decide (defaultMark <:+: u.tables.toLowercase (pad ++ l.print)) = l.mark.isSome := by
    rw [Bool.eq_iff_iff, decide_eq_true_iff]
    exact l.isInfix_print u hbracket
  rw [ReasoningInfo.add, l.stripMark_print hpad hbracket, if_neg l.read_ne_nil, hmark]
  cases l.mark <;> cases info.defaultLevel <;> rfl

/-- No level holds what ends it. -/
theorem notMem_print {c : Char} (hc : c ∈ [',', ';', '\n']) : c ∉ l.print := by
  have hname : c ∉ l.name := fun h => l.plain c h (by
    simp only [List.mem_cons, List.not_mem_nil, or_false] at hc ⊢
    tauto)
  have hblank : ∀ d ∈ [',', ';', '\n'], d ≠ ' ' ∧ d.toLower ∉ defaultMark := by decide
  rw [print, List.mem_append, not_or]
  refine ⟨hname, ?_⟩
  cases l.mark with
  | none => exact List.not_mem_nil
  | some m =>
    exact List.mem_cons.not.mpr (not_or.mpr ⟨(hblank c hc).1,
      fun h => (hblank c hc).2 (m.toLower_mem h)⟩)

end Level

theorem foldl_add_print (u : AsciiCase) (ls : List Level) (info : ReasoningInfo) :
    (ls.map fun l => ' ' :: l.print).foldl (ReasoningInfo.add u.tables) info =
      { levels := info.levels ++ ls.map Level.read
        defaultLevel := info.defaultLevel.or (readDefault ls) } := by
  induction ls generalizing info with
  | nil => simp [readDefault]
  | cons l ls ih =>
    have hl : info.add u.tables (' ' :: l.print) = _ :=
      l.add_print u info [' '] (by decide) (by decide)
    rw [List.map_cons, List.foldl_cons, hl, ih]
    cases hm : l.mark <;> simp [readDefault, hm]

/-- The pieces of the segment: every level but the first has a blank before it. -/
theorem splitOn_levels (l : Level) (ls : List Level) :
    (", ".toList.intercalate ((l :: ls).map Level.print)).splitOn ',' =
      l.print :: ls.map fun l => ' ' :: l.print := by
  have hsplit : ", ".toList.intercalate ((l :: ls).map Level.print) =
      [','].intercalate (l.print :: ls.map fun l => ' ' :: l.print) := by
    induction ls generalizing l with
    | nil => rfl
    | cons l' ls ih =>
      rw [List.map_cons, List.map_cons, List.intercalate_cons_cons, ← List.map_cons, ih l',
        List.map_cons (l := ls), List.intercalate_cons_cons, List.intercalate_cons_cons_left]
      simp
  rw [hsplit]
  refine List.splitOn_intercalate ',' ?_ (List.cons_ne_nil _ _)
  intro piece hpiece
  obtain rfl | hpiece := List.mem_cons.mp hpiece
  · exact l.notMem_print (by decide)
  · obtain ⟨l', -, rfl⟩ := List.mem_map.mp hpiece
    exact List.mem_cons.not.mpr (not_or.mpr ⟨by decide, l'.notMem_print (by decide)⟩)

/-- The pieces of the segment are read as the levels. -/
theorem foldl_add_levels (u : AsciiCase) (ls : List Level) :
    ((", ".toList.intercalate (ls.map Level.print)).splitOn ',').foldl
        (ReasoningInfo.add u.tables) {} =
      { levels := ls.map Level.read, defaultLevel := readDefault ls } := by
  cases ls with
  | nil => 
    rw [List.map_nil, List.map_nil, List.intercalate_nil, List.splitOn_nil]
    rfl
  | cons l ls =>
    have hl : ReasoningInfo.add u.tables {} l.print = _ :=
      l.add_print u {} [] (by simp) (by simp)
    rw [splitOn_levels, List.foldl_cons, hl, foldl_add_print]
    cases hm : l.mark <;> simp [readDefault, hm]

theorem notMem_levels {c : Char} (hc : c ∈ [';', '\n']) (ls : List Level) :
    c ∉ ", ".toList.intercalate (ls.map Level.print) := by
  have hsep : c ∉ ", ".toList := by
    have : ∀ d ∈ [';', '\n'], d ∉ ", ".toList := by decide
    exact this c hc
  induction ls with
  | nil => exact List.not_mem_nil
  | cons l ls ih =>
    have hl : c ∉ l.print := l.notMem_print (List.mem_cons_of_mem _ hc)
    cases ls with
    | nil => rwa [List.map_singleton, List.intercalate_singleton]
    | cons l' ls =>
      rw [List.map_cons, List.map_cons, List.intercalate_cons_cons, List.mem_append,
        List.mem_append, not_or, not_or]
      exact ⟨⟨hl, hsep⟩, ih⟩

/-! ### The reasoning field -/

theorem afterFirst_dropWhile {pat : List Char} {c : Char} (hc : isWhitespace c = false)
    (l : List Char) :
    Cut.afterFirst (c :: pat) (l.dropWhile isWhitespace) = Cut.afterFirst (c :: pat) l := by
  induction l with
  | nil => rfl
  | cons d l ih =>
    cases hd : isWhitespace d with
    | false => rw [List.dropWhile_cons_of_neg (by rw [hd]; decide)]
    | true =>
      have hcd : c ≠ d := fun h => by rw [h, hd] at hc; cases hc
      rw [List.dropWhile_cons_of_pos hd, ih, Cut.afterFirst, if_neg (Cut.not_prefix_of_ne hcd)]

namespace Reasoning

variable (r : Reasoning)

theorem afterFirst_print : Cut.afterFirst levelsKey r.print =
    some (", ".toList.intercalate (r.levels.map Level.print) ++ r.after.val) := by
  unfold print
  obtain ⟨before, levels, after, hbefore, hafter⟩ := r
  induction before with
  | nil =>
    rw [List.flatMap_nil, List.nil_append, List.append_assoc]
    exact Cut.afterFirst_prefix (by decide) _
  | cons s before ih =>
    obtain ⟨⟨-, hs⟩, hbefore⟩ := List.forall_mem_cons.mp hbefore
    have hskip : ∀ y, Cut.afterFirst levelsKey (s ++ ("; ".toList ++ y)) =
        Cut.afterFirst levelsKey y := fun y => by
      rw [show "; ".toList ++ y = ';' :: ([] ++ ' ' :: y) from rfl,
        Cut.afterFirst_append_cons (by decide) hs (by decide),
        Cut.afterFirst_append_cons (by decide) (by decide) (by decide)]
    have hassoc : ∀ y : List Char, (s ++ "; ".toList) ++ y = s ++ ("; ".toList ++ y) := fun y =>
      List.append_assoc _ _ _
    rw [List.flatMap_cons, List.append_assoc (s ++ "; ".toList),
      List.append_assoc (s ++ "; ".toList), List.append_assoc (s ++ "; ".toList), hassoc, hskip]
    exact ih hbefore

/-- **The levels of a printed field.** -/
theorem parseReasoning_print (u : AsciiCase) :
    parseReasoning u.tables (r.print.dropWhile isWhitespace) =
      { levels := r.levels.map Level.read, defaultLevel := readDefault r.levels } := by
  have hafter : Cut.afterFirst levelsKey (r.print.dropWhile isWhitespace) =
      some (", ".toList.intercalate (r.levels.map Level.print) ++ r.after.val) :=
    (afterFirst_dropWhile (by decide) _).trans r.afterFirst_print
  have hsegment : (", ".toList.intercalate (r.levels.map Level.print) ++ r.after.val).takeWhile
      (· ≠ ';') = ", ".toList.intercalate (r.levels.map Level.print) := by
    have hplain : ∀ c ∈ ", ".toList.intercalate (r.levels.map Level.print),
        decide (c ≠ ';') = true := fun c hc =>
      decide_eq_true fun h => notMem_levels (by decide) r.levels (h ▸ hc)
    rw [List.takeWhile_append_of_pos hplain]
    obtain ⟨before, levels, ⟨after, -⟩, -, hafter⟩ := r
    cases after with
    | nil => rw [List.takeWhile_nil, List.append_nil]
    | cons c after =>
      have hc : c = ';' := hafter c rfl
      rw [List.takeWhile_cons_of_neg (by simp [hc]), List.append_nil]
  rw [parseReasoning, hafter]
  exact (congrArg (fun segment => (segment.splitOn ',').foldl (ReasoningInfo.add u.tables) {})
    hsegment).trans (foldl_add_levels u r.levels)

end Reasoning

/-! ### Blocks -/

namespace ModelWalk

variable (u : AsciiCase) {w : ModelWalk} {l id rest : List Char}

theorem firstTokenAfterPrefix_of_head {pat : List Char} (hpat : pat.head? = some 'd')
    (hl : l.head? ≠ some 'd') : firstTokenAfterPrefix l pat = none := by
  have hne : pat ≠ [] := fun h => by rw [h] at hpat; cases hpat
  rw [firstTokenAfterPrefix, Cut.stripPrefix_of_head hne (by rwa [hpat]), Option.bind_none]

/-- A line that does not start as the defaults do. -/
theorem line_of_head (hl : l.head? ≠ some 'd') (hw : w.inModelsSection = true) :
    w.line u.tables l =
      if Cut.trim isWhitespace l = "models:".toList then w
      else
        match parseModelHeader l with
        | some id => { w.flush u.tables with currentId := some id }
        | none =>
          if w.currentId.isNone then w
          else
            match parseIndentedFieldRest l reasoningKey with
            | some rest => { w with currentReasoning := some rest }
            | none => w := by
  rw [line, firstTokenAfterPrefix_of_head rfl hl, firstTokenAfterPrefix_of_head rfl hl]
  simp only [hw, if_true]
  rw [← hw]

/-- The header of a model. -/
theorem line_header (hw : w.inModelsSection = true) (m : Model) :
    w.line u.tables ("- ".toList ++ m.name.val ++ m.header.val) =
      { w.flush u.tables with currentId := some m.name.val } := by
  obtain ⟨hne, hname⟩ := m.name.property
  have hheader : parseModelHeader ("- ".toList ++ m.name.val ++ m.header.val) =
      some m.name.val :=
    -- what is left after the dash and the blank
    show (if isWhitespace ' ' then Cut.firstToken isWhitespace (m.name.val ++ m.header.val)
      else none) = _ from
    (if_pos (by decide)).trans
      (Cut.firstToken_append (a := []) hne hname (by simp) m.header_head)
  have htrim : Cut.trim isWhitespace ("- ".toList ++ m.name.val ++ m.header.val) ≠
      "models:".toList :=
    Cut.trim_ne_cons (List.dropWhile_cons_of_neg (by decide)) (by decide)
  rw [line_of_head u (by simp) hw, if_neg htrim, hheader]

/-- A field that is not the reasoning field. -/
theorem line_field (hw : w.inModelsSection = true) (hid : w.currentId.isNone = false)
    (f : Field) : w.line u.tables f.text.val = w := by
  obtain ⟨⟨text, -⟩, ⟨c, hc, hblank⟩, hother⟩ := f
  obtain ⟨l, rfl⟩ : ∃ l, text = c :: l := List.head?_eq_some_iff.mp hc
  have hd : (c :: l).head? ≠ some 'd' := fun h => by
    rw [Option.some.inj h] at hblank
    cases hblank
  have hdash : c ≠ '-' := fun h => by
    rw [h] at hblank
    cases hblank
  have hheader : parseModelHeader (c :: l) = none := by
    rw [parseModelHeader, Cut.stripPrefix_of_head (by simp) (by simpa using hdash)]
  have hrest : parseIndentedFieldRest (c :: l) reasoningKey = none := by
    rw [parseIndentedFieldRest, if_pos hblank, Cut.stripPrefix_eq_none hother, Option.map_none]
  rw [line_of_head u hd hw, hheader, hrest, hid]
  split <;> rfl

/-- The reasoning field. -/
theorem line_reasoning (hw : w.inModelsSection = true) (hid : w.currentId.isNone = false)
    (r : Reasoning) : w.line u.tables ("  reasoning: ".toList ++ r.print) =
      { w with currentReasoning := some (r.print.dropWhile isWhitespace) } := by
  have hdrop : ("  reasoning: ".toList ++ r.print).dropWhile isWhitespace =
      reasoningKey ++ (' ' :: r.print) := rfl
  have htrim : Cut.trim isWhitespace ("  reasoning: ".toList ++ r.print) ≠ "models:".toList :=
    Cut.trim_ne_cons hdrop (by decide)
  have hheader : parseModelHeader ("  reasoning: ".toList ++ r.print) = none := rfl
  have hrest : parseIndentedFieldRest ("  reasoning: ".toList ++ r.print) reasoningKey =
      some (r.print.dropWhile isWhitespace) := by
    have hline : "  reasoning: ".toList ++ r.print = ' ' :: (" reasoning: ".toList ++ r.print) :=
      rfl
    rw [hline] at hdrop ⊢
    rw [parseIndentedFieldRest, if_pos (by decide), hdrop, Cut.stripPrefix_append, Option.map_some,
      List.dropWhile_cons_of_pos (by decide)]
  rw [line_of_head u (by simp) hw, if_neg htrim, hheader, hrest, hid]
  rfl

theorem foldl_fields (hw : w.inModelsSection = true) (hid : w.currentId.isNone = false)
    (fs : List Field) : (fs.map (·.text.val)).foldl (line u.tables) w = w := by
  induction fs with
  | nil => rfl
  | cons f fs ih => rw [List.map_cons, List.foldl_cons, line_field u hw hid, ih]

@[simp]
theorem flush_inModelsSection (u : Lowercase) (w : ModelWalk) :
    (w.flush u).inModelsSection = w.inModelsSection := by
  unfold flush
  cases w.currentId <;> rfl

@[simp]
theorem flush_currentReasoning (u : Lowercase) (w : ModelWalk) :
    (w.flush u).currentReasoning = none := by
  unfold flush
  cases w.currentId <;> rfl

@[simp]
theorem flush_currentId (u : Lowercase) (w : ModelWalk) : (w.flush u).currentId = none := by
  unfold flush
  split
  · next hid => exact hid
  · rfl

/-- The fields of a block. -/
theorem foldl_block_fields (hw : w.inModelsSection = true) (hid : w.currentId.isNone = false)
    (hreasoning : w.currentReasoning = none) (m : Model) :
    (m.before.map (·.text.val) ++
      (m.reasoning.map fun r => "  reasoning: ".toList ++ r.print).toList ++
      m.after.map (·.text.val)).foldl (line u.tables) w =
    { w with currentReasoning := m.reasoning.map fun r => r.print.dropWhile isWhitespace } := by
  rw [List.foldl_append, List.foldl_append, foldl_fields u hw hid]
  cases m.reasoning with
  | none =>
    rw [Option.map_none, Option.toList_none, List.foldl_nil, foldl_fields u hw hid, Option.map_none,
      ← hreasoning]
  | some r =>
    rw [Option.map_some, Option.toList_some, List.foldl_cons, List.foldl_nil,
      line_reasoning u hw hid]
    exact foldl_fields u hw hid m.after (w :=
      { w with currentReasoning := some (r.print.dropWhile isWhitespace) })

/-- **A printed block leaves its model waiting, its fields read.** -/
theorem foldl_block (hw : w.inModelsSection = true) (m : Model) :
    m.lines.foldl (line u.tables) w =
      { w.flush u.tables with
        currentId := some m.name.val
        currentReasoning := m.reasoning.map fun r => r.print.dropWhile isWhitespace } := by
  have hflush : (w.flush u.tables).inModelsSection = true := by
    rw [flush_inModelsSection, hw]
  rw [Model.lines, List.cons_append, List.cons_append, List.foldl_cons, line_header u hw]
  exact foldl_block_fields (w := { w.flush u.tables with currentId := some m.name.val }) u hflush
    rfl (flush_currentReasoning u.tables w) m

/-- The model is put out. -/
def put (w : ModelWalk) (m : Model) : ModelWalk :=
  { w with
    models := w.models ++ [m.read]
    defaultThinkingLevel :=
      if some m.name.val = w.defaultModel then m.read.defaultThinkingLevel
      else w.defaultThinkingLevel }

/-- The model that waits is put out as it is read. -/
theorem flush_block (hw : w.inModelsSection = true) (m : Model) :
    (m.lines.foldl (line u.tables) w).flush u.tables = (w.flush u.tables).put m := by
  have hid := flush_currentId u.tables w
  have hreasoning := flush_currentReasoning u.tables w
  rw [foldl_block u hw]
  generalize w.flush u.tables = v at hid hreasoning
  have hput : ({ v with
        currentId := some m.name.val
        currentReasoning := m.reasoning.map fun r => r.print.dropWhile isWhitespace } :
        ModelWalk).flush u.tables =
      { v.put m with currentId := none, currentReasoning := none } := by
    simp only [flush, Reasoning.parseReasoning_print, put, Model.read, Option.map_map,
      Option.bind_map, Function.comp_def]
  rw [hput]
  change ({ v.put m with currentId := none, currentReasoning := none } : ModelWalk) =
    { v.put m with currentId := v.currentId, currentReasoning := v.currentReasoning }
  rw [hid, hreasoning]

/-- **The blocks are put out in order.** -/
theorem flush_blocks (hw : w.inModelsSection = true) (ms : List Model) :
    ((ms.flatMap Model.lines).foldl (line u.tables) w).flush u.tables =
      ms.foldl put (w.flush u.tables) := by
  induction ms generalizing w with
  | nil => rfl
  | cons m ms ih =>
    have hblock : (m.lines.foldl (line u.tables) w).inModelsSection = true := by
      rw [foldl_block u hw]
      exact (flush_inModelsSection u.tables w).trans hw
    rw [List.flatMap_cons, List.foldl_append, ih hblock, flush_block u hw, List.foldl_cons]

theorem foldl_put_models (ms : List Model) (w : ModelWalk) :
    (ms.foldl put w).models = w.models ++ ms.map Model.read := by
  induction ms generalizing w with
  | nil => simp
  | cons m ms ih => simp [ih, put]

theorem foldl_put_defaultModel (ms : List Model) (w : ModelWalk) :
    (ms.foldl put w).defaultModel = w.defaultModel ∧
      (ms.foldl put w).defaultSmallModel = w.defaultSmallModel := by
  induction ms generalizing w with
  | nil => exact ⟨rfl, rfl⟩
  | cons m ms ih => exact ih (w.put m)

/-- The default level is that of the last model of the default's name. -/
theorem foldl_put_defaultThinkingLevel {ms : List Model} (hms : (ms.map (·.name)).Nodup)
    (w : ModelWalk) : (ms.foldl put w).defaultThinkingLevel =
      match ms.find? fun m => some m.name.val = w.defaultModel with
      | some m => m.read.defaultThinkingLevel
      | none => w.defaultThinkingLevel := by
  induction ms generalizing w with
  | nil => rfl
  | cons m ms ih =>
    rw [List.map_cons, List.nodup_cons] at hms
    rw [List.foldl_cons, ih hms.2, List.find?_cons]
    by_cases hm : some m.name.val = w.defaultModel
    · -- no later model has the name
      have hnone : (ms.find? fun m' => some m'.name.val = (w.put m).defaultModel) = none := by
        refine List.find?_eq_none.mpr fun m' hm' h => hms.1 ?_
        have hname : m'.name = m.name := Subtype.ext (Option.some.inj
          ((of_decide_eq_true h).trans hm.symm))
        exact hname ▸ List.mem_map_of_mem hm'
      rw [hnone, decide_eq_true hm]
      exact if_pos hm
    · rw [decide_eq_false hm]
      change (match ms.find? fun m => decide (some m.name.val = w.defaultModel) with
        | some m => m.read.defaultThinkingLevel
        | none => if some m.name.val = w.defaultModel then m.read.defaultThinkingLevel
          else w.defaultThinkingLevel) = _
      rw [if_neg hm]

/-! ### The text -/

/-- An empty line says nothing. -/
theorem line_nil (u : Lowercase) (w : ModelWalk) : w.line u [] = w := by
  have hheader : (if w.inModelsSection then parseModelHeader [] else none) = none := by
    split <;> rfl
  have htrim : Cut.trim isWhitespace [] ≠ "models:".toList := by decide
  have hdefault : firstTokenAfterPrefix [] "default_model:".toList = none := rfl
  have hsmall : firstTokenAfterPrefix [] "default_small_model:".toList = none := rfl
  rw [line, hdefault, hsmall, if_neg htrim, hheader]
  cases w.currentId <;> rfl

theorem line_default (u : Lowercase) (w : ModelWalk) (d : Name) :
    w.line u ("default_model: ".toList ++ d.val) = { w with defaultModel := some d.val } := by
  have htoken : firstTokenAfterPrefix ("default_model: ".toList ++ d.val)
      "default_model:".toList = some d.val := by
    have hspace : "default_model: ".toList = "default_model:".toList ++ [' '] := by decide
    have hstrip : Cut.stripPrefix "default_model:".toList ("default_model: ".toList ++ d.val) =
        some ([' '] ++ d.val) := by
      rw [hspace, List.append_assoc, Cut.stripPrefix_append]
    have hfirst := Cut.firstToken_append (a := [' ']) (b := []) d.property.1 d.property.2
      (by decide) (by simp)
    rw [List.append_nil] at hfirst
    rw [firstTokenAfterPrefix, hstrip, Option.bind_some, hfirst]
  rw [line, htoken]

theorem line_small (u : Lowercase) (w : ModelWalk) (d : Name) :
    w.line u ("default_small_model: ".toList ++ d.val) =
      { w with defaultSmallModel := some d.val } := by
  have hdefault : firstTokenAfterPrefix ("default_small_model: ".toList ++ d.val)
      "default_model:".toList = none := by
    rw [firstTokenAfterPrefix, Cut.stripPrefix_eq_none, Option.bind_none]
    intro hp
    have := List.prefix_of_prefix_length_le hp
      (List.prefix_append "default_small_model: ".toList d.val) (by decide)
    exact absurd this (by decide)
  have htoken : firstTokenAfterPrefix ("default_small_model: ".toList ++ d.val)
      "default_small_model:".toList = some d.val := by
    have hspace : "default_small_model: ".toList = "default_small_model:".toList ++ [' '] := by
      decide
    have hstrip : Cut.stripPrefix "default_small_model:".toList
        ("default_small_model: ".toList ++ d.val) = some ([' '] ++ d.val) := by
      rw [hspace, List.append_assoc, Cut.stripPrefix_append]
    have hfirst := Cut.firstToken_append (a := [' ']) (b := []) d.property.1 d.property.2
      (by decide) (by simp)
    rw [List.append_nil] at hfirst
    rw [firstTokenAfterPrefix, hstrip, Option.bind_some, hfirst]
  rw [line, hdefault, htoken]

theorem line_models (u : Lowercase) (w : ModelWalk) :
    w.line u "models:".toList = { w with inModelsSection := true } := by
  have hdefault : firstTokenAfterPrefix "models:".toList "default_model:".toList = none := by
    decide
  have hsmall : firstTokenAfterPrefix "models:".toList "default_small_model:".toList = none := by
    decide
  rw [line, hdefault, hsmall, if_pos (by decide)]

end ModelWalk

/-! ### Clean lines -/

theorem Clean.append {a b : List Char} (ha : Clean a) (hb : Clean b) : Clean (a ++ b) := by
  refine ⟨by simp [ha.1, hb.1], ?_⟩
  cases b with
  | nil =>
    rw [List.append_nil]
    exact ha.2
  | cons c b =>
    rw [List.getLast?_append_of_ne_nil _ (List.cons_ne_nil c b)]
    exact hb.2

/-- What ends with no blank is clean. -/
theorem Clean.of_last {l : List Char} (h : '\n' ∉ l)
    (hlast : ∀ c ∈ l.getLast?, isWhitespace c = false) : Clean l :=
  ⟨h, fun hr => by cases hlast '\r' hr⟩

theorem Name.clean (n : Name) : Clean n.val :=
  Clean.of_last (fun h => by cases n.property.2 '\n' h)
    fun c hc => n.property.2 c (List.mem_of_mem_getLast? hc)

theorem clean_levels (ls : List Level) : Clean (", ".toList.intercalate (ls.map Level.print)) := by
  refine Clean.of_last (notMem_levels (by decide) ls) ?_
  induction ls with
  | nil => simp
  | cons l ls ih =>
    cases ls with
    | nil =>
      rw [List.map_singleton, List.intercalate_singleton]
      exact l.solid_print.last
    | cons l' ls =>
      have hne : ", ".toList.intercalate ((l' :: ls).map Level.print) ≠ [] := by
        cases ls with
        | nil =>
          rw [List.map_singleton, List.intercalate_singleton]
          exact l'.solid_print.ne_nil
        | cons l'' ls =>
          rw [List.map_cons, List.map_cons, List.intercalate_cons_cons]
          simp
      rw [List.map_cons, List.map_cons, List.intercalate_cons_cons, ← List.map_cons,
        List.getLast?_append_of_ne_nil _ hne]
      exact ih

theorem Reasoning.clean (r : Reasoning) : Clean r.print := by
  have hbefore : '\n' ∉ r.before.flatMap (· ++ "; ".toList) := by
    intro h
    obtain ⟨s, hs, hmem⟩ := List.mem_flatMap.mp h
    obtain h | h := List.mem_append.mp hmem
    · exact (r.before_plain s hs).1 h
    · exact absurd h (by decide)
  have hkey : Clean (r.before.flatMap (· ++ "; ".toList) ++ levelsKey) := by
    refine ⟨?_, ?_⟩
    · rw [List.mem_append, not_or]
      exact ⟨hbefore, by decide⟩
    · rw [List.getLast?_append_of_ne_nil _ (by decide)]
      decide
  exact (hkey.append (clean_levels r.levels)).append r.after.property

theorem Model.clean (m : Model) : ∀ l ∈ m.lines, Clean l := by
  have hheader : Clean ("- ".toList ++ m.name.val ++ m.header.val) :=
    (Clean.append (by decide) m.name.clean).append m.header.property
  have hfields : ∀ fs : List Field, ∀ l ∈ fs.map (·.text.val), Clean l := by
    intro fs l hl
    obtain ⟨f, -, rfl⟩ := List.mem_map.mp hl
    exact f.text.property
  have hreasoning : ∀ l ∈ (m.reasoning.map fun r => "  reasoning: ".toList ++ r.print).toList,
      Clean l := by
    intro l hl
    obtain ⟨r, -, rfl⟩ := Option.map_eq_some_iff.mp (Option.mem_toList.mp hl)
    exact Clean.append (by decide) r.clean
  simp only [lines, List.forall_mem_append, List.forall_mem_cons]
  exact ⟨⟨⟨hheader, hfields _⟩, hreasoning⟩, hfields _⟩

theorem Catalog.clean (c : Catalog) : ∀ l ∈ c.lines, Clean l := by
  have hname : ∀ (pre : List Char) (d : Option Name), Clean pre →
      ∀ l ∈ (d.map fun d => pre ++ d.val).toList, Clean l := by
    intro pre d hpre l hl
    obtain ⟨n, -, rfl⟩ := Option.map_eq_some_iff.mp (Option.mem_toList.mp hl)
    exact hpre.append n.clean
  have hmodels : ∀ l ∈ c.models.flatMap Model.lines, Clean l := by
    intro l hl
    obtain ⟨m, -, hm⟩ := List.mem_flatMap.mp hl
    exact m.clean l hm
  simp only [lines, List.forall_mem_append]
  exact ⟨⟨⟨hname _ _ (by decide), hname _ _ (by decide)⟩, by decide⟩, hmodels⟩

/-- The text is read line by line, whatever the ends of its lines are. -/
theorem foldl_step (u : Lowercase) {ls : List (List Char)} (hls : ∀ l ∈ ls, Clean l)
    (crlf : ℕ → Bool) (w : ModelWalk) :
    ((ls.mapIdx fun i l => l ++ if crlf i then ['\r', '\n'] else ['\n']).flatten.splitOn
      '\n').foldl (ModelWalk.step u) w = ls.foldl (ModelWalk.line u) w := by
  induction ls generalizing crlf w with
  | nil => exact ModelWalk.line_nil u w
  | cons l ls ih =>
    obtain ⟨⟨hl, hlast⟩, hls⟩ := List.forall_mem_cons.mp hls
    -- what is left of the line end, and that the reader strips it
    obtain ⟨cr, hend, hcr, hstrip⟩ : ∃ cr : List Char,
        (if crlf 0 then ['\r', '\n'] else ['\n']) = cr ++ ['\n'] ∧ '\n' ∉ l ++ cr ∧
          ModelWalk.stripCr (l ++ cr) = l := by
      cases crlf 0 with
      | false => exact ⟨[], rfl, by simpa using hl, by simp [ModelWalk.stripCr, hlast]⟩
      | true => exact ⟨['\r'], rfl, by simpa using hl, by simp [ModelWalk.stripCr]⟩
    rw [List.mapIdx_cons, List.flatten_cons, hend, ← List.append_assoc, List.append_assoc,
      List.singleton_append, List.splitOn_append_cons_self_of_not_mem hcr, List.foldl_cons,
      List.foldl_cons, ModelWalk.step, hstrip]
    exact ih hls (fun i => crlf (i + 1)) _

/-! ### Catalogs as they are read -/

variable (u : AsciiCase) (c : Catalog) (crlf : ℕ → Bool)

/-- The walk when the section of the models begins. -/
def Catalog.start : ModelWalk where
  defaultModel := c.default.map (·.val)
  defaultSmallModel := c.small.map (·.val)
  inModelsSection := true

theorem foldl_lines : c.lines.foldl (ModelWalk.line u.tables) {} =
    (c.models.flatMap Model.lines).foldl (ModelWalk.line u.tables) c.start := by
  unfold Catalog.lines Catalog.start
  have hdefault : ∀ w : ModelWalk,
      (c.default.map fun d => "default_model: ".toList ++ d.val).toList.foldl
        (ModelWalk.line u.tables) w =
      { w with defaultModel := (c.default.map (·.val)).or w.defaultModel } := by
    intro w
    cases c.default with
    | none => rfl
    | some d => exact w.line_default u.tables d
  have hsmall : ∀ w : ModelWalk,
      (c.small.map fun d => "default_small_model: ".toList ++ d.val).toList.foldl
        (ModelWalk.line u.tables) w =
      { w with defaultSmallModel := (c.small.map (·.val)).or w.defaultSmallModel } := by
    intro w
    cases c.small with
    | none => rfl
    | some d => exact w.line_small u.tables d
  rw [List.foldl_append, List.foldl_append, List.foldl_append, hdefault, hsmall, List.foldl_cons,
    List.foldl_cons, List.foldl_nil, ModelWalk.line_nil, ModelWalk.line_models]
  simp

/-- **What the reader makes of a printed catalog.** -/
theorem parseModels_print : parseModels u.tables (c.print crlf) = c.read := by
  have hwalk : (((c.print crlf).splitOn '\n').foldl (ModelWalk.step u.tables) {}).flush u.tables =
      c.models.foldl ModelWalk.put c.start := by
    rw [Catalog.print, foldl_step u.tables c.clean, foldl_lines, ModelWalk.flush_blocks u rfl]
    rfl
  obtain ⟨hdefault, hsmall⟩ := ModelWalk.foldl_put_defaultModel c.models c.start
  have hmodels := ModelWalk.foldl_put_models c.models c.start
  have hlevel := ModelWalk.foldl_put_defaultThinkingLevel c.nodup c.start
  have hname : (fun m : Model => decide (some m.name.val = c.start.defaultModel)) =
      fun m => decide (some m.name = c.default) := by
    funext m
    refine decide_eq_decide.mpr ⟨fun h => ?_, fun h => congrArg (Option.map Subtype.val) h⟩
    exact Option.map_injective Subtype.val_injective h
  rw [hname] at hlevel
  unfold parseModels
  simp only [hwalk, hdefault, hsmall, hmodels, hlevel]
  rw [Catalog.read]
  cases c.models.find? fun m => some m.name = c.default <;> rfl

/-! ### What is read back -/

/-- A level is read back when its mark is stripped. -/
theorem Level.read_eq_name_iff (l : Level) : l.read = l.name ↔ l.Stripped := by
  unfold read
  split
  · next h => exact iff_of_true rfl h
  · next h =>
    refine iff_of_false (fun heq => h fun m hm => ?_) h
    have hlen := congrArg List.length heq
    rw [print, Option.mem_def.mp hm] at hlen
    simp at hlen

/-- Every mark of the catalog is spelled in one of the two ways that are stripped. -/
def Catalog.Stripped (c : Catalog) : Prop :=
  ∀ m ∈ c.models, ∀ r ∈ m.reasoning, ∀ l ∈ r.levels, l.Stripped

theorem Model.read_eq_expected_iff (m : Model) :
    m.read = m.expected ↔ ∀ r ∈ m.reasoning, ∀ l ∈ r.levels, l.Stripped := by
  constructor
  · intro h r hr l hl
    have hlevels := congrArg ModelOption.thinkingLevels h
    rw [read, expected, Option.mem_def.mp hr] at hlevels
    exact l.read_eq_name_iff.mp (List.map_inj_left.mp (Option.some.inj hlevels) l hl)
  · intro h
    have hname : ∀ r ∈ m.reasoning, ∀ l ∈ r.levels, l.read = l.name := fun r hr l hl =>
      l.read_eq_name_iff.mpr (h r hr l hl)
    unfold read expected
    cases hm : m.reasoning with
    | none => rfl
    | some r =>
      have hr := hname r hm
      have hdefault : readDefault r.levels = defaultLevel r.levels := by
        unfold readDefault defaultLevel
        exact Option.map_congr fun l hl => hr l (List.mem_of_find?_eq_some hl)
      rw [Option.map_some, Option.map_some, Option.bind_some, Option.bind_some, hdefault,
        List.map_congr_left hr]

/-- **The reader reads back a printed catalog exactly when every mark is spelled in one of
the two ways it strips.** -/
theorem parseModels_print_iff :
    parseModels u.tables (c.print crlf) = c.expected ↔ c.Stripped := by
  rw [parseModels_print]
  constructor
  · intro h m hm
    exact m.read_eq_expected_iff.mp
      (List.map_inj_left.mp (congrArg ParsedModels.models h) m hm)
  · intro h
    have hread : ∀ m ∈ c.models, m.read = m.expected := fun m hm =>
      m.read_eq_expected_iff.mpr (h m hm)
    have hlevel : ((c.models.find? fun m => some m.name = c.default).bind fun m =>
        m.read.defaultThinkingLevel) =
        (c.models.find? fun m => some m.name = c.default).bind fun m =>
          m.expected.defaultThinkingLevel :=
      Option.bind_congr fun m hm => by rw [hread m (List.mem_of_find?_eq_some hm)]
    rw [Catalog.read, Catalog.expected, hlevel, List.map_congr_left hread]

/-! ### A mark that is not stripped -/

theorem toLower_ne {c d : Char} (hd : d.toNat < 97) (h : c ≠ d) : c.toLower ≠ d := by
  intro hlow
  obtain heq | ⟨hle, heq⟩ := toLower_eq_or c
  · exact h (heq.symm.trans hlow)
  · have hle' : 65 ≤ c.toNat := hle
    rw [hlow] at heq
    omega

/-- The lower case of ASCII alone. -/
def asciiCase : AsciiCase where
  tables :=
    { lower := fun c => [c.toLower]
      cased := Char.isAlpha
      caseIgnorable := fun c => c = '\''
      lower_ne_nil := asciiLowercase.lower_ne_nil
      lower_dash := asciiLowercase.lower_dash
      dash_notMem := fun _ h hmem => toLower_ne (by decide) h (List.mem_singleton.mp hmem).symm
      slash_notMem := fun _ h hmem => toLower_ne (by decide) h (List.mem_singleton.mp hmem).symm
      cased_dash := asciiLowercase.cased_dash
      caseIgnorable_dash := rfl }
  lower_ascii _ _ := rfl
  bracket_notMem _ h hmem := toLower_ne (by decide) h (List.mem_singleton.mp hmem).symm

/-- `high (Default), max` -/
def capitalLevels : List Level :=
  [ { name := "high".toList
      mark := some ⟨"(Default)".toList, by decide⟩
      solid := ⟨by decide, by decide, by decide⟩
      plain := by decide },
    { name := "max".toList
      mark := none
      solid := ⟨by decide, by decide, by decide⟩
      plain := by decide }]

/-- One model, which is the default one. -/
def capitalCatalog : Catalog where
  default := some ⟨"a/b".toList, by decide⟩
  small := none
  models := [{
    name := ⟨"a/b".toList, by decide⟩
    header := ⟨" (default)".toList, by decide⟩
    before := []
    reasoning := some
      { before := ["effort set=custom".toList]
        levels := capitalLevels
        after := ⟨"; can_disable=yes".toList, by decide⟩
        before_plain := by decide
        after_head := by decide }
    after := []
    header_head := by decide }]
  nodup := by decide

/-- **A mark with one capital letter stays in its level.** -/
theorem not_parseModels_print :
    (parseModels asciiCase.tables (capitalCatalog.print fun _ => false)).defaultThinkingLevel =
        some "high (Default)".toList ∧
      capitalCatalog.expected.defaultThinkingLevel = some "high".toList ∧
      ¬ parseModels asciiCase.tables (capitalCatalog.print fun _ => false) =
        capitalCatalog.expected := by
  decide

end ModelListing

end Pantoken
