import Mathlib.Data.List.Basic
import Mathlib.Data.List.TakeWhile

/-!
# Words of a shell

A script is read in two steps.  It is cut into commands at semicolons and these into words at
blanks, where neither counts between single quotes or after a backslash; then each word is
expanded, a tilde at its start and `$$` outside of quotes, and its quotes are removed.

## Main definitions

* `Mode`, `split` — the reader, and a text cut at a character that is not quoted.
* `readCommands`, `joinCommands` — the words of a script, and the script of some words.
* `expand` — what a word stands for.
* `quoteWith safe` — a text as one word: as it is where all of it is safe, else in quotes.
* `argv` — the words of a simple command, where a text is nothing but one.

## Main results

* `readCommands_joinCommands` — **a script of whole words is read as these words.**
* `expand_quoteWith` — **a quoted text stands for itself, and a safe one for its tilde
  expansion.**
* `argv_quoteWith` — **quoted texts are the words of a command**, but for what plain text means
  at its front.
-/

namespace Pantoken.Shell

/-- Where the reader stands: outside of quotes, between them, or after a backslash. -/
inductive Mode
  | plain | quoted | escaped
  deriving DecidableEq

def Mode.next : Mode → Char → Mode
  | .plain, c => if c = '\'' then .quoted else if c = '\\' then .escaped else .plain
  | .quoted, c => if c = '\'' then .plain else .quoted
  | .escaped, _ => .plain

/-! ### Cutting -/

/-- The pieces of a text between the separators that are not quoted. -/
def split (sep : Char) : Mode → List Char → List (List Char)
  | _, [] => [[]]
  | mode, c :: cs =>
    if mode = .plain ∧ c = sep then [] :: split sep .plain cs
    else
      match split sep (mode.next c) cs with
      -- not reached: there is always a piece
      | [] => [[c]]
      | piece :: pieces => (c :: piece) :: pieces

/-- A text that closes its quotes and has no separator outside of them. -/
def Whole (sep : Char) : Mode → List Char → Prop
  | mode, [] => mode = .plain
  | mode, c :: cs => ¬ (mode = .plain ∧ c = sep) ∧ Whole sep (mode.next c) cs

instance Whole.decidable (sep : Char) : ∀ (mode : Mode) (t : List Char),
    Decidable (Whole sep mode t)
  | mode, [] => inferInstanceAs (Decidable (mode = .plain))
  | mode, c :: cs =>
    have : Decidable (Whole sep (mode.next c) cs) := Whole.decidable sep (mode.next c) cs
    inferInstanceAs (Decidable (¬ (mode = .plain ∧ c = sep) ∧ Whole sep (mode.next c) cs))

section Split

variable {sep : Char}

theorem Whole.append : ∀ {mode : Mode} {t t' : List Char}, Whole sep mode t →
    Whole sep .plain t' → Whole sep mode (t ++ t')
  | _, [], _, h, h' => by
    cases h
    exact h'
  | _, _ :: _, _, h, h' => ⟨h.1, Whole.append h.2 h'⟩

theorem split_ne_nil : ∀ (mode : Mode) (t : List Char), split sep mode t ≠ []
  | _, [] => List.cons_ne_nil _ _
  | _, _ :: _ => by
    unfold split
    split
    · exact List.cons_ne_nil _ _
    · split <;> exact List.cons_ne_nil _ _

/-- A whole text is one piece. -/
theorem split_whole : ∀ {mode : Mode} {t : List Char}, Whole sep mode t → split sep mode t = [t]
  | _, [], _ => rfl
  | _, _ :: _, h => by rw [split, if_neg h.1, split_whole h.2]

/-- A whole text before a separator is the first piece. -/
theorem split_append : ∀ {mode : Mode} {t : List Char} (rest : List Char), Whole sep mode t →
    split sep mode (t ++ sep :: rest) = t :: split sep .plain rest
  | _, [], rest, h => by
    cases h
    rw [List.nil_append, split, if_pos ⟨rfl, rfl⟩]
  | _, _ :: _, rest, h => by rw [List.cons_append, split, if_neg h.1, split_append rest h.2]

end Split

/-- The words of a script, by its commands. -/
def readCommands (script : List Char) : List (List (List Char)) :=
  (split ';' .plain script).map fun command => (split ' ' .plain command).filter (· ≠ [])

def joinWords : List (List Char) → List Char
  | [] => []
  | [w] => w
  | w :: ws => w ++ ' ' :: joinWords ws

def joinCommands : List (List (List Char)) → List Char
  | [] => []
  | [ws] => joinWords ws
  | ws :: commands => joinWords ws ++ ';' :: ' ' :: joinCommands commands

/-- A text the reader takes for one word. -/
structure Word (w : List Char) : Prop where
  ne : w ≠ []
  command : Whole ';' .plain w
  word : Whole ' ' .plain w

instance (w : List Char) : Decidable (Word w) :=
  decidable_of_iff (w ≠ [] ∧ Whole ';' .plain w ∧ Whole ' ' .plain w)
    ⟨fun h => ⟨h.1, h.2.1, h.2.2⟩, fun h => ⟨h.ne, h.command, h.word⟩⟩

theorem whole_joinWords : ∀ {ws : List (List Char)}, (∀ w ∈ ws, Word w) →
    Whole ';' .plain (joinWords ws)
  | [], _ => rfl
  | [w], h => (h w List.mem_cons_self).command
  | w :: w' :: ws, h =>
    (h w List.mem_cons_self).command.append
      ⟨by decide, whole_joinWords fun v hv => h v (List.mem_cons_of_mem _ hv)⟩

theorem split_joinWords : ∀ {ws : List (List Char)}, (∀ w ∈ ws, Word w) →
    (split ' ' .plain (joinWords ws)).filter (· ≠ []) = ws
  | [], _ => rfl
  | [w], h => by
    have hw := h w List.mem_cons_self
    rw [joinWords, split_whole hw.word]
    simp [hw.ne]
  | w :: w' :: ws, h => by
    have hw := h w List.mem_cons_self
    have ih := split_joinWords fun v hv => h v (List.mem_cons_of_mem _ hv)
    rw [joinWords, split_append _ hw.word, List.filter_cons_of_pos (by simp [hw.ne]), ih]
    simp

/-- A blank before a script says nothing. -/
theorem readCommands_blank (script : List Char) :
    readCommands (' ' :: script) = readCommands script := by
  unfold readCommands
  rw [split, if_neg (by decide)]
  change List.map _ (match split ';' .plain script with
    | [] => [[' ']]
    | piece :: pieces => (' ' :: piece) :: pieces) = _
  obtain ⟨piece, pieces, hsplit⟩ := List.exists_cons_of_ne_nil (split_ne_nil .plain script)
  rw [hsplit, List.map_cons, List.map_cons, split, if_pos ⟨rfl, rfl⟩]
  simp

/-- **A script of whole words is read as these words.** -/
theorem readCommands_joinCommands : ∀ {commands : List (List (List Char))}, commands ≠ [] →
    (∀ ws ∈ commands, ∀ w ∈ ws, Word w) → readCommands (joinCommands commands) = commands
  | [], h, _ => absurd rfl h
  | [ws], _, h => by
    have hws := h ws List.mem_cons_self
    rw [readCommands, joinCommands, split_whole (whole_joinWords hws), List.map_singleton,
      split_joinWords hws]
  | ws :: ws' :: commands, _, h => by
    have hws := h ws List.mem_cons_self
    have ih := readCommands_joinCommands (List.cons_ne_nil ws' commands)
      fun v hv => h v (List.mem_cons_of_mem _ hv)
    rw [← readCommands_blank] at ih
    rw [readCommands, joinCommands, split_append _ (whole_joinWords hws), List.map_cons,
      split_joinWords hws, ← readCommands, ih]
    exact List.cons_ne_nil ws' commands

/-! ### Expanding -/

/-- The characters that stand for themselves wherever they are, but for a tilde at the start
of a word. -/
def isPlain (c : Char) : Bool :=
  c.isAlphanum || ['/', '.', '-', '_', '~', ':', '=', '+', ',', '%', '@'].contains c

/-- The character is part of the word. -/
def Mode.keeps : Mode → Char → Bool
  | .plain, c => c ≠ '\'' && c ≠ '\\'
  | .quoted, c => c ≠ '\''
  | .escaped, _ => true

/-- Quotes are removed, and `$$` outside of them is the pid. -/
def unquote (pid : List Char) : Mode → List Char → List Char
  | _, [] => []
  | .plain, '$' :: '$' :: cs => pid ++ unquote pid .plain cs
  | mode, c :: cs =>
    if mode.keeps c then c :: unquote pid (mode.next c) cs else unquote pid (mode.next c) cs

/-- What stands for a tilde with a login name: a home directory. -/
def tildeExpand (tilde : List Char → List Char) : List Char → List Char
  | '~' :: cs => tilde (cs.takeWhile (· ≠ '/')) ++ cs.dropWhile (· ≠ '/')
  | w => w

/-- What a word stands for. -/
def expand (tilde : List Char → List Char) (pid : List Char) : List Char → List Char
  | '~' :: cs =>
    if (cs.takeWhile (· ≠ '/')).all isPlain then
      tilde (cs.takeWhile (· ≠ '/')) ++ unquote pid .plain (cs.dropWhile (· ≠ '/'))
    else unquote pid .plain ('~' :: cs)
  | w => unquote pid .plain w

/-- A text between single quotes, where each of its own ends them for a moment. -/
def escape (w : List Char) : List Char :=
  w.flatMap fun c => if c = '\'' then ['\'', '\\', '\'', '\''] else [c]

/-- A text as one word. -/
def quoteWith (safe : Char → Bool) (w : List Char) : List Char :=
  if w ≠ [] ∧ w.all safe then w else '\'' :: escape w ++ ['\'']

section Quote

variable {safe : Char → Bool} {sep : Char} {pid : List Char}

theorem ne_of_isPlain {c d : Char} (h : isPlain c = true) (hd : isPlain d = false) : c ≠ d := by
  rintro rfl
  rw [h] at hd
  cases hd

/-- Plain text keeps the reader outside of quotes. -/
theorem next_of_isPlain {c : Char} (h : isPlain c = true) : Mode.plain.next c = .plain := by
  rw [Mode.next, if_neg (ne_of_isPlain h (by decide)), if_neg (ne_of_isPlain h (by decide))]

theorem whole_plain : ∀ {w : List Char}, w.all isPlain = true → isPlain sep = false →
    Whole sep .plain w
  | [], _, _ => rfl
  | c :: cs, h, hsep => by
    rw [List.all_cons, Bool.and_eq_true] at h
    refine ⟨fun h' => ne_of_isPlain h.1 hsep h'.2, ?_⟩
    rw [next_of_isPlain h.1]
    exact whole_plain h.2 hsep

theorem escape_quote (cs : List Char) :
    escape ('\'' :: cs) = '\'' :: '\\' :: '\'' :: '\'' :: escape cs := rfl

theorem escape_of_ne {c : Char} (hc : c ≠ '\'') (cs : List Char) :
    escape (c :: cs) = c :: escape cs := by
  rw [escape, List.flatMap_cons, if_neg hc]
  rfl

theorem whole_escape (hsep : sep ≠ '\'') (hsep' : sep ≠ '\\') : ∀ w : List Char,
    Whole sep .quoted (escape w ++ ['\''])
  | [] => ⟨by simp, rfl⟩
  | c :: cs => by
    have ih := whole_escape hsep hsep' cs
    by_cases hc : c = '\''
    · -- the quote is closed, escaped, and opened again
      subst hc
      rw [escape_quote]
      exact ⟨by simp, by simpa [Mode.next] using hsep'.symm, by simp [Mode.next],
        by simpa [Mode.next] using hsep.symm, by simpa [Mode.next] using ih⟩
    · rw [escape_of_ne hc]
      exact ⟨by simp, by simpa [Mode.next, hc] using ih⟩

theorem all_isPlain (hsafe : ∀ c, safe c = true → isPlain c = true) {w : List Char}
    (h : w.all safe = true) : w.all isPlain = true := by
  rw [List.all_eq_true] at h ⊢
  exact fun c hc => hsafe c (h c hc)

/-- **A quoted text is one word.** -/
theorem word_quoteWith (hsafe : ∀ c, safe c = true → isPlain c = true) (w : List Char) :
    Word (quoteWith safe w) := by
  unfold quoteWith
  split_ifs with h
  · have hplain := all_isPlain hsafe h.2
    exact ⟨h.1, whole_plain hplain (by decide), whole_plain hplain (by decide)⟩
  · exact ⟨by simp, ⟨by simp, whole_escape (by decide) (by decide) w⟩,
      ⟨by simp, whole_escape (by decide) (by decide) w⟩⟩

theorem unquote_plain : ∀ {w : List Char}, w.all isPlain = true → unquote pid .plain w = w
  | [], _ => rfl
  | c :: cs, h => by
    rw [List.all_cons, Bool.and_eq_true] at h
    have hquote : c ≠ '\'' := ne_of_isPlain h.1 (by decide)
    have hescape : c ≠ '\\' := ne_of_isPlain h.1 (by decide)
    have hpid : c ≠ '$' := ne_of_isPlain h.1 (by decide)
    rw [unquote.eq_3 _ _ _ _ (by simp [hpid]), next_of_isPlain h.1, unquote_plain h.2]
    simp [Mode.keeps, hquote, hescape]

theorem unquote_escape (pid rest : List Char) : ∀ w : List Char,
    unquote pid .quoted (escape w ++ '\'' :: rest) = w ++ unquote pid .plain rest
  | [] => by simp [escape, unquote, Mode.keeps, Mode.next]
  | c :: cs => by
    have ih := unquote_escape pid rest cs
    by_cases hc : c = '\''
    · subst hc
      rw [escape_quote]
      simp [unquote, Mode.keeps, Mode.next, ih]
    · rw [escape_of_ne hc]
      simp [unquote, Mode.keeps, Mode.next, hc, ih]

/-- A text between quotes stands for itself. -/
theorem expand_escape (tilde : List Char → List Char) (pid w rest : List Char) :
    expand tilde pid ('\'' :: escape w ++ '\'' :: rest) = w ++ unquote pid .plain rest := by
  have hescape := unquote_escape pid rest w
  change unquote pid .plain ('\'' :: (escape w ++ '\'' :: rest)) = _
  simpa [unquote, Mode.keeps, Mode.next] using hescape

theorem tildeExpand_of_ne (tilde : List Char → List Char) {c : Char} (hc : c ≠ '~')
    (cs : List Char) : tildeExpand tilde (c :: cs) = c :: cs := by
  rw [tildeExpand.eq_2]
  simp [hc]

/-- Plain text stands for its tilde expansion. -/
theorem expand_plain (tilde : List Char → List Char) {w : List Char} (h : w.all isPlain = true) :
    expand tilde pid w = tildeExpand tilde w := by
  cases w with
  | nil => rfl
  | cons c cs =>
    by_cases hc : c = '~'
    · subst hc
      rw [List.all_cons, Bool.and_eq_true] at h
      -- a login name of plain text is expanded, and what follows it is plain
      have hsplit := List.takeWhile_append_dropWhile (p := (· ≠ '/')) (l := cs)
      have hcs := h.2
      rw [← hsplit, List.all_append, Bool.and_eq_true] at hcs
      rw [expand, if_pos hcs.1, unquote_plain hcs.2]
      rfl
    · have hexpand : expand tilde pid (c :: cs) = unquote pid .plain (c :: cs) := by
        rw [expand.eq_2]
        simp [hc]
      rw [hexpand, tildeExpand_of_ne tilde hc, unquote_plain h]

/-- **A quoted text stands for itself, and a safe one for its tilde expansion.** -/
theorem expand_quoteWith (hsafe : ∀ c, safe c = true → isPlain c = true)
    (tilde : List Char → List Char) (w : List Char) :
    expand tilde pid (quoteWith safe w) = if w.all safe then tildeExpand tilde w else w := by
  have hquoted := expand_escape tilde pid w []
  rw [unquote, List.append_nil] at hquoted
  unfold quoteWith
  by_cases hall : w.all safe = true
  · rw [if_pos hall]
    cases w with
    | nil => rfl
    | cons c cs =>
      rw [if_pos ⟨List.cons_ne_nil c cs, hall⟩, expand_plain _ (all_isPlain hsafe hall)]
  · rw [if_neg hall, if_neg fun h => hall h.2, hquoted]

/-- A text without a tilde at its start stands for itself. -/
theorem tildeExpand_of_not_prefix (tilde : List Char → List Char) {w : List Char}
    (h : ¬ ['~'] <+: w) : tildeExpand tilde w = w := by
  cases w with
  | nil => rfl
  | cons c cs =>
    refine tildeExpand_of_ne tilde ?_ cs
    rintro rfl
    exact h ⟨cs, rfl⟩

theorem tildeExpand_append (tilde : List Char → List Char) {w : List Char} (h : '/' ∈ w)
    (v : List Char) : tildeExpand tilde (w ++ v) = tildeExpand tilde w ++ v := by
  cases w with
  | nil => cases h
  | cons c cs =>
    by_cases hc : c = '~'
    · subst hc
      have hslash : '/' ∈ cs := by simpa using h
      -- the login name ends at a slash, which is before what is appended
      have htake : (cs ++ v).takeWhile (· ≠ '/') = cs.takeWhile (· ≠ '/') := by
        rw [List.takeWhile_append, if_neg]
        intro hlength
        have hall := List.takeWhile_eq_self_iff.mp
          (List.takeWhile_prefix _ |>.eq_of_length hlength)
        exact absurd (hall '/' hslash) (by decide)
      have hdrop : (cs ++ v).dropWhile (· ≠ '/') = cs.dropWhile (· ≠ '/') ++ v := by
        refine (List.append_right_inj ((cs ++ v).takeWhile (· ≠ '/'))).mp ?_
        rw [List.takeWhile_append_dropWhile, htake, ← List.append_assoc,
          List.takeWhile_append_dropWhile]
      rw [List.cons_append, tildeExpand, tildeExpand, htake, hdrop, List.append_assoc]
    · rw [List.cons_append, tildeExpand_of_ne tilde hc, tildeExpand_of_ne tilde hc,
        List.cons_append]

theorem tildeExpand_ne_nil (tilde : List Char → List Char) {w : List Char} (h : '/' ∈ w) :
    tildeExpand tilde w ≠ [] := by
  cases w with
  | nil => cases h
  | cons c cs =>
    by_cases hc : c = '~'
    · subst hc
      have hslash : '/' ∈ cs := by simpa using h
      have hdrop : cs.dropWhile (· ≠ '/') ≠ [] := by
        rw [Ne, List.dropWhile_eq_nil_iff]
        exact fun hall => absurd (hall '/' hslash) (by decide)
      exact List.append_ne_nil_of_right_ne_nil _ hdrop
    · rw [tildeExpand_of_ne tilde hc]
      exact List.cons_ne_nil c cs

/-- **Plain text after a quoted one** is added to what that stands for. -/
theorem expand_quoteWith_append (hsafe : ∀ c, safe c = true → isPlain c = true)
    (tilde : List Char → List Char) {w v : List Char} (hw : '/' ∈ w) (hv : v.all isPlain = true) :
    expand tilde pid (quoteWith safe w ++ v) = expand tilde pid (quoteWith safe w) ++ v := by
  rw [expand_quoteWith hsafe]
  unfold quoteWith
  by_cases hall : w.all safe = true
  · have hplain := all_isPlain hsafe hall
    have happend : (w ++ v).all isPlain = true := by rw [List.all_append, hplain, hv]; rfl
    rw [if_pos hall, if_pos ⟨List.ne_nil_of_mem hw, hall⟩, expand_plain tilde happend,
      tildeExpand_append tilde hw]
  · have hquoted := expand_escape tilde pid w v
    rw [unquote_plain hv] at hquoted
    rw [if_neg hall, if_neg fun h => hall h.2]
    simpa using hquoted

end Quote

/-! ### Simple commands

A text may mean more than words: operators, expansions, patterns and comments.  What follows
reads the texts that have no such character outside of quotes, and no others. -/

/-- The character means nothing but itself, a blank or a quote. -/
def Mode.tame : Mode → Char → Bool
  | .plain, c => isPlain c || [' ', '\'', '\\'].contains c
  | .quoted, _ => true
  | .escaped, c => c ≠ '\n'

/-- The text has only such characters, and closes its quotes. -/
def tame : Mode → List Char → Bool
  | mode, [] => mode = .plain
  | mode, c :: cs => mode.tame c && tame (mode.next c) cs

def isNameChar (c : Char) : Bool := c.isAlphanum || c = '_'

/-- The word begins with a name and an equals sign: in front of a command it sets a variable. -/
def isAssignment (w : List Char) : Bool :=
  (match w with
    | c :: _ => isNameChar c && !c.isDigit
    | [] => false) && ['='].isPrefixOf (w.dropWhile isNameChar)

/-- The words that begin another command than a simple one, of those that are plain text. -/
def reservedWords : List (List Char) :=
  ["case", "do", "done", "elif", "else", "esac", "fi", "for", "if", "in", "then", "until",
    "while"].map String.toList

/-- **The words of a simple command**: those behind its assignments, expanded. -/
def argv (tilde : List Char → List Char) (text : List Char) : Option (List (List Char)) :=
  let words := (split ' ' .plain text).filter (· ≠ [])
  if tame .plain text = true ∧ ¬ words.head?.any reservedWords.contains then
    some ((words.dropWhile isAssignment).map (expand tilde []))
  else none

/-- A text as the shell takes it, once it is quoted. -/
def readAs (safe : Char → Bool) (tilde : List Char → List Char) (w : List Char) : List Char :=
  if w.all safe then tildeExpand tilde w else w

section Argv

variable {safe : Char → Bool} {w : List Char}

theorem tame_append : ∀ {mode : Mode} {t t' : List Char}, tame mode t = true →
    tame .plain t' = true → tame mode (t ++ t') = true
  | _, [], _, h, h' => by
    rw [of_decide_eq_true h]
    exact h'
  | _, _ :: _, _, h, h' => by
    rw [tame, Bool.and_eq_true] at h
    rw [List.cons_append, tame, Bool.and_eq_true]
    exact ⟨h.1, tame_append h.2 h'⟩

theorem tame_plain : ∀ {w : List Char}, w.all isPlain = true → tame .plain w = true
  | [], _ => rfl
  | c :: cs, h => by
    rw [List.all_cons, Bool.and_eq_true] at h
    rw [tame, next_of_isPlain h.1, tame_plain h.2, Mode.tame, h.1]
    rfl

theorem tame_escape : ∀ w : List Char, tame .quoted (escape w ++ ['\'']) = true
  | [] => rfl
  | c :: cs => by
    have ih := tame_escape cs
    by_cases hc : c = '\''
    · -- the quote is closed for one escaped character
      subst hc
      rw [escape_quote]
      exact ih
    · rw [escape_of_ne hc, List.cons_append, tame, Mode.next, if_neg hc, ih]
      rfl

theorem tame_quoteWith (hsafe : ∀ c, safe c = true → isPlain c = true) (w : List Char) :
    tame .plain (quoteWith safe w) = true := by
  unfold quoteWith
  split_ifs with h
  · exact tame_plain (all_isPlain hsafe h.2)
  · exact tame_escape w

theorem tame_joinWords : ∀ {ws : List (List Char)}, (∀ w ∈ ws, tame .plain w = true) →
    tame .plain (joinWords ws) = true
  | [], _ => rfl
  | [w], h => h w List.mem_cons_self
  | w :: _ :: _, h =>
    tame_append (h w List.mem_cons_self)
      (tame_joinWords fun v hv => h v (List.mem_cons_of_mem _ hv))

/-- A word with quotes does not begin with a name. -/
theorem isAssignment_quoteWith :
    isAssignment (quoteWith safe w) = (w.all safe && isAssignment w) := by
  unfold quoteWith
  by_cases hall : w.all safe = true
  · cases w with
    | nil => rfl
    | cons c cs => rw [if_pos ⟨List.cons_ne_nil c cs, hall⟩, hall, Bool.true_and]
  · rw [if_neg fun h => hall h.2, Bool.eq_false_iff.mpr hall]
    rfl

theorem quoteWith_eq_self (hw : w ≠ []) (h : w.all safe = true) : quoteWith safe w = w := by
  rw [quoteWith, if_pos ⟨hw, h⟩]

theorem alphanum_of_mem_reservedWords (h : w ∈ reservedWords) :
    w ≠ [] ∧ w.all Char.isAlphanum = true := by
  have hall : ∀ v ∈ reservedWords, v ≠ [] ∧ v.all Char.isAlphanum = true := by decide
  exact hall w h

/-- Quoting leaves a reserved word as it is, and makes none. -/
theorem quoteWith_mem_reservedWords (halnum : ∀ c, Char.isAlphanum c = true → safe c = true) :
    quoteWith safe w ∈ reservedWords ↔ w ∈ reservedWords := by
  have hself : w ∈ reservedWords → quoteWith safe w = w := by
    intro h
    obtain ⟨hne, hall⟩ := alphanum_of_mem_reservedWords h
    rw [List.all_eq_true] at hall
    exact quoteWith_eq_self hne (List.all_eq_true.mpr fun c hc => halnum c (hall c hc))
  constructor
  · intro h
    by_cases hplain : w ≠ [] ∧ w.all safe = true
    · rwa [quoteWith_eq_self hplain.1 hplain.2] at h
    · rw [quoteWith, if_neg hplain] at h
      -- what is quoted has a quote, and no reserved word does
      have hquote := List.all_eq_true.mp (alphanum_of_mem_reservedWords h).2 '\'' (by simp)
      exact absurd hquote (by decide)
  · intro h
    rwa [hself h]

/-- **Quoted texts are the words of a command**: those of safe characters are expanded, and in
front of it set a variable or begin another command. -/
theorem argv_quoteWith (hsafe : ∀ c, safe c = true → isPlain c = true)
    (halnum : ∀ c, Char.isAlphanum c = true → safe c = true) (tilde : List Char → List Char)
    (words : List (List Char)) :
    argv tilde (joinWords (words.map (quoteWith safe))) =
      if ∃ w, words.head? = some w ∧ w ∈ reservedWords then none
      else some ((words.dropWhile fun w => w.all safe && isAssignment w).map
        (readAs safe tilde)) := by
  have hwords : ∀ w ∈ words.map (quoteWith safe), Word w := by
    intro w hw
    obtain ⟨v, -, rfl⟩ := List.mem_map.mp hw
    exact word_quoteWith hsafe v
  have htame : tame .plain (joinWords (words.map (quoteWith safe))) = true := by
    refine tame_joinWords fun w hw => ?_
    obtain ⟨v, -, rfl⟩ := List.mem_map.mp hw
    exact tame_quoteWith hsafe v
  have hreserved : (words.map (quoteWith safe)).head?.any reservedWords.contains = true ↔
      ∃ w, words.head? = some w ∧ w ∈ reservedWords := by
    rw [List.head?_map, Option.any_map, Option.any_eq_true]
    simp [quoteWith_mem_reservedWords halnum]
  -- the words are read back one by one, so that each is expanded as `readAs` has it
  unfold argv
  rw [split_joinWords hwords, htame, if_congr (and_iff_right rfl) rfl rfl, ite_not]
  refine if_congr hreserved rfl (congrArg some ?_)
  rw [List.dropWhile_map, List.map_map]
  have hexpand : expand tilde [] ∘ quoteWith safe = readAs safe tilde :=
    funext fun w => expand_quoteWith hsafe tilde w
  have hassign : isAssignment ∘ quoteWith safe = fun w => w.all safe && isAssignment w :=
    funext fun _ => isAssignment_quoteWith
  rw [hexpand, hassign]

theorem tildeExpand_nil_ne (h : ['~'] <+: w) : tildeExpand (fun _ => []) w ≠ w := by
  obtain ⟨cs, rfl⟩ := h
  intro heq
  have hlength := congrArg List.length heq
  rw [show tildeExpand (fun _ => []) (['~'] ++ cs) = cs.dropWhile (· ≠ '/') from rfl] at hlength
  have hle := (List.dropWhile_suffix (l := cs) (· ≠ '/')).length_le
  simp only [List.length_append, List.length_singleton] at hlength
  omega

theorem readAs_eq_self_iff : (∀ tilde, readAs safe tilde w = w) ↔
    (w.all safe = true → ¬ ['~'] <+: w) := by
  unfold readAs
  constructor
  · intro h hall htilde
    have hnil := h fun _ => []
    rw [if_pos hall] at hnil
    exact tildeExpand_nil_ne htilde hnil
  · intro h tilde
    split_ifs with hall
    · exact tildeExpand_of_not_prefix tilde (h hall)
    · rfl

/-- **Quoted texts are read as they are** on every host exactly where none of safe characters
begins with a tilde, and the first is not taken for something else than a word. -/
theorem argv_quoteWith_eq_iff (hsafe : ∀ c, safe c = true → isPlain c = true)
    (halnum : ∀ c, Char.isAlphanum c = true → safe c = true) (words : List (List Char)) :
    (∀ tilde, argv tilde (joinWords (words.map (quoteWith safe))) = some words) ↔
      (∀ w, words.head? = some w →
        w ∉ reservedWords ∧ (w.all safe = true → isAssignment w = false)) ∧
      ∀ w ∈ words, w.all safe = true → ¬ ['~'] <+: w := by
  simp only [argv_quoteWith hsafe halnum, ← readAs_eq_self_iff]
  constructor
  · intro h
    have hkept : ∀ tilde, (words.dropWhile fun w => w.all safe && isAssignment w).map
        (readAs safe tilde) = words ∧ ¬ ∃ w, words.head? = some w ∧ w ∈ reservedWords := by
      intro tilde
      have htilde := h tilde
      split_ifs at htilde with hreserved
      exact ⟨Option.some.inj htilde, hreserved⟩
    -- as many words as were quoted are read, so none was dropped
    have hdrop : (words.dropWhile fun w => w.all safe && isAssignment w) = words := by
      refine (List.dropWhile_suffix _).eq_of_length ?_
      have hlength := congrArg List.length (hkept id).1
      rwa [List.length_map] at hlength
    refine ⟨fun w hw => ⟨fun hmem => (hkept id).2 ⟨w, hw, hmem⟩, fun hall => ?_⟩, ?_⟩
    · obtain ⟨rest, rfl⟩ := List.head?_eq_some_iff.mp hw
      by_contra hassign
      rw [List.dropWhile_cons_of_pos (by rw [hall, Bool.true_and]; simpa using hassign)] at hdrop
      have hle := (List.dropWhile_suffix (l := rest)
        fun w => w.all safe && isAssignment w).length_le
      have hlength := congrArg List.length hdrop
      rw [List.length_cons] at hlength
      omega
    · intro w hw tilde
      have hmap := (hkept tilde).1
      rw [hdrop] at hmap
      exact List.map_inj_left.mp (hmap.trans (List.map_id words).symm) w hw
  · rintro ⟨hhead, hself⟩ tilde
    rw [if_neg fun ⟨w, hw, hmem⟩ => (hhead w hw).1 hmem]
    have hdrop : (words.dropWhile fun w => w.all safe && isAssignment w) = words := by
      cases words with
      | nil => rfl
      | cons w rest =>
        refine List.dropWhile_cons_of_neg fun h => ?_
        rw [Bool.and_eq_true] at h
        rw [(hhead w rfl).2 h.1] at h
        exact Bool.false_ne_true h.2
    have hmap : words.map (readAs safe tilde) = words.map id :=
      List.map_congr_left fun w hw => hself w hw tilde
    rw [hdrop, hmap, List.map_id]

end Argv

end Pantoken.Shell
