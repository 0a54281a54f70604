import Pantoken.Lib.Shell

/-!
# Words for the remote shell

What the desktop sends over SSH is a text that a shell on the remote host reads.  A path in it
is quoted as one word; one of safe characters alone is left as it is, and the shell expands a
tilde at its start.

## Main definitions

* `posixQuote`, `shellJoin` — a word, and the words of a command.
* `RemoteShell` — the shell, and the paths it takes words for.

## Main results

* `RemoteShell.path_posixQuote` — the path that a quoted word names.
* `RemoteShell.argv_shellJoin` — **words that are joined are read one by one.**
-/

namespace Pantoken.Desktop

open Shell

/-- The characters `posix_quote` leaves alone. -/
def posixSafe (c : Char) : Bool := c.isAlphanum || ['/', '.', '-', '_', '~', ':', '='].contains c

/-- `posix_quote` -/
def posixQuote (word : List Char) : List Char := quoteWith posixSafe word

/-- `shell_join` -/
def shellJoin (words : List (List Char)) : List Char := joinWords (words.map posixQuote)

/-- The remote shell: its home directories and the directory it starts in. -/
structure RemoteShell where
  tilde : List Char → List Char
  cwd : List Char

def RemoteShell.resolve (sh : RemoteShell) (p : List Char) : List Char :=
  if ['/'] <+: p then p else sh.cwd ++ '/' :: p

/-- The path a word names. -/
def RemoteShell.path (sh : RemoteShell) (pid word : List Char) : List Char :=
  sh.resolve (expand sh.tilde pid word)

/-- A path that was quoted, after the shell read it. -/
def RemoteShell.quoted (sh : RemoteShell) (p : List Char) : List Char :=
  sh.resolve (if p.all posixSafe then tildeExpand sh.tilde p else p)

/-- What the shell takes a word for. -/
def RemoteShell.word (sh : RemoteShell) (pid word : List Char) : List Char :=
  expand sh.tilde pid word

/-- The words of a command, as the program gets them. -/
def RemoteShell.argv (sh : RemoteShell) (pid text : List Char) : List (List (List Char)) :=
  (readCommands text).map (·.map (sh.word pid))

theorem posixSafe_isPlain {c : Char} (h : posixSafe c = true) : isPlain c = true := by
  unfold posixSafe at h
  unfold isPlain
  simp only [Bool.or_eq_true, List.contains_eq_mem, decide_eq_true_eq, List.mem_cons,
    List.not_mem_nil, or_false] at h ⊢
  tauto

theorem word_posixQuote (w : List Char) : Word (posixQuote w) :=
  word_quoteWith (fun _ => posixSafe_isPlain) w

theorem RemoteShell.path_posixQuote (sh : RemoteShell) (pid p : List Char) :
    sh.path pid (posixQuote p) = sh.quoted p := by
  rw [RemoteShell.path, posixQuote, expand_quoteWith fun _ => posixSafe_isPlain]
  rfl

theorem RemoteShell.resolve_append (sh : RemoteShell) {p : List Char} (hp : p ≠ [])
    (q : List Char) : sh.resolve (p ++ q) = sh.resolve p ++ q := by
  obtain ⟨c, cs, rfl⟩ := List.exists_cons_of_ne_nil hp
  unfold RemoteShell.resolve
  simp only [List.cons_append, List.cons_prefix_cons, List.nil_prefix, and_true]
  split_ifs <;> simp

/-- A path with a dollar sign is quoted as a whole. -/
theorem RemoteShell.quoted_dollar (sh : RemoteShell) {p : List Char} (hp : '$' ∈ p) :
    sh.quoted p = sh.resolve p := by
  rw [RemoteShell.quoted, if_neg]
  rw [List.all_eq_true]
  exact fun h => absurd (h '$' hp) (by decide)

/-- **Words that are joined are read one by one.** -/
theorem RemoteShell.argv_shellJoin (sh : RemoteShell) (pid : List Char)
    {words : List (List Char)} :
    sh.argv pid (shellJoin words) = [words.map fun w => sh.word pid (posixQuote w)] := by
  have hjoin : shellJoin words = joinCommands [words.map posixQuote] := rfl
  have hwords : ∀ ws ∈ [words.map posixQuote], ∀ w ∈ ws, Word w := by
    intro ws hws w hw
    rw [List.mem_singleton.mp hws] at hw
    obtain ⟨v, -, rfl⟩ := List.mem_map.mp hw
    exact word_posixQuote v
  rw [RemoteShell.argv, hjoin, readCommands_joinCommands (List.cons_ne_nil _ _) hwords,
    List.map_singleton, List.map_map]
  rfl

end Pantoken.Desktop
