import Pantoken.Desktop.RemoteRoot

/-!
# What a remote shell makes of quoted words

Two functions quote words for a shell: one those of a command, where it leaves colons and equals
signs alone, and one a path of the bridge.  Both leave a tilde alone, so that the shell expands
the root of a profile.

## Main results

* `read_shellJoin`, `read_shellQuote` — the words the shell reads.
* `quoted_words` — **they are the words that were quoted**, but for plain text with a tilde in
  front, or in front of the command.
* `read_docker` — the words of a command for a container are read one by one.
-/

namespace Pantoken.Desktop

open Shell

theorem posixSafe_of_isAlphanum (c : Char) (h : c.isAlphanum = true) : posixSafe c = true := by
  rw [posixSafe, h, Bool.true_or]

theorem bridgeSafe_of_isAlphanum (c : Char) (h : c.isAlphanum = true) : bridgeSafe c = true := by
  rw [bridgeSafe, h, Bool.true_or]

theorem bridgeSafe_isPlain (c : Char) (h : bridgeSafe c = true) : isPlain c = true :=
  posixSafe_isPlain (bridgeSafe_posixSafe h)

/-- A command of quoted words. -/
theorem read_shellJoin (tilde : List Char → List Char) (words : List (List Char)) :
    argv tilde (shellJoin words) =
      if ∃ w, words.head? = some w ∧ w ∈ reservedWords then none
      else some ((words.dropWhile fun w => w.all posixSafe && isAssignment w).map
        (readAs posixSafe tilde)) :=
  argv_quoteWith (fun _ => posixSafe_isPlain) posixSafe_of_isAlphanum tilde words

/-- The bridge leaves no equals sign alone. -/
theorem isAssignment_bridgeSafe {w : List Char} (h : w.all bridgeSafe = true) :
    isAssignment w = false := by
  unfold isAssignment
  rw [Bool.and_eq_false_iff]
  refine .inr ?_
  cases hdrop : w.dropWhile isNameChar with
  | nil => rfl
  | cons c cs =>
    have hmem : c ∈ w := (List.dropWhile_suffix isNameChar).subset (hdrop ▸ List.mem_cons_self)
    have hc : c ≠ '=' := by
      rintro rfl
      exact absurd (List.all_eq_true.mp h '=' hmem) (by decide)
    rw [List.isPrefixOf_cons_cons, beq_false_of_ne hc.symm, Bool.false_and]

/-- A word of the bridge. -/
theorem read_shellQuote (tilde : List Char → List Char) (w : List Char) :
    argv tilde (shellQuote w) =
      if w ∈ reservedWords then none else some [readAs bridgeSafe tilde w] := by
  have hargv := argv_quoteWith bridgeSafe_isPlain bridgeSafe_of_isAlphanum tilde [w]
  have hassign : ¬ (w.all bridgeSafe && isAssignment w) = true := by
    rw [Bool.and_eq_true]
    intro h
    rw [isAssignment_bridgeSafe h.1] at h
    exact Bool.false_ne_true h.2
  have hdrop : ([w].dropWhile fun w => w.all bridgeSafe && isAssignment w) = [w] :=
    List.dropWhile_cons_of_neg hassign
  rw [hdrop] at hargv
  rw [shellQuote]
  simpa [joinWords] using hargv

/-- **The shell reads the words that were quoted**: each text with a character that is not safe,
and each safe one without a tilde in front, but that the first word can be plain text which
sets a variable or begins another command. -/
theorem quoted_words (words : List (List Char)) (w : List Char) :
    (∀ tilde, argv tilde (shellJoin words) =
      if ∃ w, words.head? = some w ∧ w ∈ reservedWords then none
      else some ((words.dropWhile fun w => w.all posixSafe && isAssignment w).map
        (readAs posixSafe tilde))) ∧
    ((∀ tilde, argv tilde (shellJoin words) = some words) ↔
      (∀ w, words.head? = some w →
        w ∉ reservedWords ∧ (w.all posixSafe = true → isAssignment w = false)) ∧
      ∀ w ∈ words, w.all posixSafe = true → ¬ ['~'] <+: w) ∧
    (∀ tilde, argv tilde (shellQuote w) =
      if w ∈ reservedWords then none else some [readAs bridgeSafe tilde w]) ∧
    ((∀ tilde, argv tilde (shellQuote w) = some [w]) ↔
      w ∉ reservedWords ∧ (w.all bridgeSafe = true → ¬ ['~'] <+: w)) := by
  refine ⟨fun tilde => read_shellJoin tilde words,
    argv_quoteWith_eq_iff (fun _ => posixSafe_isPlain) posixSafe_of_isAlphanum words,
    fun tilde => read_shellQuote tilde w, ?_⟩
  rw [show shellQuote w = joinWords ([w].map (quoteWith bridgeSafe)) from rfl,
    argv_quoteWith_eq_iff bridgeSafe_isPlain bridgeSafe_of_isAlphanum]
  -- the one word is the first, and the bridge quotes what would set a variable
  constructor
  · rintro ⟨hhead, htilde⟩
    exact ⟨(hhead w rfl).1, htilde w (List.mem_singleton_self w)⟩
  · rintro ⟨hreserved, htilde⟩
    refine ⟨?_, fun v hv => ?_⟩
    · rintro _ ⟨⟩
      exact ⟨hreserved, isAssignment_bridgeSafe⟩
    · rwa [List.mem_singleton.mp hv]

/-- A tilde is left to the shell, by both. -/
theorem not_quoted_words :
    argv (fun _ => "/root".toList) (shellJoin ["echo".toList, "~".toList]) =
        some ["echo".toList, "/root".toList] ∧
      argv (fun _ => "/root".toList) (shellQuote "~".toList) = some ["/root".toList] ∧
      argv (fun _ => "/root".toList) (shellJoin ["A=b".toList, "c".toList]) =
        some ["c".toList] := by
  decide

/-- The words of a command for a container begin with the name of a program. -/
theorem read_docker (target : ResolvedDockerTarget) (tilde : List Char → List Char)
    (rest : List (List Char)) :
    argv tilde (shellJoin (target.execPrefix ++ rest)) =
      some ((target.execPrefix ++ rest).map (readAs posixSafe tilde)) := by
  have hhead : target.execPrefix ++ rest =
      "docker".toList :: (target.execPrefix ++ rest).tail := by
    simp [ResolvedDockerTarget.execPrefix]
  rw [read_shellJoin, hhead, if_neg, List.dropWhile_cons_of_neg (by decide)]
  rintro ⟨w, ⟨⟩, hw⟩
  exact absurd hw (by decide)

theorem read_commandWords (target : ResolvedDockerTarget) (tilde : List Char → List Char)
    (script : List Char) :
    argv tilde (shellJoin (target.commandWords script)) =
      some ((target.commandWords script).map (readAs posixSafe tilde)) :=
  read_docker target tilde _

end Pantoken.Desktop
