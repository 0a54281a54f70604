import Pantoken.Lib.Utf8

/-!
# Texts that say where they end

A value is written so that a reader knows where it ends: it is read back from the front
of any text that begins with it.  Such ways of writing compose, and a part of a text so
written is never the whole text of another value, which is what makes a file that was
cut short tell itself apart from a whole one.

## Main definitions

* `Delimited` — a way to write values and to read them from the front of a text.
* `Delimited.lit`, `seq`, `imap`, `after`, `before`, `alt`, `many` — how they compose.
* `Delimited.readAll` — the value of a whole text, spaces allowed after it.
* `Utf8.encode`, `Utf8.decode` — the bytes of a text, and the text of some bytes.
* `Delimited.toBytes`, `Delimited.ofBytes` — the same as the bytes of a file.

## Main results

* `Delimited.eq_of_prefix` — **no written text continues another.**
* `Delimited.ofBytes_toBytes`, `Delimited.ofBytes_cut` — **a whole file is read back, and
  a file cut short is not read at all.**
-/

namespace Pantoken

/-- A way to write values, and to read them back from the front of a text. -/
structure Delimited (α : Type*) where
  /-- The text of a value. -/
  write : α → List Char
  /-- The value at the front of a text, and what follows it. -/
  read : List Char → Option (α × List Char)
  /-- What was written is read, whatever follows. -/
  read_append : ∀ a rest, read (write a ++ rest) = some (a, rest)

namespace Delimited

variable {α β : Type*}

/-- **No written text continues another.** -/
theorem eq_of_prefix (d : Delimited α) {a b : α} {rest rest' : List Char}
    (h : d.write a ++ rest = d.write b ++ rest') : a = b ∧ rest = rest' := by
  have hread := d.read_append a rest
  rw [h, d.read_append b rest'] at hread
  simpa [eq_comm] using hread

/-! ### Composition -/

/-- A fixed text. -/
def lit (cs : List Char) : Delimited Unit where
  write _ := cs
  read s := if cs.isPrefixOf s then some ((), s.drop cs.length) else none
  read_append a rest := by simp

/-- A fixed text is not read where another character stands. -/
theorem lit_read_of_ne {a b : Char} {cs s : List Char} (h : a ≠ b) :
    (lit (a :: cs)).read (b :: s) = none := by
  simp [lit, h]

/-- One value after another. -/
def seq (d : Delimited α) (e : Delimited β) : Delimited (α × β) where
  write p := d.write p.1 ++ e.write p.2
  read s := (d.read s).bind fun p => (e.read p.2).map fun q => ((p.1, q.1), q.2)
  read_append := by
    rintro ⟨a, b⟩ rest
    rw [List.append_assoc, d.read_append, Option.bind_some, e.read_append, Option.map_some]

/-- The same texts for other values. -/
def imap (d : Delimited α) (f : α → β) (g : β → α) (h : ∀ b, f (g b) = b) : Delimited β where
  write b := d.write (g b)
  read s := (d.read s).map fun p => (f p.1, p.2)
  read_append b rest := by rw [d.read_append, Option.map_some, h]

/-- A fixed text before a value. -/
def after (t : List Char) (d : Delimited α) : Delimited α :=
  ((lit t).seq d).imap Prod.snd (fun a => ((), a)) fun _ => rfl

/-- A fixed text after a value. -/
def before (d : Delimited α) (t : List Char) : Delimited α :=
  (d.seq (lit t)).imap Prod.fst (fun a => (a, ())) fun _ => rfl

theorem after_read_of_none {t s : List Char} (d : Delimited α) (h : (lit t).read s = none) :
    (after t d).read s = none := by
  rw [after, imap, seq]
  simp only [h, Option.bind_none, Option.map_none]

/-- A value of one of two kinds, of which the first does not read what the second writes. -/
def alt (d : Delimited α) (e : Delimited β) (h : ∀ b rest, d.read (e.write b ++ rest) = none) :
    Delimited (α ⊕ β) where
  write
    | .inl a => d.write a
    | .inr b => e.write b
  read s :=
    match d.read s with
    | some p => some (.inl p.1, p.2)
    | none => (e.read s).map fun p => (.inr p.1, p.2)
  read_append := by
    rintro (a | b) rest
    · simp [d.read_append]
    · simp [h, e.read_append]

/-- At most `n` values, up to the text that closes the list. -/
def readMany (d : Delimited α) (close : List Char) : ℕ → List Char → Option (List α × List Char)
  | 0, _ => none
  | n + 1, s =>
    match d.read s with
    | some (a, s') => (readMany d close n s').map fun p => (a :: p.1, p.2)
    | none => ((lit close).read s).map fun p => ([], p.2)

theorem readMany_append (d : Delimited α) {close : List Char}
    (h : ∀ rest, d.read (close ++ rest) = none) (as : List α) (rest : List Char) {n : ℕ}
    (hn : as.length < n) :
    readMany d close n (as.flatMap d.write ++ close ++ rest) = some (as, rest) := by
  induction as generalizing n with
  | nil =>
    obtain ⟨n, rfl⟩ := Nat.exists_eq_succ_of_ne_zero (by omega : n ≠ 0)
    have hclose := (lit close).read_append () rest
    simp only [List.flatMap_nil, List.nil_append, readMany, h]
    rw [show close ++ rest = (lit close).write () ++ rest from rfl, hclose, Option.map_some]
  | cons a as ih =>
    obtain ⟨n, rfl⟩ := Nat.exists_eq_succ_of_ne_zero (by omega : n ≠ 0)
    rw [List.length_cons] at hn
    simp only [List.flatMap_cons, List.append_assoc, readMany, d.read_append]
    rw [← List.append_assoc, ih (by omega), Option.map_some]

theorem length_le_flatMap (d : Delimited α) (hne : ∀ a, d.write a ≠ []) (as : List α) :
    as.length ≤ (as.flatMap d.write).length := by
  induction as with
  | nil => exact le_rfl
  | cons a as ih =>
    have hpos := List.length_pos_iff.mpr (hne a)
    rw [List.flatMap_cons, List.length_append, List.length_cons]
    omega

/-- Values up to a text that closes them and that none of them begins with. -/
def many (d : Delimited α) (close : List Char) (h : ∀ rest, d.read (close ++ rest) = none)
    (hne : ∀ a, d.write a ≠ []) : Delimited (List α) where
  write as := as.flatMap d.write ++ close
  read s := readMany d close (s.length + 1) s
  read_append as rest := by
    have hlen := d.length_le_flatMap hne as
    refine d.readMany_append h as rest ?_
    rw [List.length_append, List.length_append]
    omega

/-! ### Whole texts -/

/-- A space between the tokens of a text. -/
def isSpace (c : Char) : Bool := c = ' ' || c = '\n' || c = '\r' || c = '\t'

/-- The value a text is the writing of, with nothing but spaces after it. -/
def readAll (d : Delimited α) (s : List Char) : Option α :=
  match d.read s with
  | some (a, rest) => if d.write a ++ rest = s ∧ rest.all isSpace then some a else none
  | none => none

theorem readAll_append (d : Delimited α) (a : α) {rest : List Char} (h : rest.all isSpace) :
    d.readAll (d.write a ++ rest) = some a := by
  rw [readAll, d.read_append]
  exact if_pos ⟨rfl, h⟩

/-- A part of a written text is not a whole one. -/
theorem readAll_cut (d : Delimited α) {a : α} {s tail : List Char} (h : s ++ tail = d.write a)
    (htail : tail ≠ []) : d.readAll s = none := by
  cases hread : d.read s with
  | none => rw [readAll, hread]
  | some p =>
    obtain ⟨b, rest⟩ := p
    rw [readAll, hread]
    refine if_neg fun hb => htail ?_
    have hcont : d.write b ++ (rest ++ tail) = d.write a ++ [] := by
      rw [← List.append_assoc, hb.1, h, List.append_nil]
    exact (List.append_eq_nil_iff.mp (d.eq_of_prefix hcont).2).2

end Delimited

/-! ### Bytes -/

namespace Utf8

/-- The bytes of a text. -/
def encode (cs : List Char) : List UInt8 := cs.flatMap String.utf8EncodeChar

@[simp] theorem encode_nil : encode [] = [] := rfl

theorem encode_cons (c : Char) (cs : List Char) :
    encode (c :: cs) = String.utf8EncodeChar c ++ encode cs := List.flatMap_cons

theorem encode_append (cs ds : List Char) : encode (cs ++ ds) = encode cs ++ encode ds :=
  List.flatMap_append

/-- At most `n` characters of the bytes, if they are characters to the last. -/
def decodeFor : ℕ → List UInt8 → Option (List Char)
  | _, [] => some []
  | 0, _ :: _ => none
  | n + 1, b :: bs =>
    (decodeChar (b :: bs)).bind fun c =>
      (decodeFor n ((b :: bs).drop c.utf8Size)).map (c :: ·)

/-- The text whose bytes these are. -/
def decode (bs : List UInt8) : Option (List Char) :=
  (decodeFor bs.length bs).filter fun cs => encode cs = bs

theorem decodeFor_encode (cs : List Char) {n : ℕ} (hn : cs.length ≤ n) :
    decodeFor n (encode cs) = some cs := by
  induction cs generalizing n with
  | nil => cases n <;> rfl
  | cons c cs ih =>
    obtain ⟨n, rfl⟩ := Nat.exists_eq_succ_of_ne_zero (by rw [List.length_cons] at hn; omega : n ≠ 0)
    rw [List.length_cons] at hn
    have hdecode := decodeChar_encode_append c (encode cs)
    have hdrop : (String.utf8EncodeChar c ++ encode cs).drop c.utf8Size = encode cs := by
      rw [← String.length_utf8EncodeChar, List.drop_left]
    rw [encode_cons]
    cases hbs : String.utf8EncodeChar c ++ encode cs with
    | nil => exact absurd (List.append_eq_nil_iff.mp hbs).1 String.utf8EncodeChar_ne_nil
    | cons b tail =>
      rw [hbs] at hdecode hdrop
      rw [decodeFor, hdecode, Option.bind_some, hdrop, ih (by omega), Option.map_some]

theorem length_le_encode (cs : List Char) : cs.length ≤ (encode cs).length := by
  induction cs with
  | nil => exact le_rfl
  | cons c cs ih =>
    have hpos := c.utf8Size_pos
    rw [encode_cons, List.length_append, String.length_utf8EncodeChar, List.length_cons]
    omega

@[simp] theorem decode_encode (cs : List Char) : decode (encode cs) = some cs := by
  rw [decode, decodeFor_encode cs (length_le_encode cs)]
  simp

theorem encode_of_decode {bs : List UInt8} {cs : List Char} (h : decode bs = some cs) :
    encode cs = bs := by
  rw [decode, Option.filter_eq_some_iff] at h
  exact of_decide_eq_true h.2

/-- A text whose bytes begin another's begins it. -/
theorem prefix_of_encode {cs ds : List Char} {tail : List UInt8}
    (h : encode cs ++ tail = encode ds) : ∃ rest, cs ++ rest = ds ∧ encode rest = tail := by
  induction cs generalizing ds with
  | nil => exact ⟨ds, rfl, h.symm⟩
  | cons c cs ih =>
    cases ds with
    | nil =>
      rw [encode_cons, List.append_assoc] at h
      exact absurd (List.append_eq_nil_iff.mp h).1 String.utf8EncodeChar_ne_nil
    | cons d ds =>
      rw [encode_cons, encode_cons, List.append_assoc] at h
      -- both begin with a character, which is read off the bytes
      have hc := decodeChar_encode_append c (encode cs ++ tail)
      rw [h, decodeChar_encode_append] at hc
      obtain rfl := Option.some.inj hc
      obtain ⟨rest, rfl, hrest⟩ := ih (List.append_cancel_left h)
      exact ⟨rest, rfl, hrest⟩

end Utf8

namespace Delimited

variable {α : Type*}

/-- The bytes of a file that holds the value. -/
def toBytes (d : Delimited α) (a : α) : List UInt8 := Utf8.encode (d.write a)

/-- The value a file of these bytes holds. -/
def ofBytes (d : Delimited α) (bs : List UInt8) : Option α := (Utf8.decode bs).bind d.readAll

/-- **A whole file is read back**, spaces after the value or not. -/
theorem ofBytes_toBytes (d : Delimited α) (a : α) {rest : List Char} (h : rest.all isSpace) :
    d.ofBytes (d.toBytes a ++ Utf8.encode rest) = some a := by
  rw [ofBytes, toBytes, ← Utf8.encode_append, Utf8.decode_encode, Option.bind_some,
    d.readAll_append a h]

/-- **A file cut short is not read at all.** -/
theorem ofBytes_cut (d : Delimited α) {a : α} {bs tail : List UInt8}
    (h : bs ++ tail = d.toBytes a) (htail : tail ≠ []) : d.ofBytes bs = none := by
  cases hcs : Utf8.decode bs with
  | none => rw [ofBytes, hcs, Option.bind_none]
  | some cs =>
    rw [← Utf8.encode_of_decode hcs, toBytes] at h
    obtain ⟨rest, hrest, rfl⟩ := Utf8.prefix_of_encode h
    rw [ofBytes, hcs, Option.bind_some]
    refine d.readAll_cut hrest ?_
    rintro rfl
    exact htail rfl

end Delimited

end Pantoken
