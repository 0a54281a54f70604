import Mathlib.Algebra.GroupWithZero.Nat
import Mathlib.Data.List.Forall2
import Pantoken.Lib.Borders
import Pantoken.Lib.Cut
import Pantoken.Lib.Incremental
import Pantoken.Lib.Utf8

/-!
# The event stream of a daemon

The daemon client reads a stream of frames, each of them a few lines and a blank one.  It
turns every chunk of the network into text, and its line ends into LF, before it appends it
to a buffer, from which it takes the frames that are complete.

## Main definitions

* `Reader`, `Reader.push` — the buffer, the last event id and the texts that were parsed.
* `EventFrame` — a well-formed frame, with its line ends.
* `Decodes` — the texts and the id are those of the frames.

## Main results

* `shown_of_parted` — what the chunks show of the stream.
* `decodes_iff` — **the stream decodes exactly when no border of two chunks falls inside a
  character or inside the CR LF of a blank line.**
* `envelopes_of_decodes` — then the envelopes are those of the frames.
-/

namespace Pantoken
namespace Sse

open Incremental Borders Utf8 Cut

/-! ### The reader -/

/-- `text.replace("\r\n", "\n")` -/
def replaceCrLf : List Char → List Char
  | '\r' :: '\n' :: cs => '\n' :: replaceCrLf cs
  | c :: cs => c :: replaceCrLf cs
  | [] => []

/-- `buffer.find("\n\n")`: what comes before it, and what after it. -/
def findBlank : List Char → Option (List Char × List Char)
  | '\n' :: '\n' :: cs => some ([], cs)
  | c :: cs => (findBlank cs).map fun (frame, rest) => (c :: frame, rest)
  | [] => none

/-- One look for a complete frame. -/
def look (buf : List Char) : Look Char (List Char) :=
  match findBlank buf with
  | some (frame, rest) => .item frame rest
  | none => .more

def idPrefix : List Char := ['i', 'd', ':']

def dataPrefix : List Char := ['d', 'a', 't', 'a', ':']

/-- A single leading space after the colon is stripped. -/
def stripSpace (rest : List Char) : List Char := (stripPrefix [' '] rest).getD rest

/-- One line of a frame: the last event id, and the data lines. -/
def readLine (s : Option (List Char) × List (List Char)) (l : List Char) :
    Option (List Char) × List (List Char) :=
  match stripPrefix idPrefix l with
  | some rest => (some (trim isWhitespace rest), s.2)
  | none =>
    match stripPrefix dataPrefix l with
    | some rest => (s.1, s.2 ++ [stripSpace rest])
    | none => s

/-- The state of `sse_loop` over the chunks of a response; `texts` are those handed to
`serde_json::from_str::<SseEnvelope>`. -/
structure Reader where
  buffer : List Char := []
  lastEventId : Option (List Char)
  texts : List (List Char) := []

/-- A complete frame. -/
def Reader.frame (s : Reader) (frame : List Char) : Reader :=
  let read := (frame.splitOn '\n').foldl readLine (s.lastEventId, [])
  let json := trim isWhitespace (['\n'].intercalate read.2)
  { s with
    lastEventId := read.1
    texts := if read.2.isEmpty || json.isEmpty then s.texts else s.texts ++ [json] }

/-- A chunk. -/
def Reader.push (s : Reader) (bytes : List UInt8) : Reader :=
  let drained := drain look (s.buffer ++ replaceCrLf (fromUtf8Lossy bytes))
  { drained.items.foldl Reader.frame s with buffer := drained.buf }

/-! ### Frames -/

inductive SseField
  | id | data
  deriving DecidableEq, Repr

/-- A line of a frame: its field, whether a space follows the colon, its value, and how it
ends. -/
structure FieldLine where
  field : SseField
  space : Bool
  value : List Char
  crlf : Bool
  noBreak : ∀ c ∈ value, c ≠ '\r' ∧ c ≠ '\n'
  /-- An id is printable ASCII. -/
  plain : field = .id → ∀ c ∈ value, c.utf8Size = 1 ∧ isWhitespace c = false
  spaced : value.head? = some ' ' → space = true

/-- The values of the data lines. -/
def dataValues (lines : List FieldLine) : List (List Char) :=
  (lines.filter (·.field = .data)).map (·.value)

/-- An event: its lines, how its blank line ends, and that it has a text. -/
structure EventFrame where
  lines : List FieldLine
  crlf : Bool
  text_ne : trim isWhitespace (['\n'].intercalate (dataValues lines)) ≠ []

/-- The JSON text, without the white space around it. -/
def EventFrame.text (f : EventFrame) : List Char :=
  trim isWhitespace (['\n'].intercalate (dataValues f.lines))

/-- The id, where the frame has one. -/
def EventFrame.id (f : EventFrame) : Option (List Char) :=
  ((f.lines.filter (·.field = .id)).getLast?).map (·.value)

/-- What a stream is made of. -/
inductive Piece
  | char (c : Char)
  | lineEnd (crlf : Bool)
  /-- The blank line after a frame. -/
  | blank (crlf : Bool)
  deriving DecidableEq, Repr

def lineBreak (crlf : Bool) : List UInt8 := if crlf then [13, 10] else [10]

def Piece.bytes : Piece → List UInt8
  | .char c => String.utf8EncodeChar c
  | .lineEnd crlf | .blank crlf => lineBreak crlf

/-- The end of a line, but not of a frame. -/
def Piece.isLineEnd : Piece → Bool
  | .lineEnd _ => true
  | _ => false

def SseField.tag : SseField → List Char
  | .id => idPrefix
  | .data => dataPrefix

/-- A line without its end. -/
def FieldLine.chars (l : FieldLine) : List Char :=
  l.field.tag ++ ((if l.space then [' '] else []) ++ l.value)

def FieldLine.pieces (l : FieldLine) : List Piece := l.chars.map .char ++ [.lineEnd l.crlf]

def EventFrame.pieces (f : EventFrame) : List Piece :=
  f.lines.flatMap FieldLine.pieces ++ [.blank f.crlf]

/-- The stream of the frames. -/
def streamPieces (frames : List EventFrame) : List Piece := frames.flatMap EventFrame.pieces

/-- The texts, up to a CR before a LF, which is white space of JSON as the LF is, are those
of the frames, and the last event id is that of the last frame that has one. -/
structure Decodes (frames : List EventFrame) (chunks : List (List UInt8))
    (lastEventId : Option (List Char)) : Prop where
  texts : ((chunks.foldl Reader.push { lastEventId }).texts).map replaceCrLf
    = frames.map EventFrame.text
  id : (chunks.foldl Reader.push { lastEventId }).lastEventId
    = frames.foldl (fun last f => f.id.or last) lastEventId

/-! ### What the chunks show -/

theorem bytes_ne_nil (p : Piece) : p.bytes ≠ [] := by
  cases p with
  | char c => exact String.utf8EncodeChar_ne_nil
  | lineEnd crlf | blank crlf => cases crlf <;> simp [Piece.bytes, lineBreak]

/-- What is seen of a piece, whole or cut. -/
def Shows : Piece × Bool → List Char → Prop
  | (.char c, false), t => t = [c]
  | (.char c, true), t => c.utf8Size ≠ 1 ∧ ∃ n, 2 ≤ n ∧ t = List.replicate n replacement
  | (.lineEnd crlf, isCut), t | (.blank crlf, isCut), t =>
    if isCut then crlf = true ∧ t = ['\r', '\n'] else t = ['\n']

/-- What is seen of pieces. -/
def Shown : List (Piece × Bool) → List Char → Prop
  | [], t => t = []
  | m :: ms, t => ∃ out rest, t = out ++ rest ∧ Shows m out ∧ Shown ms rest

theorem shown_append {ms ns : List (Piece × Bool)} {t : List Char} :
    Shown (ms ++ ns) t ↔ ∃ a b, t = a ++ b ∧ Shown ms a ∧ Shown ns b := by
  induction ms generalizing t with
  | nil =>
    constructor
    · intro h
      exact ⟨[], t, rfl, rfl, h⟩
    · rintro ⟨_, b, rfl, rfl, h⟩
      exact h
  | cons m ms ih =>
    constructor
    · rintro ⟨out, rest, rfl, hm, hrest⟩
      obtain ⟨a, b, rfl, ha, hb⟩ := ih.mp hrest
      exact ⟨out ++ a, b, by simp, ⟨out, a, rfl, hm, ha⟩, hb⟩
    · rintro ⟨_, b, rfl, ⟨out, a, rfl, hm, ha⟩, hb⟩
      exact ⟨out, a ++ b, by simp, hm, ih.mpr ⟨a, b, rfl, ha, hb⟩⟩

theorem replaceCrLf_cons {c : Char} (hc : c ≠ '\r') (cs : List Char) :
    replaceCrLf (c :: cs) = c :: replaceCrLf cs := by
  rw [replaceCrLf.eq_def]
  split
  · next heq => exact absurd (List.cons.inj heq).1 hc
  · next heq =>
    obtain ⟨rfl, rfl⟩ := List.cons.inj heq
    rfl
  · next heq => cases heq

theorem replaceCrLf_replicate (n : ℕ) (cs : List Char) :
    replaceCrLf (List.replicate n replacement ++ cs)
      = List.replicate n replacement ++ replaceCrLf cs := by
  induction n with
  | zero => rfl
  | succ n ih =>
    rw [List.replicate_succ, List.cons_append, replaceCrLf_cons (by decide), ih]
    rfl

theorem fromUtf8Lossy_lf (bs : List UInt8) : fromUtf8Lossy (10 :: bs) = '\n' :: fromUtf8Lossy bs :=
  fromUtf8Lossy_encode_append '\n' bs

theorem fromUtf8Lossy_crlf (bs : List UInt8) :
    fromUtf8Lossy (13 :: bs) = '\r' :: fromUtf8Lossy bs :=
  fromUtf8Lossy_encode_append '\r' bs

/-- A whole line break. -/
theorem replaceCrLf_lineBreak (crlf : Bool) (bs : List UInt8) :
    replaceCrLf (fromUtf8Lossy (lineBreak crlf ++ bs))
      = '\n' :: replaceCrLf (fromUtf8Lossy bs) := by
  cases crlf with
  | false =>
    rw [lineBreak, if_neg (by decide), List.singleton_append, fromUtf8Lossy_lf,
      replaceCrLf_cons (by decide)]
  | true =>
    rw [lineBreak, if_pos rfl, List.cons_append, List.singleton_append, fromUtf8Lossy_crlf,
      fromUtf8Lossy_lf, replaceCrLf]

/-- What the buffer is given of a list of chunks. -/
def received (chunks : List (List UInt8)) : List Char :=
  chunks.flatMap fun bytes => replaceCrLf (fromUtf8Lossy bytes)

/-- Chunks of later bytes only. -/
theorem received_later {mid : List (List UInt8)} (h : ∀ b ∈ mid.flatten, Later b) :
    received mid = List.replicate mid.flatten.length replacement := by
  induction mid with
  | nil => rfl
  | cons part mid ih =>
    rw [List.flatten_cons] at h ⊢
    have hpart := fromUtf8Lossy_later_append (fun b hb => h b (List.mem_append_left _ hb)) []
    have hrun := replaceCrLf_replicate part.length []
    rw [List.append_nil, fromUtf8Lossy_nil, List.append_nil] at hpart
    rw [List.append_nil, replaceCrLf, List.append_nil] at hrun
    have hmid := ih fun b hb => h b (List.mem_append_right _ hb)
    rw [received, List.flatMap_cons, hpart, hrun, List.length_append, List.replicate_add]
    exact congrArg _ hmid

/-- A cut line break shows both of its characters. -/
theorem received_lineBreak {crlf : Bool} {head tail : List UInt8} {mid : List (List UInt8)}
    (h : lineBreak crlf = head ++ (mid.flatten ++ tail)) (hhead : head ≠ []) (htail : tail ≠ [])
    (c : List UInt8) (cs : List (List UInt8)) :
    crlf = true ∧ received (head :: (mid ++ (tail ++ c) :: cs))
      = '\r' :: '\n' :: received (c :: cs) := by
  obtain ⟨b, head, rfl⟩ := List.exists_cons_of_ne_nil hhead
  obtain ⟨b', tail, rfl⟩ := List.exists_cons_of_ne_nil htail
  have hlen := congrArg List.length h
  cases crlf with
  | false =>
    simp [lineBreak] at hlen
  | true =>
    simp only [lineBreak, if_true, List.length_cons, List.length_append, List.length_nil] at hlen
    have hhead' : head = [] := List.length_eq_zero_iff.mp (by omega)
    have htail' : tail = [] := List.length_eq_zero_iff.mp (by omega)
    have hmid : mid.flatten = [] := List.length_eq_zero_iff.mp (by omega)
    subst hhead' htail'
    rw [hmid] at h
    obtain ⟨rfl, h'⟩ := List.cons.inj h
    obtain ⟨rfl, -⟩ := List.cons.inj h'
    have hnone : received mid = List.replicate mid.flatten.length replacement :=
      received_later (by simp [hmid])
    rw [hmid] at hnone
    refine ⟨rfl, ?_⟩
    simp only [received, List.flatMap_cons, List.flatMap_append, List.singleton_append] at hnone ⊢
    rw [hnone, fromUtf8Lossy_lf, fromUtf8Lossy_crlf]
    simp [replaceCrLf_cons, replaceCrLf]

/-- **What the chunks show of the stream.**  A cut character is seen as two replacement
characters at least, and a cut line break keeps its CR. -/
theorem shown_of_parted {chunks : List (List UInt8)} {ms : List (Piece × Bool)}
    (h : Parted Piece.bytes chunks ms) (hcr : ∀ m ∈ ms, m.1 ≠ .char '\r') :
    Shown ms (received chunks) := by
  induction h with
  | nil => rfl
  | border _ ih => exact ih hcr
  | @whole c cs ms p _ ih =>
    obtain ⟨hp, hms⟩ := List.forall_mem_cons.mp hcr
    have hrest := ih hms
    cases p with
    | char d =>
      have hd : d ≠ '\r' := fun heq => hp (heq ▸ rfl)
      refine ⟨[d], received (c :: cs), ?_, rfl, hrest⟩
      rw [received, List.flatMap_cons, Piece.bytes, fromUtf8Lossy_encode_append,
        replaceCrLf_cons hd]
      rfl
    | lineEnd crlf | blank crlf =>
      refine ⟨['\n'], received (c :: cs), ?_, rfl, hrest⟩
      rw [received, List.flatMap_cons, Piece.bytes, replaceCrLf_lineBreak]
      rfl
  | @cut c cs ms p head mid tail hp hhead htail _ ih =>
    obtain ⟨hcr', hms⟩ := List.forall_mem_cons.mp hcr
    have hrest := ih hms
    cases p with
    | char d =>
      have hlater : ∀ b ∈ mid.flatten ++ tail, Later b := by
        intro b hb
        obtain ⟨b', head', rfl⟩ := List.exists_cons_of_ne_nil hhead
        apply later_of_mem_tail (c := d)
        rw [Piece.bytes] at hp
        rw [hp]
        exact List.mem_append_right head' hb
      have hne : mid.flatten ++ tail ≠ [] := fun hnil => htail (List.append_eq_nil_iff.mp hnil).2
      obtain ⟨n, hn, hseen⟩ := fromUtf8Lossy_part hp hhead hne
      have hfirst := replaceCrLf_replicate n []
      rw [List.append_nil, replaceCrLf, List.append_nil] at hfirst
      have hmid := received_later fun b hb => hlater b (List.mem_append_left _ hb)
      have hlast := fromUtf8Lossy_later_append
        (fun b hb => hlater b (List.mem_append_right _ hb)) c
      have hpos := List.length_pos_iff.mpr htail
      have hsize : d.utf8Size ≠ 1 := by
        have hlen := congrArg List.length hp
        have hpos' := List.length_pos_iff.mpr hhead
        rw [Piece.bytes, String.length_utf8EncodeChar, List.length_append,
          List.length_append] at hlen
        omega
      refine ⟨List.replicate (n + (mid.flatten.length + tail.length)) replacement,
        received (c :: cs), ?_, ⟨hsize, _, by omega, rfl⟩, hrest⟩
      rw [received, List.flatMap_cons, List.flatMap_append, List.flatMap_cons, hseen, hfirst,
        hlast, replaceCrLf_replicate]
      rw [received] at hmid
      simp only [hmid, received, List.flatMap_cons, List.replicate_add, List.append_assoc]
    | lineEnd crlf | blank crlf =>
      obtain ⟨rfl, hseen⟩ := received_lineBreak hp hhead htail c cs
      exact ⟨['\r', '\n'], received (c :: cs), hseen, ⟨rfl, rfl⟩, hrest⟩

/-! ### White space -/

/-- How many characters are not white space. -/
def ink (cs : List Char) : ℕ := cs.countP fun c => !isWhitespace c

@[simp] theorem ink_nil : ink [] = 0 := rfl

theorem ink_cons (c : Char) (cs : List Char) :
    ink (c :: cs) = ink cs + if isWhitespace c then 0 else 1 := by
  rw [ink, List.countP_cons]
  cases isWhitespace c <;> rfl

@[simp] theorem ink_append (a b : List Char) : ink (a ++ b) = ink a + ink b := List.countP_append

theorem ink_dropWhile (cs : List Char) : ink (cs.dropWhile isWhitespace) = ink cs := by
  induction cs with
  | nil => rfl
  | cons c cs ih =>
    rw [List.dropWhile_cons]
    split
    · next hc => rw [ih, ink_cons, if_pos hc, Nat.add_zero]
    · rfl

theorem ink_rdropWhile (cs : List Char) : ink (cs.rdropWhile isWhitespace) = ink cs := by
  rw [List.rdropWhile, ink, List.countP_reverse]
  exact (ink_dropWhile _).trans (List.countP_reverse ..)

theorem ink_trim (cs : List Char) : ink (trim isWhitespace cs) = ink cs := by
  rw [trim, ink_rdropWhile, ink_dropWhile]

theorem ink_eq_zero_iff {cs : List Char} : ink cs = 0 ↔ ∀ c ∈ cs, isWhitespace c = true := by
  simp [ink, List.countP_eq_zero]

theorem trim_eq_nil_iff_ink {cs : List Char} : trim isWhitespace cs = [] ↔ ink cs = 0 := by
  rw [trim_eq_nil_iff, ink_eq_zero_iff]

/-! ### CR LF -/

theorem ink_replaceCrLf (cs : List Char) : ink (replaceCrLf cs) = ink cs := by
  induction cs using replaceCrLf.induct with
  | case1 cs ih =>
    rw [replaceCrLf, ink_cons, ink_cons, ink_cons, ih]
    rfl
  | case2 c cs hne ih => rw [replaceCrLf.eq_2 _ _ hne, ink_cons, ink_cons, ih]
  | case3 => rfl

theorem replaceCrLf_dropWhile (cs : List Char) :
    replaceCrLf (cs.dropWhile isWhitespace) = (replaceCrLf cs).dropWhile isWhitespace := by
  induction cs using replaceCrLf.induct with
  | case1 cs ih => exact ih
  | case2 c cs hne ih =>
    rw [replaceCrLf.eq_2 _ _ hne, List.dropWhile_cons, List.dropWhile_cons]
    split
    · exact ih
    · exact replaceCrLf.eq_2 _ _ hne
  | case3 => rfl

/-- Something is left of what is not empty. -/
theorem replaceCrLf_ne_nil (c : Char) (cs : List Char) : replaceCrLf (c :: cs) ≠ [] := by
  rw [replaceCrLf.eq_def]
  split
  · exact List.cons_ne_nil _ _
  · exact List.cons_ne_nil _ _
  · next heq => cases heq

theorem replaceCrLf_eq_nil_iff {cs : List Char} : replaceCrLf cs = [] ↔ cs = [] := by
  cases cs with
  | nil => exact iff_of_true rfl rfl
  | cons c cs => exact iff_of_false (replaceCrLf_ne_nil c cs) (List.cons_ne_nil c cs)

theorem replaceCrLf_rdropWhile (cs : List Char) :
    replaceCrLf (cs.rdropWhile isWhitespace) = (replaceCrLf cs).rdropWhile isWhitespace := by
  induction cs using replaceCrLf.induct with
  | case1 cs ih =>
    rw [replaceCrLf, rdropWhile_cons, rdropWhile_cons, rdropWhile_cons, ← ih]
    simp only [replaceCrLf_eq_nil_iff]
    split
    · rfl
    · rw [if_neg (List.cons_ne_nil _ _), replaceCrLf]
  | case2 c cs hne ih =>
    rw [replaceCrLf.eq_2 _ _ hne, rdropWhile_cons, rdropWhile_cons, ← ih]
    simp only [replaceCrLf_eq_nil_iff]
    split
    · split
      · rfl
      · exact replaceCrLf.eq_2 c [] (by simp)
    · refine replaceCrLf.eq_2 _ _ fun cs' hc heq => ?_
      -- what is left begins as before
      obtain ⟨cs'', hcs''⟩ := List.rdropWhile_prefix isWhitespace cs
      rw [heq, List.cons_append] at hcs''
      exact hne _ hc hcs''.symm
  | case3 => rfl

theorem replaceCrLf_trim (cs : List Char) :
    replaceCrLf (trim isWhitespace cs) = trim isWhitespace (replaceCrLf cs) := by
  rw [trim, replaceCrLf_rdropWhile, replaceCrLf_dropWhile, trim]

/-- A text without a CR, up to the end of its line. -/
theorem replaceCrLf_append_lf {cs cr : List Char} (hcs : ∀ c ∈ cs, c ≠ '\r')
    (hcr : cr = [] ∨ cr = ['\r']) (rest : List Char) :
    replaceCrLf (cs ++ (cr ++ '\n' :: rest)) = cs ++ '\n' :: replaceCrLf rest := by
  induction cs with
  | nil =>
    rcases hcr with rfl | rfl
    · exact replaceCrLf_cons (by decide) rest
    · rfl
  | cons c cs ih =>
    obtain ⟨hc, hcs'⟩ := List.forall_mem_cons.mp hcs
    rw [List.cons_append, replaceCrLf_cons hc, ih hcs']
    rfl

theorem replaceCrLf_eq_self {cs cr : List Char} (hcs : ∀ c ∈ cs, c ≠ '\r')
    (hcr : cr = [] ∨ cr = ['\r']) : replaceCrLf (cs ++ cr) = cs ++ cr := by
  induction cs with
  | nil => rcases hcr with rfl | rfl <;> rfl
  | cons c cs ih =>
    obtain ⟨hc, hcs'⟩ := List.forall_mem_cons.mp hcs
    rw [List.cons_append, replaceCrLf_cons hc, ih hcs']

/-! ### Complete frames -/

theorem findBlank_cons {c : Char} (hc : c ≠ '\n') (cs : List Char) :
    findBlank (c :: cs) = (findBlank cs).map fun (frame, rest) => (c :: frame, rest) := by
  rw [findBlank.eq_def]
  split
  · next heq => exact absurd (List.cons.inj heq).1 hc
  · next heq =>
    obtain ⟨rfl, rfl⟩ := List.cons.inj heq
    rfl
  · next heq => cases heq

theorem findBlank_append {buf frame rest : List Char} (h : findBlank buf = some (frame, rest))
    (bs : List Char) : findBlank (buf ++ bs) = some (frame, rest ++ bs) := by
  induction buf using findBlank.induct generalizing frame with
  | case1 cs =>
    obtain ⟨rfl, rfl⟩ := Prod.mk.inj (Option.some.inj h)
    rfl
  | case2 c cs hne ih =>
    rw [findBlank.eq_2 _ _ hne] at h
    obtain ⟨⟨frame', rest'⟩, hcs, heq⟩ := Option.map_eq_some_iff.mp h
    obtain ⟨rfl, rfl⟩ := Prod.mk.inj heq
    have hne' : ∀ cs', c = '\n' → cs ++ bs = '\n' :: cs' → False := by
      rintro cs' hc hcs'
      cases cs with
      | nil => cases hcs
      | cons d ds =>
        obtain ⟨rfl, -⟩ := List.cons.inj hcs'
        exact hne ds hc rfl
    rw [List.cons_append, findBlank.eq_2 _ _ hne', ih hcs]
    rfl
  | case3 => cases h

theorem length_of_findBlank {buf frame rest : List Char} (h : findBlank buf = some (frame, rest)) :
    rest.length < buf.length := by
  induction buf using findBlank.induct generalizing frame with
  | case1 cs =>
    obtain ⟨rfl, rfl⟩ := Prod.mk.inj (Option.some.inj h)
    rw [List.length_cons, List.length_cons]
    omega
  | case2 c cs hne ih =>
    rw [findBlank.eq_2 _ _ hne] at h
    obtain ⟨⟨frame', rest'⟩, hcs, heq⟩ := Option.map_eq_some_iff.mp h
    obtain ⟨rfl, rfl⟩ := Prod.mk.inj heq
    have hlt := ih hcs
    rw [List.length_cons]
    omega
  | case3 => cases h

theorem look_item_iff {buf frame rest : List Char} :
    look buf = .item frame rest ↔ findBlank buf = some (frame, rest) := by
  unfold look
  cases findBlank buf with
  | none => simp
  | some found => simp [Prod.ext_iff]

theorem look_ne_flush {buf frame : List Char} : look buf ≠ .flush frame := by
  unfold look
  split <;> simp

theorem stable_look : Stable look where
  nil := rfl
  shorter := fun h => length_of_findBlank (look_item_iff.mp h)
  item := fun h bs => look_item_iff.mpr (findBlank_append (look_item_iff.mp h) bs)
  flush := fun h => absurd h look_ne_flush

theorem flushed_drain (buf : List Char) : (drain look buf).flushed = false := by
  induction buf using stable_look.induction with
  | more buf hl => rw [drain_more hl]
  | item buf c rest hl ih => rw [drain_item stable_look hl]; exact ih
  | flush buf c hl => exact absurd hl look_ne_flush

/-- A line that can stand in a frame. -/
def IsLine (l : List Char) : Prop := l ≠ [] ∧ '\n' ∉ l

/-- Lines with their ends. -/
def ended (ls : List (List Char)) : List Char := ls.flatMap (· ++ ['\n'])

theorem findBlank_line_append {l : List Char} (hl : '\n' ∉ l) (cs : List Char) :
    findBlank (l ++ cs) = (findBlank cs).map fun (frame, rest) => (l ++ frame, rest) := by
  induction l with
  | nil => simp
  | cons c l ih =>
    rw [List.mem_cons, not_or] at hl
    rw [List.cons_append, findBlank_cons (Ne.symm hl.1), ih hl.2, Option.map_map]
    rfl

/-- A line end that another line follows. -/
theorem findBlank_lf_line {l : List Char} (hl : IsLine l) (cs : List Char) :
    findBlank ('\n' :: (l ++ cs))
      = (findBlank (l ++ cs)).map fun (frame, rest) => ('\n' :: frame, rest) := by
  obtain ⟨c, l, rfl⟩ := List.exists_cons_of_ne_nil hl.1
  refine findBlank.eq_2 _ _ ?_
  rintro cs' - heq
  exact hl.2 ((List.cons.inj heq).1 ▸ List.mem_cons_self)

theorem ended_cons (l : List Char) (ls : List (List Char)) :
    ended (l :: ls) = l ++ '\n' :: ended ls := by
  rw [ended, List.flatMap_cons, List.append_assoc]
  rfl

/-- Lines alone are no complete frame. -/
theorem findBlank_ended {ls : List (List Char)} (h : ∀ l ∈ ls, IsLine l) :
    findBlank (ended ls) = none := by
  induction ls with
  | nil => rfl
  | cons l ls ih =>
    obtain ⟨hl, hls⟩ := List.forall_mem_cons.mp h
    rw [ended_cons, findBlank_line_append hl.2, Option.map_eq_none_iff]
    cases ls with
    | nil => rfl
    | cons l' ls =>
      have hl' := hls l' List.mem_cons_self
      have hnone := ih hls
      rw [ended_cons] at hnone ⊢
      rw [findBlank_lf_line hl', hnone]
      rfl

/-- A blank line after them completes the frame. -/
theorem findBlank_ended_lf {ls : List (List Char)} (hne : ls ≠ []) (h : ∀ l ∈ ls, IsLine l)
    (rest : List Char) :
    findBlank (ended ls ++ '\n' :: rest) = some (['\n'].intercalate ls, rest) := by
  induction ls with
  | nil => exact absurd rfl hne
  | cons l ls ih =>
    obtain ⟨hl, hls⟩ := List.forall_mem_cons.mp h
    rw [ended_cons, List.append_assoc, List.cons_append, findBlank_line_append hl.2]
    cases ls with
    | nil =>
      show (some (([] : List Char), rest)).map _ = _
      simp
    | cons l' ls =>
      have hl' := hls l' List.mem_cons_self
      have hsome := ih (by simp) hls
      rw [ended_cons, List.append_assoc] at hsome ⊢
      rw [findBlank_lf_line hl', hsome]
      simp [List.intercalate_cons_cons]

/-- The lines of each complete frame; lines without a blank line after them go with the next
ones. -/
def groups : List (List Char) → List (List (List Char) × Bool) → List (List (List Char))
  | _, [] => []
  | acc, (ls, true) :: gs => (acc ++ ls) :: groups [] gs
  | acc, (ls, false) :: gs => groups (acc ++ ls) gs

/-- The text of such lines. -/
def groupText (g : List (List Char) × Bool) : List Char :=
  ended g.1 ++ if g.2 then ['\n'] else []

theorem ended_append (ls ms : List (List Char)) : ended (ls ++ ms) = ended ls ++ ended ms :=
  List.flatMap_append

/-- **What is taken off the buffer**: the groups. -/
theorem items_drain {gs : List (List (List Char) × Bool)} {acc : List (List Char)}
    (hacc : ∀ l ∈ acc, IsLine l) (hgs : ∀ g ∈ gs, g.1 ≠ [] ∧ ∀ l ∈ g.1, IsLine l) :
    (drain look (ended acc ++ gs.flatMap groupText)).items
      = (groups acc gs).map fun ls => ['\n'].intercalate ls := by
  induction gs generalizing acc with
  | nil =>
    have hmore : look (ended acc ++ []) = .more := by
      rw [List.append_nil, look, findBlank_ended hacc]
    rw [List.flatMap_nil, drain_more hmore]
    rfl
  | cons g gs ih =>
    obtain ⟨⟨hne, hg⟩, hgs'⟩ := List.forall_mem_cons.mp hgs
    obtain ⟨ls, closed⟩ := g
    have hall : ∀ l ∈ acc ++ ls, IsLine l := by
      intro l hl
      rcases List.mem_append.mp hl with hl | hl
      · exact hacc l hl
      · exact hg l hl
    cases closed with
    | true =>
      have htext : ended acc ++ ((ls, true) :: gs).flatMap groupText
          = ended (acc ++ ls) ++ '\n' :: gs.flatMap groupText := by
        simp [groupText, ended_append]
      have hfind := findBlank_ended_lf (by simp [hne]) hall (gs.flatMap groupText)
      rw [htext, drain_item stable_look (look_item_iff.mpr hfind), Drained.cons_items]
      have hrest := @ih [] (by simp) hgs'
      exact congrArg _ hrest
    | false =>
      have htext : ended acc ++ ((ls, false) :: gs).flatMap groupText
          = ended (acc ++ ls) ++ gs.flatMap groupText := by
        simp [groupText, ended_append]
      rw [htext, ih hall hgs']
      rfl

/-! ### Runs of the reader -/

theorem frame_buffer (s : Reader) (buffer frame : List Char) :
    { s with buffer }.frame frame = { s.frame frame with buffer } := rfl

theorem foldl_frame_buffer (frames : List (List Char)) (s : Reader) (buffer : List Char) :
    frames.foldl Reader.frame { s with buffer } = { frames.foldl Reader.frame s with buffer } := by
  induction frames generalizing s with
  | nil => rfl
  | cons frame frames ih => rw [List.foldl_cons, List.foldl_cons, frame_buffer, ih]

/-- The frames of the chunks, one after the other. -/
theorem foldl_push (chunks : List (List UInt8)) (s : Reader) :
    chunks.foldl Reader.push s
      = { (results look s.buffer (chunks.map fun bytes =>
            replaceCrLf (fromUtf8Lossy bytes))).flatten.foldl Reader.frame s with
          buffer := leftover look s.buffer (chunks.map fun bytes =>
            replaceCrLf (fromUtf8Lossy bytes)) } := by
  induction chunks generalizing s with
  | nil => rfl
  | cons bytes chunks ih =>
    rw [List.foldl_cons, ih, List.map_cons, results_cons, leftover_cons, List.flatten_cons,
      List.foldl_append, Reader.push]
    simp only [foldl_frame_buffer]

/-- **The reader sees the frames of all that it received.** -/
theorem foldl_push_eq (chunks : List (List UInt8)) (lastEventId : Option (List Char)) :
    (chunks.foldl Reader.push { lastEventId }).texts
        = ((drain look (received chunks)).items.foldl Reader.frame { lastEventId }).texts ∧
      (chunks.foldl Reader.push { lastEventId }).lastEventId
        = ((drain look (received chunks)).items.foldl Reader.frame
            { lastEventId }).lastEventId := by
  obtain ⟨hitems, -⟩ := results_eq_drain stable_look (rfl : look [] = .more)
    (chunks.map fun bytes => replaceCrLf (fromUtf8Lossy bytes)) (flushed_drain _)
  rw [List.nil_append, ← List.flatMap_def] at hitems
  rw [foldl_push]
  simp only [hitems]
  exact ⟨rfl, rfl⟩

/-! ### Lines as they are seen -/

/-- What the lines say of the id. -/
def idOf (l : List Char) : Option (List Char) := (stripPrefix idPrefix l).map (trim isWhitespace)

/-- What the lines hold of data. -/
def dataOf (l : List Char) : Option (List Char) :=
  if idOf l = none then (stripPrefix dataPrefix l).map stripSpace else none

/-- All lines of a frame. -/
theorem foldl_readLine (ls : List (List Char)) (s : Option (List Char) × List (List Char)) :
    ls.foldl readLine s = ((ls.filterMap idOf).getLast?.or s.1, s.2 ++ ls.filterMap dataOf) := by
  induction ls generalizing s with
  | nil => simp
  | cons l ls ih =>
    rw [List.foldl_cons, ih, readLine]
    cases hid : stripPrefix idPrefix l with
    | some rest =>
      have hidOf : idOf l = some (trim isWhitespace rest) := by rw [idOf, hid]; rfl
      have hdata : dataOf l = none := by rw [dataOf, hidOf]; rfl
      rw [List.filterMap_cons_some hidOf, List.filterMap_cons_none hdata, List.getLast?_cons]
      cases (ls.filterMap idOf).getLast? <;> rfl
    | none =>
      have hidOf : idOf l = none := by rw [idOf, hid]; rfl
      rw [List.filterMap_cons_none hidOf]
      cases hdata : stripPrefix dataPrefix l with
      | some rest =>
        have hdataOf : dataOf l = some (stripSpace rest) := by
          rw [dataOf, if_pos hidOf, hdata]
          rfl
        rw [List.filterMap_cons_some hdataOf]
        simp
      | none =>
        have hdataOf : dataOf l = none := by
          rw [dataOf, if_pos hidOf, hdata]
          rfl
        rw [List.filterMap_cons_none hdataOf]

/-- The JSON text of the lines of a frame. -/
def seenText (ls : List (List Char)) : List Char :=
  trim isWhitespace (['\n'].intercalate (ls.filterMap dataOf))

theorem frame_lines {ls : List (List Char)} (hne : ls ≠ []) (h : ∀ l ∈ ls, IsLine l)
    (s : Reader) : s.frame (['\n'].intercalate ls) =
      { s with
        lastEventId := (ls.filterMap idOf).getLast?.or s.lastEventId
        texts := s.texts ++ if seenText ls = [] then [] else [seenText ls] } := by
  have hsplit : (['\n'].intercalate ls).splitOn '\n' = ls :=
    List.splitOn_intercalate '\n' (fun l hl => (h l hl).2) hne
  rw [Reader.frame, hsplit, foldl_readLine, List.nil_append]
  by_cases hdata : ls.filterMap dataOf = []
  · have hnone : seenText ls = [] := by rw [seenText, hdata]; rfl
    rw [hnone, hdata]
    simp
  · have hdata' : (ls.filterMap dataOf).isEmpty = false := by simpa using hdata
    simp only [hdata', Bool.false_or, List.isEmpty_iff]
    by_cases htext : seenText ls = []
    · have htext' : trim isWhitespace (['\n'].intercalate (ls.filterMap dataOf)) = [] := htext
      rw [if_pos htext', if_pos htext, List.append_nil]
    · have htext' : ¬ trim isWhitespace (['\n'].intercalate (ls.filterMap dataOf)) = [] := htext
      rw [if_neg htext', if_neg htext]
      rfl

/-- All frames. -/
theorem foldl_frame_lines {lss : List (List (List Char))}
    (h : ∀ ls ∈ lss, ls ≠ [] ∧ ∀ l ∈ ls, IsLine l) (s : Reader) :
    ((lss.map fun ls => ['\n'].intercalate ls).foldl Reader.frame s).texts
        = s.texts ++ (lss.map seenText).filter (· ≠ []) ∧
      ((lss.map fun ls => ['\n'].intercalate ls).foldl Reader.frame s).lastEventId
        = lss.foldl (fun last ls => (ls.filterMap idOf).getLast?.or last) s.lastEventId := by
  induction lss generalizing s with
  | nil => simp
  | cons ls lss ih =>
    obtain ⟨⟨hne, hls⟩, hlss⟩ := List.forall_mem_cons.mp h
    obtain ⟨htexts, hid⟩ := ih hlss (s.frame (['\n'].intercalate ls))
    rw [List.map_cons, List.foldl_cons, htexts, hid, List.foldl_cons, frame_lines hne hls]
    refine ⟨?_, rfl⟩
    rw [List.map_cons, List.filter_cons]
    by_cases htext : seenText ls = [] <;> simp [htext]

/-! ### Values as they are seen -/

/-- What is seen of a text without a line break, of which some character may be cut. -/
structure Seen (cs : List Char) (isCut : Bool) (v : List Char) : Prop where
  whole : isCut = false → v = cs
  more : isCut = true → ink cs < ink v
  noBreak : ∀ c ∈ v, c ≠ '\r' ∧ c ≠ '\n'
  head : v.head? = some ' ' → cs.head? = some ' '
  plain : (∀ c ∈ cs, c.utf8Size = 1) → isCut = false

theorem ink_replacement (n : ℕ) : ink (List.replicate n replacement) = n := by
  rw [ink, List.countP_replicate, if_pos (by decide)]

theorem Seen.ink_le {cs v : List Char} {isCut : Bool} (h : Seen cs isCut v) : ink cs ≤ ink v := by
  cases isCut with
  | false => rw [h.whole rfl]
  | true => exact (h.more rfl).le

/-- **A cut character shows more than it is.** -/
theorem seen_of_shown {ms : List (Piece × Bool)} {cs t : List Char}
    (hms : ms.map Prod.fst = cs.map .char) (hcs : ∀ c ∈ cs, c ≠ '\r' ∧ c ≠ '\n')
    (h : Shown ms t) : Seen cs (ms.any (·.2)) t := by
  induction ms generalizing cs t with
  | nil =>
    obtain rfl := List.map_eq_nil_iff.mp hms.symm
    obtain rfl : t = [] := h
    exact {
      whole := fun _ => rfl
      more := fun hcut => by cases hcut
      noBreak := by simp
      head := id
      plain := fun _ => rfl }
  | cons m ms ih =>
    cases cs with
    | nil => cases hms
    | cons c cs =>
      obtain ⟨hm, hms'⟩ := List.cons.inj hms
      obtain ⟨hc, hcs'⟩ := List.forall_mem_cons.mp hcs
      obtain ⟨out, rest, rfl, hout, hrest⟩ := h
      have hseen := ih hms' hcs' hrest
      obtain ⟨p, isCut⟩ := m
      subst hm
      cases isCut with
      | false =>
        obtain rfl : out = [c] := hout
        rw [List.any_cons, Bool.false_or]
        exact {
          whole := fun hcut => by rw [hseen.whole hcut]; rfl
          more := fun hcut => by
            have hlt := hseen.more hcut
            rw [List.singleton_append, ink_cons, ink_cons]
            omega
          noBreak := List.forall_mem_cons.mpr ⟨hc, hseen.noBreak⟩
          head := id
          plain := fun hplain => hseen.plain (List.forall_mem_cons.mp hplain).2 }
      | true =>
        obtain ⟨hsize, n, hn, rfl⟩ := hout
        have hle := hseen.ink_le
        rw [List.any_cons, Bool.true_or]
        exact {
          whole := fun hcut => by cases hcut
          more := fun _ => by
            rw [ink_append, ink_replacement, ink_cons]
            split <;> omega
          noBreak := by
            intro d hd
            rcases List.mem_append.mp hd with hd | hd
            · rw [List.eq_of_mem_replicate hd]
              decide
            · exact hseen.noBreak d hd
          head := by
            obtain ⟨k, rfl⟩ := Nat.exists_eq_add_of_le hn
            rw [Nat.add_comm, List.replicate_succ]
            intro heq
            exact absurd (Option.some.inj heq) (by decide)
          plain := fun hplain => absurd (hplain c List.mem_cons_self) hsize }

/-! ### Frames as they are seen -/

/-- What is seen of a line: its end may keep its CR. -/
def SeenLine (l : FieldLine) (isCut : Bool) (t : List Char) : Prop :=
  ∃ v cr, t = l.field.tag ++ ((if l.space then [' '] else []) ++ (v ++ cr)) ∧
    (cr = [] ∨ cr = ['\r']) ∧ Seen l.value isCut v

/-- What is seen of the lines of a frame. -/
def SeenLines : List FieldLine → Bool → List (List Char) → Prop
  | [], isCut, ts => isCut = false ∧ ts = []
  | l :: ls, isCut, ts => ∃ b c t rest, isCut = (b || c) ∧ ts = t :: rest ∧ SeenLine l b t ∧
      SeenLines ls c rest

section Lines

variable {l : FieldLine} {isCut : Bool} {t : List Char}

theorem SeenLine.isLine (h : SeenLine l isCut t) : IsLine t := by
  obtain ⟨v, cr, rfl, hcr, hv⟩ := h
  have htag : l.field.tag ≠ [] ∧ '\n' ∉ l.field.tag := by
    cases l.field <;> decide
  constructor
  · simp [htag.1]
  · rw [List.mem_append, List.mem_append, List.mem_append]
    rintro (hmem | hmem | hmem | hmem)
    · exact htag.2 hmem
    · split at hmem <;> simp at hmem
    · exact (hv.noBreak _ hmem).2 rfl
    · rcases hcr with rfl | rfl <;> simp at hmem

theorem ink_cr {cr : List Char} (hcr : cr = [] ∨ cr = ['\r']) : ink cr = 0 := by
  rcases hcr with rfl | rfl <;> rfl

/-- An id is seen as it is. -/
theorem SeenLine.idOf (h : SeenLine l isCut t) :
    idOf t = if l.field = .id then some l.value else none := by
  obtain ⟨v, cr, rfl, hcr, hv⟩ := h
  cases hfield : l.field with
  | id =>
    have hv' : v = l.value := hv.whole (hv.plain fun c hc => (l.plain hfield c hc).1)
    have hstrip : stripPrefix idPrefix (SseField.id.tag ++
        ((if l.space then [' '] else []) ++ (v ++ cr)))
          = some ((if l.space then [' '] else []) ++ (v ++ cr)) := stripPrefix_append idPrefix _
    have hws : ∀ c ∈ v, isWhitespace c = false := by
      rw [hv']
      exact fun c hc => (l.plain hfield c hc).2
    have htrim : trim isWhitespace ((if l.space then [' '] else []) ++ (v ++ cr)) = v := by
      have hspace : trim isWhitespace ((if l.space then [' '] else []) ++ (v ++ cr)) =
          trim isWhitespace (v ++ cr) := by
        cases l.space <;> rfl
      rw [hspace, trim_append_blanks (ink_eq_zero_iff.mp (ink_cr hcr)), trim_eq_self hws]
    rw [Sse.idOf, hstrip, if_pos rfl, Option.map_some, htrim, hv']
  | data =>
    rw [Sse.idOf, stripPrefix, if_neg (by simp [SseField.tag, idPrefix, dataPrefix])]
    rfl

theorem stripSpace_cons (cs : List Char) : stripSpace (' ' :: cs) = cs := by
  rw [stripSpace, stripPrefix, if_pos (by simp)]
  rfl

theorem stripSpace_eq_self {cs : List Char} (h : cs.head? ≠ some ' ') : stripSpace cs = cs := by
  rw [stripSpace, stripPrefix, if_neg ?_]
  · rfl
  · rintro ⟨rest, rfl⟩
    exact h rfl

/-- Data is seen as it is, but for what is cut. -/
theorem SeenLine.dataOf (h : SeenLine l isCut t) : ∃ v cr, (cr = [] ∨ cr = ['\r']) ∧
    Seen l.value isCut v ∧
      dataOf t = if l.field = .data then some (v ++ cr) else none := by
  have hid := h.idOf
  obtain ⟨v, cr, rfl, hcr, hv⟩ := h
  refine ⟨v, cr, hcr, hv, ?_⟩
  cases hfield : l.field with
  | id =>
    rw [hfield] at hid
    rw [Sse.dataOf, hid]
    rfl
  | data =>
    rw [hfield] at hid
    have hstrip : stripPrefix dataPrefix (SseField.data.tag ++
        ((if l.space then [' '] else []) ++ (v ++ cr)))
          = some ((if l.space then [' '] else []) ++ (v ++ cr)) := stripPrefix_append dataPrefix _
    rw [Sse.dataOf, hid, hstrip]
    simp only [reduceCtorEq, if_false, if_true, Option.map_some]
    cases hspace : l.space with
    | true => exact congrArg some (stripSpace_cons (v ++ cr))
    | false =>
      refine congrArg some (stripSpace_eq_self fun hhead => ?_)
      cases v with
      | nil =>
        rcases hcr with rfl | rfl
        · cases hhead
        · exact absurd (Option.some.inj hhead) (by decide)
      | cons c v =>
        -- the value would begin with a space
        have := l.spaced (hv.head hhead)
        rw [hspace] at this
        cases this

end Lines

theorem SeenLines.isLine {lines : List FieldLine} {isCut : Bool} {ts : List (List Char)}
    (h : SeenLines lines isCut ts) : ∀ t ∈ ts, IsLine t := by
  induction lines generalizing isCut ts with
  | nil =>
    obtain ⟨-, rfl⟩ := h
    simp
  | cons l lines ih =>
    obtain ⟨b, c, t, rest, -, rfl, hline, hrest⟩ := h
    exact List.forall_mem_cons.mpr ⟨hline.isLine, ih hrest⟩

/-- The ids of the lines. -/
theorem SeenLines.ids {lines : List FieldLine} {isCut : Bool} {ts : List (List Char)}
    (h : SeenLines lines isCut ts) :
    ts.filterMap idOf = (lines.filter (·.field = .id)).map (·.value) := by
  induction lines generalizing isCut ts with
  | nil =>
    obtain ⟨-, rfl⟩ := h
    rfl
  | cons l lines ih =>
    obtain ⟨b, c, t, rest, -, rfl, hline, hrest⟩ := h
    have hid := hline.idOf
    rw [List.filter_cons]
    by_cases hfield : l.field = .id
    · rw [if_pos hfield] at hid
      rw [List.filterMap_cons_some hid, if_pos (by simpa using hfield), List.map_cons, ih hrest]
    · rw [if_neg hfield] at hid
      rw [List.filterMap_cons_none hid, if_neg (by simpa using hfield), ih hrest]

theorem ink_intercalate (vs : List (List Char)) :
    ink (['\n'].intercalate vs) = (vs.map ink).sum := by
  induction vs with
  | nil => rfl
  | cons v vs ih =>
    cases vs with
    | nil => simp
    | cons w vs =>
      rw [List.intercalate_cons_cons, ink_append, ink_append, ih, List.map_cons, List.sum_cons]
      simp [ink_cons, show isWhitespace '\n' = true from rfl]

/-- The data of a line and of those after it. -/
theorem dataValues_cons (l : FieldLine) (lines : List FieldLine) :
    dataValues (l :: lines)
      = if l.field = .data then l.value :: dataValues lines else dataValues lines := by
  rw [dataValues, List.filter_cons]
  by_cases hfield : l.field = .data <;> simp [hfield, dataValues]

/-- As much data is seen as there is, and more where something is cut. -/
theorem SeenLines.ink {lines : List FieldLine} {isCut : Bool} {ts : List (List Char)}
    (h : SeenLines lines isCut ts) :
    ((dataValues lines).map Sse.ink).sum ≤ ((ts.filterMap dataOf).map Sse.ink).sum ∧
      (isCut = true →
        ((dataValues lines).map Sse.ink).sum < ((ts.filterMap dataOf).map Sse.ink).sum) := by
  induction lines generalizing isCut ts with
  | nil =>
    obtain ⟨rfl, rfl⟩ := h
    exact ⟨Nat.le_refl _, fun h => by cases h⟩
  | cons l lines ih =>
    obtain ⟨b, c, t, rest, rfl, rfl, hline, hrest⟩ := h
    obtain ⟨hle, hlt⟩ := ih hrest
    obtain ⟨v, cr, hcr, hv, hdata⟩ := hline.dataOf
    rw [dataValues_cons]
    by_cases hfield : l.field = .data
    · rw [if_pos hfield] at hdata ⊢
      rw [List.filterMap_cons_some hdata, List.map_cons, List.map_cons, List.sum_cons,
        List.sum_cons, ink_append, ink_cr hcr]
      have hv' := hv.ink_le
      refine ⟨by omega, fun hcut => ?_⟩
      cases b with
      | true =>
        have := hv.more rfl
        omega
      | false =>
        have := hlt hcut
        omega
    · rw [if_neg hfield] at hdata ⊢
      rw [List.filterMap_cons_none hdata]
      refine ⟨hle, fun hcut => ?_⟩
      -- an id is never cut
      have hid : l.field = .id := by
        cases hf : l.field with
        | id => rfl
        | data => exact absurd hf hfield
      have hplain := hv.plain fun c hc => (l.plain hid c hc).1
      rw [hplain, Bool.false_or] at hcut
      exact hlt hcut

/-- Values with a CR after them. -/
theorem replaceCrLf_intercalate {vs ds : List (List Char)}
    (h : List.Forall₂ (fun v d => (∀ c ∈ v, c ≠ '\r') ∧ (d = v ∨ d = v ++ ['\r'])) vs ds) :
    ∃ cr, (cr = [] ∨ cr = ['\r']) ∧
      replaceCrLf (['\n'].intercalate ds) = ['\n'].intercalate vs ++ cr := by
  induction h with
  | nil => exact ⟨[], .inl rfl, rfl⟩
  | @cons v d vs ds hvd htail ih =>
    obtain ⟨hv, hd⟩ := hvd
    obtain ⟨cr', hcr', rfl⟩ : ∃ cr', (cr' = [] ∨ cr' = ['\r']) ∧ d = v ++ cr' := by
      rcases hd with rfl | rfl
      · exact ⟨[], .inl rfl, (List.append_nil d).symm⟩
      · exact ⟨['\r'], .inr rfl, rfl⟩
    cases htail with
    | nil =>
      refine ⟨cr', hcr', ?_⟩
      rw [List.intercalate_singleton, List.intercalate_singleton, replaceCrLf_eq_self hv hcr']
    | cons hwe htail =>
      obtain ⟨cr, hcr, heq⟩ := ih
      refine ⟨cr, hcr, ?_⟩
      rw [List.intercalate_cons_cons, List.intercalate_cons_cons, List.append_assoc,
        List.append_assoc, List.singleton_append, replaceCrLf_append_lf hv hcr', heq]
      simp

/-- Where nothing is cut, the data is seen as it is. -/
theorem SeenLines.values {lines : List FieldLine} {ts : List (List Char)}
    (h : SeenLines lines false ts) :
    List.Forall₂ (fun v d => (∀ c ∈ v, c ≠ '\r') ∧ (d = v ∨ d = v ++ ['\r']))
      (dataValues lines) (ts.filterMap dataOf) := by
  induction lines generalizing ts with
  | nil =>
    obtain ⟨-, rfl⟩ := h
    exact .nil
  | cons l lines ih =>
    obtain ⟨b, c, t, rest, hcut, rfl, hline, hrest⟩ := h
    obtain ⟨rfl, rfl⟩ := Bool.or_eq_false_iff.mp hcut.symm
    obtain ⟨v, cr, hcr, hv, hdata⟩ := hline.dataOf
    rw [dataValues_cons]
    by_cases hfield : l.field = .data
    · rw [if_pos hfield] at hdata ⊢
      rw [List.filterMap_cons_some hdata, hv.whole rfl]
      refine .cons ⟨fun c hc => (l.noBreak c hc).1, ?_⟩ (ih hrest)
      rcases hcr with rfl | rfl
      · exact .inl (List.append_nil _)
      · exact .inr rfl
    · rw [if_neg hfield] at hdata ⊢
      rw [List.filterMap_cons_none hdata]
      exact ih hrest

/-- **The text of a frame that is seen.**  It is the frame's where nothing is cut, and
another one where something is. -/
theorem SeenLines.text_iff {f : EventFrame} {isCut : Bool} {ts : List (List Char)}
    (h : SeenLines f.lines isCut ts) :
    replaceCrLf (seenText ts) = f.text ↔ isCut = false := by
  constructor
  · intro heq
    by_contra hcut
    have hlt := h.ink.2 (by simpa using hcut)
    have hink := congrArg Sse.ink heq
    rw [ink_replaceCrLf, seenText, ink_trim, ink_intercalate, EventFrame.text, ink_trim,
      ink_intercalate] at hink
    omega
  · rintro rfl
    obtain ⟨cr, hcr, heq⟩ := replaceCrLf_intercalate h.values
    rw [seenText, replaceCrLf_trim, heq, trim_append_blanks (ink_eq_zero_iff.mp (ink_cr hcr))]
    rfl

/-- Some text is seen of every frame. -/
theorem SeenLines.text_ne {f : EventFrame} {isCut : Bool} {ts : List (List Char)}
    (h : SeenLines f.lines isCut ts) : seenText ts ≠ [] := by
  intro hnil
  have hle := h.ink.1
  have hne := f.text_ne
  rw [Ne, trim_eq_nil_iff_ink, ink_intercalate] at hne
  rw [seenText, trim_eq_nil_iff_ink, ink_intercalate] at hnil
  omega

/-- Every frame has a line. -/
theorem SeenLines.ne_nil {f : EventFrame} {isCut : Bool} {ts : List (List Char)}
    (h : SeenLines f.lines isCut ts) : ts ≠ [] := by
  rintro rfl
  exact h.text_ne rfl

/-- The id of a frame that is seen. -/
theorem SeenLines.id {f : EventFrame} {isCut : Bool} {ts : List (List Char)}
    (h : SeenLines f.lines isCut ts) : (ts.filterMap idOf).getLast? = f.id := by
  rw [h.ids, EventFrame.id, List.getLast?_map]

/-! ### From the pieces to the frames -/

/-- No piece is cut but the end of a line. -/
def CutsLineEnds (ms : List (Piece × Bool)) : Prop := ∀ m ∈ ms, m.2 = true → m.1.isLineEnd = true

theorem cutsLineEnds_append {ms ns : List (Piece × Bool)} :
    CutsLineEnds (ms ++ ns) ↔ CutsLineEnds ms ∧ CutsLineEnds ns := List.forall_mem_append

/-- No character is cut. -/
theorem cutsLineEnds_chars {ms : List (Piece × Bool)} {cs : List Char}
    (hms : ms.map Prod.fst = cs.map .char) : CutsLineEnds ms ↔ ms.any (·.2) = false := by
  rw [List.any_eq_false]
  refine forall₂_congr fun m hm => ?_
  obtain ⟨c, -, hc⟩ : ∃ c ∈ cs, Piece.char c = m.1 := by
    rw [← List.mem_map, ← hms]
    exact List.mem_map_of_mem hm
  rw [← hc]
  simp [Piece.isLineEnd]

/-- Before its value, a line is ASCII. -/
theorem plain_tag (l : FieldLine) :
    ∀ c ∈ l.field.tag ++ (if l.space then [' '] else []),
      (c ≠ '\r' ∧ c ≠ '\n') ∧ c.utf8Size = 1 := by
  have hall : (l.field.tag ++ (if l.space then [' '] else [])).all
      (fun c => (c ≠ '\r' ∧ c ≠ '\n') ∧ c.utf8Size = 1) = true := by
    cases l.field <;> cases l.space <;> decide
  exact fun c hc => of_decide_eq_true (List.all_eq_true.mp hall c hc)

theorem seenLine_of_shown {l : FieldLine} {ms : List (Piece × Bool)} {t : List Char}
    (hms : ms.map Prod.fst = l.pieces) (h : Shown ms t) :
    ∃ isCut u, t = u ++ ['\n'] ∧ SeenLine l isCut u ∧ (CutsLineEnds ms ↔ isCut = false) := by
  obtain ⟨ms, me, rfl, hchars, hend⟩ := List.map_eq_append_iff.mp hms
  rw [FieldLine.chars, ← List.append_assoc, List.map_append] at hchars
  obtain ⟨mp, mv, rfl, hpre, hval⟩ := List.map_eq_append_iff.mp hchars
  obtain ⟨⟨p, e⟩, rfl, he⟩ := List.map_eq_singleton_iff.mp hend
  obtain rfl : p = .lineEnd l.crlf := he
  obtain ⟨_, out, rfl, hpv, hout⟩ := shown_append.mp h
  obtain ⟨a, v, rfl, ha, hv⟩ := shown_append.mp hpv
  have hseen := seen_of_shown hpre (fun c hc => (plain_tag l c hc).1) ha
  have hwhole := hseen.plain fun c hc => (plain_tag l c hc).2
  have hseen' := seen_of_shown hval l.noBreak hv
  obtain ⟨cr, hcr, rfl⟩ : ∃ cr, (cr = [] ∨ cr = ['\r']) ∧ out = cr ++ ['\n'] := by
    obtain ⟨out, _, rfl, hout, rfl⟩ := hout
    cases e with
    | false => exact ⟨[], .inl rfl, by rw [show out = ['\n'] from hout]; rfl⟩
    | true => exact ⟨['\r'], .inr rfl, by rw [show out = ['\r', '\n'] from hout.2]; rfl⟩
  refine ⟨mv.any (·.2), a ++ (v ++ cr), by simp, ⟨v, cr, ?_, hcr, hseen'⟩, ?_⟩
  · rw [hseen.whole hwhole, List.append_assoc]
  · rw [cutsLineEnds_append, cutsLineEnds_append, cutsLineEnds_chars hpre,
      cutsLineEnds_chars hval]
    have hlast : CutsLineEnds [(Piece.lineEnd l.crlf, e)] := by
      intro m hm _
      rw [List.mem_singleton.mp hm]
      rfl
    simp [hwhole, hlast]

theorem seenLines_of_shown {lines : List FieldLine} {ms : List (Piece × Bool)} {t : List Char}
    (hms : ms.map Prod.fst = lines.flatMap FieldLine.pieces) (h : Shown ms t) :
    ∃ isCut ts, t = ended ts ∧ SeenLines lines isCut ts ∧ (CutsLineEnds ms ↔ isCut = false) := by
  induction lines generalizing ms t with
  | nil =>
    obtain rfl := List.map_eq_nil_iff.mp hms
    obtain rfl : t = [] := h
    exact ⟨false, [], rfl, ⟨rfl, rfl⟩, iff_of_true (by simp [CutsLineEnds]) rfl⟩
  | cons l lines ih =>
    obtain ⟨ml, mr, rfl, hl, hr⟩ := List.map_eq_append_iff.mp hms
    obtain ⟨_, b, rfl, ha, hb⟩ := shown_append.mp h
    obtain ⟨isCut, u, rfl, hline, hcut⟩ := seenLine_of_shown hl ha
    obtain ⟨isCut', ts, rfl, hlines, hcut'⟩ := ih hr hb
    refine ⟨isCut || isCut', u :: ts, ?_, ⟨isCut, isCut', u, ts, rfl, rfl, hline, hlines⟩, ?_⟩
    · rw [ended_cons, List.append_assoc]
      rfl
    · rw [cutsLineEnds_append, hcut, hcut', Bool.or_eq_false_iff]

/-- What is seen of a frame: its lines, and whether its blank line is seen as one. -/
structure SeenFrame (f : EventFrame) (ok : Bool) (g : List (List Char) × Bool) : Prop where
  lines : g.1 ≠ [] ∧ ∀ l ∈ g.1, IsLine l
  closed : g.2 = true → SeenLines f.lines (!ok) g.1
  opened : g.2 = false → ok = false

theorem isLine_cr : IsLine ['\r'] := by
  unfold IsLine
  decide

theorem seenFrame_of_shown {f : EventFrame} {ms : List (Piece × Bool)} {t : List Char}
    (hms : ms.map Prod.fst = f.pieces) (h : Shown ms t) :
    ∃ ok g, t = groupText g ∧ SeenFrame f ok g ∧ (CutsLineEnds ms ↔ ok = true) := by
  obtain ⟨ml, mb, rfl, hl, hb⟩ := List.map_eq_append_iff.mp hms
  obtain ⟨⟨p, e⟩, rfl, he⟩ := List.map_eq_singleton_iff.mp hb
  obtain rfl : p = .blank f.crlf := he
  obtain ⟨_, out, rfl, ha, hout⟩ := shown_append.mp h
  obtain ⟨isCut, ts, rfl, hlines, hcut⟩ := seenLines_of_shown hl ha
  obtain ⟨out, _, rfl, hout, rfl⟩ := hout
  have hne := hlines.ne_nil
  rw [List.append_nil]
  cases e with
  | false =>
    obtain rfl : out = ['\n'] := hout
    refine ⟨!isCut, (ts, true), rfl, ⟨⟨hne, hlines.isLine⟩, fun _ => ?_, fun h => ?_⟩, ?_⟩
    · rw [Bool.not_not]
      exact hlines
    · cases h
    · rw [cutsLineEnds_append, hcut]
      simp [CutsLineEnds]
  | true =>
    -- the CR of the blank line is a line of its own
    obtain rfl : out = ['\r', '\n'] := hout.2
    refine ⟨false, (ts ++ [['\r']], false), ?_, ⟨⟨by simp, ?_⟩, fun h => ?_, fun _ => rfl⟩, ?_⟩
    · simp [groupText, ended]
    · intro l hl
      rcases List.mem_append.mp hl with hl | hl
      · exact hlines.isLine l hl
      · rw [List.mem_singleton.mp hl]
        exact isLine_cr
    · cases h
    · rw [cutsLineEnds_append]
      simp [CutsLineEnds, Piece.isLineEnd]

/-- What is seen of all frames. -/
theorem seenFrames_of_shown {frames : List EventFrame} {ms : List (Piece × Bool)} {t : List Char}
    (hms : ms.map Prod.fst = streamPieces frames) (h : Shown ms t) :
    ∃ gs : List (Bool × (List (List Char) × Bool)),
      t = (gs.map Prod.snd).flatMap groupText ∧
        List.Forall₂ (fun f g => SeenFrame f g.1 g.2) frames gs ∧
        (CutsLineEnds ms ↔ ∀ g ∈ gs, g.1 = true) := by
  induction frames generalizing ms t with
  | nil =>
    obtain rfl := List.map_eq_nil_iff.mp hms
    obtain rfl : t = [] := h
    exact ⟨[], rfl, .nil, iff_of_true (by simp [CutsLineEnds]) (by simp)⟩
  | cons f frames ih =>
    obtain ⟨mf, mr, rfl, hf, hr⟩ := List.map_eq_append_iff.mp hms
    obtain ⟨_, b, rfl, ha, hb⟩ := shown_append.mp h
    obtain ⟨ok, g, rfl, hframe, hcut⟩ := seenFrame_of_shown hf ha
    obtain ⟨gs, rfl, hframes, hcut'⟩ := ih hr hb
    refine ⟨(ok, g) :: gs, rfl, .cons hframe hframes, ?_⟩
    rw [cutsLineEnds_append, hcut, hcut', List.forall_mem_cons]

/-! ### Decoding -/

theorem mem_groups {gs : List (List (List Char) × Bool)} {acc : List (List Char)}
    (hacc : ∀ l ∈ acc, IsLine l) (hgs : ∀ g ∈ gs, g.1 ≠ [] ∧ ∀ l ∈ g.1, IsLine l) :
    ∀ ls ∈ groups acc gs, ls ≠ [] ∧ ∀ l ∈ ls, IsLine l := by
  induction gs generalizing acc with
  | nil => simp [groups]
  | cons g gs ih =>
    obtain ⟨⟨hne, hg⟩, hgs'⟩ := List.forall_mem_cons.mp hgs
    obtain ⟨ls, closed⟩ := g
    have hall : ∀ l ∈ acc ++ ls, IsLine l := by
      intro l hl
      rcases List.mem_append.mp hl with hl | hl
      · exact hacc l hl
      · exact hg l hl
    cases closed with
    | true =>
      exact List.forall_mem_cons.mpr ⟨⟨by simp [hne], hall⟩, ih (by simp) hgs'⟩
    | false => exact ih hall hgs'

/-- Where every blank line is seen, the groups are the frames. -/
theorem groups_of_closed {gs : List (List (List Char) × Bool)} (h : ∀ g ∈ gs, g.2 = true) :
    groups [] gs = gs.map Prod.fst := by
  induction gs with
  | nil => rfl
  | cons g gs ih =>
    obtain ⟨hg, hgs⟩ := List.forall_mem_cons.mp h
    obtain ⟨ls, closed⟩ := g
    obtain rfl : closed = true := hg
    rw [groups, ih hgs]
    rfl

/-- Where one is not, there are fewer. -/
theorem length_groups {gs : List (List (List Char) × Bool)} (acc : List (List Char)) :
    (groups acc gs).length = gs.countP (·.2) := by
  induction gs generalizing acc with
  | nil => rfl
  | cons g gs ih =>
    obtain ⟨ls, closed⟩ := g
    cases closed with
    | true => rw [groups, List.length_cons, ih, List.countP_cons_of_pos rfl]
    | false => rw [groups, ih, List.countP_cons_of_neg (by simp)]

theorem exists_seenFrame {frames : List EventFrame}
    {gs : List (Bool × (List (List Char) × Bool))}
    (h : List.Forall₂ (fun f g => SeenFrame f g.1 g.2) frames gs) :
    ∀ g ∈ gs, ∃ f, SeenFrame f g.1 g.2 := by
  induction h with
  | nil => simp
  | @cons f g frames gs hf _ ih => exact List.forall_mem_cons.mpr ⟨⟨f, hf⟩, ih⟩

/-- The texts are those of the frames exactly when nothing is cut. -/
theorem texts_iff {frames : List EventFrame} {gs : List (Bool × (List (List Char) × Bool))}
    (h : List.Forall₂ (fun f g => SeenFrame f g.1 g.2) frames gs)
    (hclosed : ∀ g ∈ gs, g.2.2 = true) :
    ((gs.map fun g => seenText g.2.1).filter (· ≠ [])).map replaceCrLf
        = frames.map EventFrame.text ↔ ∀ g ∈ gs, g.1 = true := by
  induction h with
  | nil => simp
  | @cons f g frames gs hf hrest ih =>
    obtain ⟨hg, hgs⟩ := List.forall_mem_cons.mp hclosed
    have hlines := hf.closed hg
    rw [List.map_cons, List.filter_cons, if_pos (by simpa using hlines.text_ne), List.map_cons,
      List.map_cons, List.cons.injEq, ih hgs, hlines.text_iff, List.forall_mem_cons]
    simp

/-- So is the id. -/
theorem lastEventId_eq {frames : List EventFrame} {gs : List (Bool × (List (List Char) × Bool))}
    (h : List.Forall₂ (fun f g => SeenFrame f g.1 g.2) frames gs)
    (hclosed : ∀ g ∈ gs, g.2.2 = true) (lastEventId : Option (List Char)) :
    (gs.map fun g => g.2.1).foldl (fun last ls => (ls.filterMap idOf).getLast?.or last) lastEventId
      = frames.foldl (fun last f => f.id.or last) lastEventId := by
  induction h generalizing lastEventId with
  | nil => rfl
  | @cons f g frames gs hf hrest ih =>
    obtain ⟨hg, hgs⟩ := List.forall_mem_cons.mp hclosed
    rw [List.map_cons, List.foldl_cons, List.foldl_cons, (hf.closed hg).id]
    exact ih hgs _

/-- A frame has no CR but in its line ends. -/
theorem ne_cr_of_mem {frames : List EventFrame} {p : Piece} (h : p ∈ streamPieces frames) :
    p ≠ .char '\r' := by
  rintro rfl
  obtain ⟨f, -, hf⟩ := List.mem_flatMap.mp h
  rcases List.mem_append.mp hf with hf | hf
  · obtain ⟨l, -, hl⟩ := List.mem_flatMap.mp hf
    rcases List.mem_append.mp hl with hl | hl
    · obtain ⟨c, hc, heq⟩ := List.mem_map.mp hl
      obtain rfl : c = '\r' := Piece.char.inj heq
      rw [FieldLine.chars, ← List.append_assoc] at hc
      rcases List.mem_append.mp hc with hc | hc
      · exact (plain_tag l _ hc).1.1 rfl
      · exact (l.noBreak _ hc).1 rfl
    · cases List.mem_singleton.mp hl
  · cases List.mem_singleton.mp hf

/-- The frames as the chunks show them. -/
theorem exists_seenFrames {frames : List EventFrame} {chunks : List (List UInt8)}
    (hne : chunks ≠ []) (h : chunks.flatten = (streamPieces frames).flatMap Piece.bytes) :
    ∃ gs : List (Bool × (List (List Char) × Bool)),
      received chunks = (gs.map Prod.snd).flatMap groupText ∧
        List.Forall₂ (fun f g => SeenFrame f g.1 g.2) frames gs ∧
        (CutsBetween Piece.bytes Piece.isLineEnd (streamPieces frames) chunks ↔
          ∀ g ∈ gs, g.1 = true) := by
  obtain ⟨ms, hms, hparted⟩ := exists_parted bytes_ne_nil hne h
  have hcr : ∀ m ∈ ms, m.1 ≠ .char '\r' := by
    intro m hm
    have hmem : m.1 ∈ streamPieces frames := by
      rw [← hms]
      exact List.mem_map_of_mem hm
    exact ne_cr_of_mem hmem
  obtain ⟨gs, hseen, hframes, hcut⟩ := seenFrames_of_shown hms (shown_of_parted hparted hcr)
  refine ⟨gs, hseen, hframes, ?_⟩
  rw [← hcut, ← hms]
  exact hparted.cutsBetween_iff bytes_ne_nil

/-- **The stream decodes exactly when no border of two chunks falls inside a character, or
inside the CR LF of a blank line.** -/
theorem decodes_iff (frames : List EventFrame) (chunks : List (List UInt8))
    (lastEventId : Option (List Char))
    (h : chunks.flatten = (streamPieces frames).flatMap Piece.bytes) :
    Decodes frames chunks lastEventId ↔
      CutsBetween Piece.bytes Piece.isLineEnd (streamPieces frames) chunks := by
  by_cases hne : chunks = []
  · subst hne
    cases frames with
    | nil =>
      refine iff_of_true ⟨rfl, rfl⟩ fun done hdone => ?_
      rw [List.prefix_nil.mp hdone]
      exact endsBetween_nil
    | cons f frames =>
      -- a frame ends with a line break
      have hnil : (Piece.blank f.crlf).bytes = [] :=
        List.flatMap_eq_nil_iff.mp h.symm _
          (List.mem_flatMap.mpr ⟨f, List.mem_cons_self, by simp [EventFrame.pieces]⟩)
      exact absurd hnil (bytes_ne_nil _)
  · obtain ⟨gs, hseen, hframes, hcut⟩ := exists_seenFrames hne h
    have hlines : ∀ g ∈ gs.map Prod.snd, g.1 ≠ [] ∧ ∀ l ∈ g.1, IsLine l := by
      intro g hg
      obtain ⟨g', hg', rfl⟩ := List.mem_map.mp hg
      obtain ⟨f, hf⟩ := exists_seenFrame hframes g' hg'
      exact hf.lines
    have hitems : (drain look (received chunks)).items
        = (groups [] (gs.map Prod.snd)).map fun ls => ['\n'].intercalate ls := by
      rw [hseen]
      exact @items_drain _ [] (by simp) hlines
    have hgroup : ∀ ls ∈ groups [] (gs.map Prod.snd), ls ≠ [] ∧ ∀ l ∈ ls, IsLine l :=
      mem_groups (by simp) hlines
    obtain ⟨htexts, hid⟩ := foldl_push_eq chunks lastEventId
    obtain ⟨htexts', hid'⟩ := foldl_frame_lines hgroup { lastEventId }
    rw [hitems] at htexts hid
    rw [htexts'] at htexts
    rw [hid'] at hid
    rw [hcut]
    by_cases hclosed : ∀ g ∈ gs, g.2.2 = true
    · have hgroups : groups [] (gs.map Prod.snd) = gs.map fun g => g.2.1 := by
        rw [groups_of_closed (List.forall_mem_map.mpr hclosed), List.map_map]
        rfl
      rw [hgroups, List.map_map] at htexts
      rw [hgroups] at hid
      constructor
      · intro hdec
        have hall := hdec.texts
        rw [htexts] at hall
        exact (texts_iff hframes hclosed).mp hall
      · intro hok
        constructor
        · rw [htexts]
          exact (texts_iff hframes hclosed).mpr hok
        · rw [hid]
          exact lastEventId_eq hframes hclosed lastEventId
    · -- a blank line is not seen, and two frames are fused
      obtain ⟨g, hg, hopen⟩ : ∃ g ∈ gs, ¬ g.2.2 = true := by
        simpa only [not_forall, exists_prop] using hclosed
      have hopen' : g.2.2 = false := by simpa using hopen
      refine iff_of_false (fun hdec => ?_) fun hok => ?_
      · have hlen := congrArg List.length hdec.texts
        rw [htexts, List.length_map, List.length_map, List.nil_append,
          hframes.length_eq] at hlen
        have hle := List.length_filter_le (fun t => decide (t ≠ []))
          ((groups [] (gs.map Prod.snd)).map seenText)
        rw [List.length_map, length_groups, List.countP_map] at hle
        have hall : gs.countP ((·.2) ∘ Prod.snd) = gs.length := by
          have := List.countP_le_length (p := (·.2) ∘ Prod.snd) (l := gs)
          omega
        exact hopen (List.countP_eq_length.mp hall g hg)
      · obtain ⟨f, hf⟩ := exists_seenFrame hframes g hg
        rw [hok g hg] at hf
        cases hf.opened hopen'

/-! ### Envelopes, and streams that are cut -/

/-- **The envelopes are those of the frames**, for a deserializer to which a CR before a LF
is white space. -/
theorem envelopes_of_decodes {E : Type*} (fromStr : List Char → Option E)
    (hfromStr : ∀ t, fromStr (replaceCrLf t) = fromStr t) {frames : List EventFrame}
    {chunks : List (List UInt8)} {lastEventId : Option (List Char)}
    (h : Decodes frames chunks lastEventId) :
    (chunks.foldl Reader.push { lastEventId }).texts.filterMap fromStr
      = (frames.map EventFrame.text).filterMap fromStr := by
  rw [← h.texts, List.filterMap_map]
  exact congrArg (fun f => List.filterMap f _) (funext fun t => (hfromStr t).symm)

/-- One data line. -/
def dataLine (value : List Char) (hbreak : ∀ c ∈ value, c ≠ '\r' ∧ c ≠ '\n') : FieldLine where
  field := .data
  space := true
  value := value
  crlf := true
  noBreak := hbreak
  plain := by simp
  spaced := fun _ => rfl

/-- A frame with an accent. -/
def accented : EventFrame where
  lines := [dataLine ['"', 'é', '"'] (by simp)]
  crlf := true
  text_ne := by decide

theorem decodes_iff_accented :
    Decodes [accented] [(streamPieces [accented]).flatMap Piece.bytes] none := by
  refine (decodes_iff [accented] [(streamPieces [accented]).flatMap Piece.bytes] none
    (List.append_nil _)).mpr ?_
  intro done hdone
  cases done with
  | nil => exact endsBetween_nil
  | cons chunk done =>
    obtain ⟨rfl, hnil⟩ := List.cons_prefix_cons.mp hdone
    rw [List.prefix_nil.mp hnil]
    exact ⟨streamPieces [accented], [], (List.append_nil _).symm, .inl (List.append_nil _)⟩

/-- The bytes of some frames, cut once. -/
def cutAt (n : ℕ) (frames : List EventFrame) : List (List UInt8) :=
  let bytes := (streamPieces frames).flatMap Piece.bytes
  [bytes.take n, bytes.drop n]

/-- **A border inside of the é turns it into two replacement characters, and one inside of a
blank line fuses two frames.** -/
theorem not_decodes :
    ¬ Decodes [accented] (cutAt 8 [accented]) none ∧
      ¬ Decodes [accented, accented] (cutAt 13 [accented, accented]) none := by
  constructor
  · intro h
    exact absurd h.texts (by decide)
  · intro h
    exact absurd h.texts (by decide)

end Sse
end Pantoken
