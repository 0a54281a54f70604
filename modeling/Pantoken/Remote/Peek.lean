import Pantoken.Connection.Stdio
import Pantoken.Protocol.Json

/-!
# Peeking at a connection

The remote runtime reads the first frame of a connection to tell a probe from a session.  For a
session it makes the frame anew and lets the transport read it first and then the socket.  What
its decoder holds besides is not handed over.

## Main definitions

* `firstFrame`, `handleRuntimeConnection`, `CombinedReader` — the code.
* `First`, `first?` — where the first well-formed frame of a stream is.
* `Keeps` — the transport reads the stream from that frame on.
* `Alone` — no frame is complete before it in its last read, and nothing behind it.

## Main results

* `received_append_bytes` — the combined reader loses nothing of its own.
* `peek_keeps_iff` — **a peek keeps the stream exactly when the first frame comes alone.**
* `not_keeps` — two frames in one read.
-/

namespace Pantoken
namespace Peek

open Incremental

/-! ### The code -/

/-- The loop that reads the first frame: the frame and what is left to read, if it is not the
end that comes first. -/
def firstFrame : FrameDecoder → Stdin → Except String (Option (List UInt8 × Stdin))
  | _, [] => .ok none
  | _, .error e :: _ => .error e
  | decoder, .ok buf :: stdin =>
    match (decoder.push buf.val).1.head? with
    | some (.ok body) => .ok (some (body, stdin))
    | _ => firstFrame (decoder.push buf.val).2 stdin

/-- `val.get("type").and_then(|t| t.as_str()) == Some("probe")`, for what `serde_json` reads. -/
def isProbe (fromSlice : List UInt8 → Option Json) (body : List UInt8) : Bool :=
  match fromSlice body with
  | some val => (val.get "type").bind Json.asStr = some "probe"
  | none => false

/-- The bytes of the reads that are left. -/
def bytesOf : Stdin → List UInt8
  | .ok buf :: stdin => buf.val ++ bytesOf stdin
  | _ => []

/-- The bytes read before, the place in them, and what the socket still has. -/
structure CombinedReader where
  pre : List UInt8
  position : ℕ
  inner : List UInt8

namespace CombinedReader

/-- `poll_read` into a buffer of some capacity, when so many bytes are available. -/
def pollRead (self : CombinedReader) (capacity available : ℕ) : List UInt8 × CombinedReader :=
  if self.position < self.pre.length then
    let remaining := self.pre.drop self.position
    let n := min remaining.length capacity
    (remaining.take n, { self with position := self.position + n })
  else
    let n := min capacity available
    (self.inner.take n, { self with inner := self.inner.drop n })

/-- What some polls read, and the reader after them. -/
def received (self : CombinedReader) : List (ℕ × ℕ) → List UInt8 × CombinedReader
  | [] => ([], self)
  | (capacity, available) :: polls =>
    let (bytes, self') := self.pollRead capacity available
    let (rest, self'') := self'.received polls
    (bytes ++ rest, self'')

/-- All that is left to read. -/
def bytes (self : CombinedReader) : List UInt8 := self.pre.drop self.position ++ self.inner

end CombinedReader

inductive Handled where
  /-- The connection is closed before a frame. -/
  | closed
  | failed (e : String)
  /-- The identity is sent. -/
  | probed
  /-- The session runs over the reader. -/
  | session (reader : CombinedReader)

def handleRuntimeConnection (fromSlice : List UInt8 → Option Json) (stream : Stdin) : Handled :=
  match firstFrame FrameDecoder.new stream with
  | .error e => .failed e
  | .ok none => .closed
  | .ok (some (body, stdin)) =>
    if isProbe fromSlice body then .probed
    else .session ⟨toBeBytes (UInt32.ofNat body.length) ++ body, 0, bytesOf stdin⟩

/-! ### What is asked -/

def isOk : Except FrameError (List UInt8) → Bool
  | .ok _ => true
  | .error _ => false

/-- Where the first well-formed frame is: what its last read yields before it, the decoder's
buffer from it on, and the reads that are left. -/
structure First where
  before : List (Except FrameError (List UInt8))
  found : List UInt8
  later : Stdin

/-- The bytes of the stream from the frame on. -/
def First.bytes (f : First) : List UInt8 := f.found ++ bytesOf f.later

/-- The first well-formed frame of a stream, behind what the decoder holds. -/
def first? : List UInt8 → Stdin → Option First
  | held, .ok buf :: stdin =>
    match seek frameLook isOk (held ++ buf.val) with
    | some (before, found) => some ⟨before, found, stdin⟩
    | none => first? (drain frameLook (held ++ buf.val)).buf stdin
  | _, _ => none

/-- The frame is not a probe. -/
def First.Opens (f : First) (fromSlice : List UInt8 → Option Json) (body rest : List UInt8) :
    Prop :=
  frameLook f.found = .item (.ok body) rest ∧ isProbe fromSlice body = false

/-- The session reads these bytes, however it polls. -/
def Handled.Reads (h : Handled) (bytes : List UInt8) : Prop :=
  ∃ reader, h = .session reader ∧
    ∀ polls, (reader.received polls).1 ++ (reader.received polls).2.bytes = bytes

/-- The session reads the stream from its first well-formed frame on. -/
def Keeps (fromSlice : List UInt8 → Option Json) (stream : Stdin) : Prop :=
  ∀ f body rest, first? [] stream = some f → f.Opens fromSlice body rest →
    (handleRuntimeConnection fromSlice stream).Reads f.bytes

/-- The last read of the first well-formed frame completes no frame before it and holds
nothing behind it. -/
def Alone (fromSlice : List UInt8 → Option Json) (stream : Stdin) : Prop :=
  ∀ f body rest, first? [] stream = some f → f.Opens fromSlice body rest →
    f.before = [] ∧ rest = []

/-! ### The reader -/

namespace CombinedReader

theorem pollRead_append_bytes (self : CombinedReader) (capacity available : ℕ) :
    (self.pollRead capacity available).1 ++ (self.pollRead capacity available).2.bytes =
      self.bytes := by
  unfold pollRead bytes
  split
  · dsimp only
    rw [← List.append_assoc, ← List.drop_drop, List.take_append_drop]
  · next h =>
    dsimp only
    rw [List.drop_eq_nil_of_le (Nat.le_of_not_lt h), List.nil_append, List.nil_append,
      List.take_append_drop]

/-- **The combined reader loses nothing of its own.** -/
theorem received_append_bytes (self : CombinedReader) (polls : List (ℕ × ℕ)) :
    (self.received polls).1 ++ (self.received polls).2.bytes = self.bytes := by
  induction polls generalizing self with
  | nil => rfl
  | cons poll polls ih =>
    obtain ⟨capacity, available⟩ := poll
    have hpoll := self.pollRead_append_bytes capacity available
    have hrest := ih (self.pollRead capacity available).2
    change ((self.pollRead capacity available).1 ++
      ((self.pollRead capacity available).2.received polls).1) ++
      ((self.pollRead capacity available).2.received polls).2.bytes = self.bytes
    rw [List.append_assoc, hrest, hpoll]

/-- A poll reads something as long as there is something. -/
theorem pollRead_ne_nil {self : CombinedReader} {capacity available : ℕ}
    (hcapacity : 0 < capacity) (havailable : 0 < available) (h : self.bytes ≠ []) :
    (self.pollRead capacity available).1 ≠ [] := by
  unfold pollRead
  split
  · next hlt =>
    have hlen : 0 < (self.pre.drop self.position).length := by
      rw [List.length_drop]
      omega
    apply List.ne_nil_of_length_pos
    rw [List.length_take]
    omega
  · next hge =>
    have hinner : self.inner ≠ [] := by
      rwa [bytes, List.drop_eq_nil_of_le (Nat.le_of_not_lt hge), List.nil_append] at h
    have hlen := List.length_pos_iff.mpr hinner
    apply List.ne_nil_of_length_pos
    rw [List.length_take]
    omega

end CombinedReader

theorem Handled.reads_session_iff {reader : CombinedReader} {bytes : List UInt8} :
    (Handled.session reader).Reads bytes ↔ reader.bytes = bytes := by
  constructor
  · rintro ⟨reader', heq, h⟩
    cases heq
    exact h []
  · exact fun h => ⟨reader, rfl, fun polls => (reader.received_append_bytes polls).trans h⟩

/-! ### Frames in the buffer -/

theorem toBeBytes_fromBeBytes (a b c d : UInt8) :
    toBeBytes (fromBeBytes a b c d) = [a, b, c, d] := by
  have hn := fromBeBytes_toNat a b c d
  have hbyte : ∀ (n : ℕ) (e : UInt8), n % 256 = e.toNat → UInt8.ofNat n = e := fun n e h =>
    UInt8.toNat_inj.mp ((toNat_ofNat_byte n).trans h)
  have ha := a.toNat_lt
  have hb := b.toNat_lt
  have hc := c.toNat_lt
  have hd := d.toNat_lt
  rw [toBeBytes, hn]
  congr 1
  · exact hbyte _ a (by omega)
  · congr 1
    · exact hbyte _ b (by omega)
    · congr 1
      · exact hbyte _ c (by omega)
      · congr 1
        exact hbyte _ d (by omega)

/-- A well-formed frame at the front of a buffer is what the peek makes of its body. -/
theorem frameLook_ok {buf body rest : List UInt8} (h : frameLook buf = .item (.ok body) rest) :
    buf = (toBeBytes (UInt32.ofNat body.length) ++ body) ++ rest := by
  rcases frameLook_cases buf with hm | ⟨_, _, _, _, _, _, _, hf⟩ |
    ⟨a, b, c, d, body', rest', rfl, hlen, hle, hi⟩
  · rw [hm] at h
    cases h
  · rw [hf] at h
    cases h
  · rw [hi] at h
    have hbody : body' = body := by
      have : bodyResult body' = .ok body := by injection h
      unfold bodyResult at this
      split at this
      · cases this
      · exact Except.ok.inj this
    have hrest : rest' = rest := by injection h
    subst hbody hrest
    rw [← hlen, UInt32.ofNat_toNat, toBeBytes_fromBeBytes]
    simp

/-- A buffer that is emptied holds no well-formed frame. -/
theorem not_isOk_of_flush {buf : List UInt8} {r : Except FrameError (List UInt8)}
    (h : frameLook buf = .flush r) : isOk r = false := by
  rcases frameLook_cases buf with hm | ⟨_, _, _, _, _, _, _, hf⟩ |
    ⟨_, _, _, _, _, _, _, _, _, hi⟩
  · rw [hm] at h
    cases h
  · rw [hf] at h
    cases h
    rfl
  · rw [hi] at h
    cases h

/-- A push begins with a well-formed frame exactly when the buffer does. -/
theorem head?_push_eq_ok {decoder : FrameDecoder} {bytes body : List UInt8} :
    (decoder.push bytes).1.head? = some (.ok body) ↔
      ∃ rest, frameLook (decoder.buf ++ bytes) = .item (.ok body) rest := by
  rw [FrameDecoder.push]
  dsimp only
  rw [head?_drain stable_frameLook]
  cases hl : frameLook (decoder.buf ++ bytes) with
  | more => simp
  | flush r =>
    have hr := not_isOk_of_flush hl
    constructor
    · intro h
      rw [Option.some.inj h] at hr
      cases hr
    · rintro ⟨rest, h⟩
      cases h
  | item r rest => simp

/-! ### The first frame -/

/-- **The peek stops at a read that begins with the frame.** -/
theorem firstFrame_of_head {decoder : FrameDecoder} {buf : ReadBuf} {stdin : Stdin}
    {body rest : List UInt8} (h : frameLook (decoder.buf ++ buf.val) = .item (.ok body) rest) :
    firstFrame decoder (.ok buf :: stdin) = .ok (some (body, stdin)) := by
  rw [firstFrame, head?_push_eq_ok.mpr ⟨rest, h⟩]

/-- It goes on after any other. -/
theorem firstFrame_of_not_head (decoder : FrameDecoder) {buf : ReadBuf} {stdin : Stdin}
    (h : ∀ body rest, frameLook (decoder.buf ++ buf.val) ≠ .item (.ok body) rest) :
    firstFrame decoder (.ok buf :: stdin) = firstFrame (decoder.push buf.val).2 stdin := by
  rw [firstFrame]
  split
  · next body hhead =>
    obtain ⟨rest, hrest⟩ := head?_push_eq_ok.mp hhead
    exact absurd hrest (h body rest)
  · rfl

/-- **What the peek hands over is no longer than what it has been given.** -/
theorem length_firstFrame_le {decoder : FrameDecoder} {stdin later : Stdin} {body : List UInt8}
    (h : firstFrame decoder stdin = .ok (some (body, later))) :
    4 + body.length + (bytesOf later).length ≤ decoder.buf.length + (bytesOf stdin).length := by
  induction stdin generalizing decoder with
  | nil => cases h
  | cons r stdin ih =>
    cases r with
    | error e => cases h
    | ok buf =>
      rw [bytesOf, List.length_append]
      by_cases hhead : ∃ body rest, frameLook (decoder.buf ++ buf.val) = .item (.ok body) rest
      · obtain ⟨body', rest, hlook⟩ := hhead
        rw [firstFrame_of_head hlook] at h
        cases h
        have hlen := congrArg List.length (frameLook_ok hlook)
        simp only [List.length_append, toBeBytes, List.length_cons, List.length_nil] at hlen
        omega
      · rw [firstFrame_of_not_head decoder fun body rest hl => hhead ⟨body, rest, hl⟩] at h
        have hle := length_drain_le stable_frameLook (decoder.buf ++ buf.val)
        have hrest := ih h
        rw [List.length_append] at hle
        change _ ≤ (drain frameLook (decoder.buf ++ buf.val)).buf.length + _ at hrest
        omega

/-- What the peek finds when the first well-formed frame comes first in its read. -/
theorem firstFrame_of_first {held : List UInt8} {stream : Stdin} {f : First}
    (h : first? held stream = some f) :
    ∃ body rest, frameLook f.found = .item (.ok body) rest ∧
      (f.before = [] → firstFrame ⟨held⟩ stream = .ok (some (body, f.later))) ∧
      (f.before ≠ [] → ∀ body' later, firstFrame ⟨held⟩ stream = .ok (some (body', later)) →
        4 + body'.length + (bytesOf later).length ≤ rest.length + (bytesOf f.later).length) := by
  induction stream generalizing held with
  | nil => cases h
  | cons r stdin ih =>
    cases r with
    | error e => cases h
    | ok buf =>
      cases hseek : seek frameLook isOk (held ++ buf.val) with
      | none =>
        -- no frame so far: the loop reads on
        have hnot : ∀ body rest, frameLook (held ++ buf.val) ≠ .item (.ok body) rest :=
          fun body rest hl => by
            rw [seek_of_pos hl rfl] at hseek
            cases hseek
        rw [first?, hseek] at h
        rw [firstFrame_of_not_head ⟨held⟩ hnot]
        exact ih h
      | some parts =>
        obtain ⟨before, found⟩ := parts
        rw [first?, hseek] at h
        cases h
        obtain ⟨c, rest, hfound, hok, -, hbuf, hhead⟩ := seek_eq_some stable_frameLook _ hseek
        cases c with
        | error e => cases hok
        | ok body =>
          refine ⟨body, rest, hfound, fun hnil => ?_, fun hne body' later hfirst => ?_⟩
          · exact firstFrame_of_head (hhead hnil ▸ hfound)
          · -- the loop drains the buffer and is left with what no later frame takes
            have hnot : ∀ body rest, frameLook (held ++ buf.val) ≠ .item (.ok body) rest :=
              fun body rest hl => by
                rw [seek_of_pos hl rfl] at hseek
                cases hseek
                exact hne rfl
            rw [firstFrame_of_not_head ⟨held⟩ hnot] at hfirst
            have hle := length_firstFrame_le hfirst
            have hrest := length_drain_le stable_frameLook rest
            rw [drain_item stable_frameLook hfound] at hbuf
            change _ ≤ (drain frameLook (held ++ buf.val)).buf.length + _ at hle
            rw [hbuf] at hle
            exact Nat.le_trans hle (Nat.add_le_add_right hrest _)

/-! ### What is kept -/

/-- **A peek keeps the stream exactly when the first frame comes alone.** -/
theorem peek_keeps_iff (fromSlice : List UInt8 → Option Json) (stream : Stdin) :
    Keeps fromSlice stream ↔ Alone fromSlice stream := by
  refine forall_congr' fun f => forall_congr' fun body => forall_congr' fun rest =>
    forall_congr' fun hf => forall_congr' fun hopens => ?_
  obtain ⟨hfound, hprobe⟩ := hopens
  obtain ⟨body', rest', hfound', hhead, hlater⟩ := firstFrame_of_first hf
  rw [hfound] at hfound'
  cases hfound'
  have hbytes := frameLook_ok hfound
  by_cases hbefore : f.before = []
  · -- the frame is made anew, and what the decoder holds behind it is lost
    have hhandled : handleRuntimeConnection fromSlice stream =
        .session ⟨toBeBytes (UInt32.ofNat body.length) ++ body, 0, bytesOf f.later⟩ := by
      rw [handleRuntimeConnection, FrameDecoder.new, hhead hbefore]
      simp [hprobe]
    rw [hhandled, Handled.reads_session_iff, CombinedReader.bytes, List.drop_zero]
    constructor
    · intro h
      have hlen := congrArg List.length (h.trans (congrArg (· ++ bytesOf f.later) hbytes))
      simp only [List.length_append] at hlen
      exact ⟨hbefore, List.eq_nil_of_length_eq_zero (by omega)⟩
    · rintro ⟨-, rfl⟩
      rw [First.bytes, hbytes, List.append_nil]
  · refine iff_of_false ?_ fun h => hbefore h.1
    rintro ⟨reader, hsession, hreads⟩
    rw [handleRuntimeConnection, FrameDecoder.new] at hsession
    cases hfirst : firstFrame ⟨[]⟩ stream with
    | error e =>
      rw [hfirst] at hsession
      cases hsession
    | ok result =>
      cases result with
      | none =>
        rw [hfirst] at hsession
        cases hsession
      | some parts =>
        obtain ⟨body', later⟩ := parts
        rw [hfirst] at hsession
        dsimp only at hsession
        split at hsession
        · cases hsession
        · cases hsession
          have hle := hlater hbefore body' later hfirst
          have hlen := congrArg List.length ((hreads []).trans
            (congrArg (· ++ bytesOf f.later) hbytes))
          simp only [CombinedReader.received, CombinedReader.bytes, List.nil_append,
            List.drop_zero, List.length_append, toBeBytes, List.length_cons,
            List.length_nil] at hlen
          omega

/-- Two frames, which one read brings together. -/
def twoFrames : Stdin := [.ok ⟨[0, 0, 0, 1, 123, 0, 0, 0, 1, 125], by decide, by decide⟩]

/-- **The second of two frames in one read is lost.** -/
theorem not_keeps : ¬ Keeps (fun _ => none) twoFrames := by
  intro h
  have hreads := h ⟨[], [0, 0, 0, 1, 123, 0, 0, 0, 1, 125], []⟩ [123] [0, 0, 0, 1, 125] rfl
    ⟨rfl, rfl⟩
  have hhandled : handleRuntimeConnection (fun _ => none) twoFrames =
      .session ⟨[0, 0, 0, 1, 123], 0, []⟩ := rfl
  rw [hhandled, Handled.reads_session_iff] at hreads
  exact absurd hreads (by decide)

end Peek
end Pantoken
