import Mathlib.Data.List.Forall2
import Pantoken.Lib.Incremental

/-!
# The framing codec

A frame is a 4-byte big-endian length followed by that many bytes of JSON.  The encoder
refuses a body over the limit.  The decoder keeps the bytes it was pushed and takes frames
off the front; a declared length over the limit empties the buffer, and a frame without a
body is reported as an error of its own.

## Main definitions

* `toBeBytes`, `fromBeBytes` — the length prefix.
* `encodeJson`, `frameLook`, `FrameDecoder` — the encoder, the body of the decoder's loop,
  the decoder.
* `Encoded`, `EndsInside` — encoded frames, and the parts of them that stop inside a frame.
* `RoundTrips` — what the codec promises of a list of bodies.

## Main results

* `stable_frameLook` — the loop's body decides on a prefix of the buffer.
* `drain_encoded` — encoded frames are taken off the front of any buffer, one by one.
* `roundtrip_of_ne_nil` — **the bodies come back under any chunking.**
* `pushAll_chunk_invariant` — **what a stream yields, whatever its cuts.**
-/

namespace Pantoken

open Incremental

/-! ### The code -/

/-- `MAX_FRAME_BYTES` -/
def maxFrameBytes : ℕ := 16 * 1024 * 1024

inductive FrameError
  | oversized (declared : UInt32) (limit : ℕ)
  | jsonTooLarge
  | invalidUtf8
  | truncated
  | malformedJson (error : String)
  | empty
  deriving DecidableEq, Repr

/-- The bytes of a `u32`, most significant first. -/
def toBeBytes (n : UInt32) : List UInt8 :=
  [UInt8.ofNat (n.toNat / 16777216), UInt8.ofNat (n.toNat / 65536), UInt8.ofNat (n.toNat / 256),
    UInt8.ofNat n.toNat]

/-- The `u32` of four bytes, most significant first. -/
def fromBeBytes (a b c d : UInt8) : UInt32 :=
  UInt32.ofNat (((a.toNat * 256 + b.toNat) * 256 + c.toNat) * 256 + d.toNat)

/-- `encode_json` -/
def encodeJson (json : List UInt8) : Except FrameError (List UInt8) :=
  if maxFrameBytes < json.length then .error .jsonTooLarge
  else .ok (toBeBytes (UInt32.ofNat json.length) ++ json)

/-- What `push` reports for the body of a complete frame. -/
def bodyResult (body : List UInt8) : Except FrameError (List UInt8) :=
  if body.isEmpty then .error .empty else .ok body

/-- The body of the loop in `push`: wait, report an oversized frame and clear the buffer,
or take a frame off its front. -/
def frameLook (buf : List UInt8) : Look UInt8 (Except FrameError (List UInt8)) :=
  match buf with
  | a :: b :: c :: d :: _ =>
    let declared := fromBeBytes a b c d
    if maxFrameBytes < declared.toNat then .flush (.error (.oversized declared maxFrameBytes))
    else
      let total := 4 + declared.toNat
      if buf.length < total then .more
      else .item (bodyResult ((buf.take total).drop 4)) (buf.drop total)
  | _ => .more

structure FrameDecoder where
  buf : List UInt8
  deriving DecidableEq

namespace FrameDecoder

/-- `FrameDecoder::new` -/
def new : FrameDecoder := ⟨[]⟩

/-- `FrameDecoder::push`: the results, and the decoder after it. -/
def push (dec : FrameDecoder) (bytes : List UInt8) :
    List (Except FrameError (List UInt8)) × FrameDecoder :=
  let drained := drain frameLook (dec.buf ++ bytes)
  (drained.items, ⟨drained.buf⟩)

/-- `FrameDecoder::finish` -/
def finish (dec : FrameDecoder) : Option FrameError :=
  if dec.buf.isEmpty then none else some .truncated

/-- Push chunks one after the other: the results in order, and the decoder after them. -/
def pushAll (dec : FrameDecoder) :
    List (List UInt8) → List (Except FrameError (List UInt8)) × FrameDecoder
  | [] => ([], dec)
  | chunk :: chunks =>
    let (rs, dec') := dec.push chunk
    let (rs', dec'') := dec'.pushAll chunks
    (rs ++ rs', dec'')

end FrameDecoder

/-! ### The length prefix -/

/-- A byte of a number, as a number. -/
theorem toNat_ofNat_byte (n : ℕ) : (UInt8.ofNat n).toNat = n % 256 := by
  simp

theorem fromBeBytes_toNat (a b c d : UInt8) :
    (fromBeBytes a b c d).toNat
      = ((a.toNat * 256 + b.toNat) * 256 + c.toNat) * 256 + d.toNat := by
  have ha := a.toNat_lt
  have hb := b.toNat_lt
  have hc := c.toNat_lt
  have hd := d.toNat_lt
  unfold fromBeBytes
  rw [UInt32.toNat_ofNat']
  omega

/-- The prefix read back is the number written. -/
theorem fromBeBytes_bytes (n : UInt32) :
    fromBeBytes (UInt8.ofNat (n.toNat / 16777216)) (UInt8.ofNat (n.toNat / 65536))
      (UInt8.ofNat (n.toNat / 256)) (UInt8.ofNat n.toNat) = n := by
  have hn := n.toNat_lt
  apply UInt32.toNat_inj.mp
  rw [fromBeBytes_toNat]
  simp only [toNat_ofNat_byte]
  omega

/-! ### One look -/

theorem bodyResult_of_ne_nil {body : List UInt8} (h : body ≠ []) :
    bodyResult body = .ok body := by
  cases body with
  | nil => exact absurd rfl h
  | cons b body => rfl

/-- A frame in the buffer, once its length is known. -/
theorem frameLook_cons (a b c d : UInt8) (rest : List UInt8) :
    frameLook (a :: b :: c :: d :: rest)
      = if maxFrameBytes < (fromBeBytes a b c d).toNat then
          .flush (.error (.oversized (fromBeBytes a b c d) maxFrameBytes))
        else if rest.length < (fromBeBytes a b c d).toNat then .more
        else .item (bodyResult (rest.take (fromBeBytes a b c d).toNat))
          (rest.drop (fromBeBytes a b c d).toNat) := by
  have hlen : (a :: b :: c :: d :: rest).length < 4 + (fromBeBytes a b c d).toNat
      ↔ rest.length < (fromBeBytes a b c d).toNat := by
    simp only [List.length_cons]
    omega
  have htotal : 4 + (fromBeBytes a b c d).toNat = (fromBeBytes a b c d).toNat + 1 + 1 + 1 + 1 := by
    omega
  simp only [frameLook, hlen]
  rw [htotal]
  simp only [List.take_succ_cons, List.drop_succ_cons, List.drop_zero]

/-- Fewer than four bytes are not a length yet. -/
theorem frameLook_short {buf : List UInt8} (h : buf.length < 4) : frameLook buf = .more := by
  rcases buf with _ | ⟨a, _ | ⟨b, _ | ⟨c, _ | ⟨d, rest⟩⟩⟩⟩
  · rfl
  · rfl
  · rfl
  · rfl
  · simp only [List.length_cons] at h
    omega

/-- Four bytes are. -/
theorem exists_cons_of_four_le {buf : List UInt8} (h : 4 ≤ buf.length) :
    ∃ a b c d rest, buf = a :: b :: c :: d :: rest := by
  rcases buf with _ | ⟨a, _ | ⟨b, _ | ⟨c, _ | ⟨d, rest⟩⟩⟩⟩
  · simp at h
  · simp at h
  · simp at h
  · simp at h
  · exact ⟨a, b, c, d, rest, rfl⟩

/-- What a look can find: nothing yet, a length over the limit, or a whole frame. -/
theorem frameLook_cases (buf : List UInt8) :
    frameLook buf = .more ∨
    (∃ a b c d rest, buf = a :: b :: c :: d :: rest ∧
      maxFrameBytes < (fromBeBytes a b c d).toNat ∧
      frameLook buf = .flush (.error (.oversized (fromBeBytes a b c d) maxFrameBytes))) ∨
    ∃ a b c d body rest, buf = a :: b :: c :: d :: (body ++ rest) ∧
      (fromBeBytes a b c d).toNat = body.length ∧ body.length ≤ maxFrameBytes ∧
      frameLook buf = .item (bodyResult body) rest := by
  rcases Nat.lt_or_ge buf.length 4 with hshort | hlong
  · exact .inl (frameLook_short hshort)
  · obtain ⟨a, b, c, d, rest, rfl⟩ := exists_cons_of_four_le hlong
    rw [frameLook_cons]
    by_cases hover : maxFrameBytes < (fromBeBytes a b c d).toNat
    · exact .inr (.inl ⟨a, b, c, d, rest, rfl, hover, if_pos hover⟩)
    · rw [if_neg hover]
      by_cases hwait : rest.length < (fromBeBytes a b c d).toNat
      · exact .inl (if_pos hwait)
      · have hbody : (rest.take (fromBeBytes a b c d).toNat).length
            = (fromBeBytes a b c d).toNat := by
          rw [List.length_take]
          omega
        refine .inr (.inr ⟨a, b, c, d, _, _, ?_, hbody.symm, by omega, if_neg hwait⟩)
        rw [List.take_append_drop]

/-- A whole frame at the front of a buffer is taken off it. -/
theorem frameLook_frame {a b c d : UInt8} {body : List UInt8}
    (hlen : (fromBeBytes a b c d).toNat = body.length) (hle : body.length ≤ maxFrameBytes)
    (rest : List UInt8) :
    frameLook (a :: b :: c :: d :: (body ++ rest)) = .item (bodyResult body) rest := by
  rw [frameLook_cons, hlen, if_neg (by omega), if_neg (by simp)]
  simp

/-- An oversized length at the front of a buffer is reported, whatever follows. -/
theorem frameLook_oversized {a b c d : UInt8}
    (hover : maxFrameBytes < (fromBeBytes a b c d).toNat) (rest : List UInt8) :
    frameLook (a :: b :: c :: d :: rest)
      = .flush (.error (.oversized (fromBeBytes a b c d) maxFrameBytes)) := by
  rw [frameLook_cons, if_pos hover]

/-- **The loop's body decides on a prefix of the buffer.** -/
theorem stable_frameLook : Stable frameLook where
  nil := rfl
  shorter := by
    intro buf r rest hl
    rcases frameLook_cases buf with hm | ⟨_, _, _, _, _, _, _, hf⟩ |
      ⟨a, b, c, d, body, rest', rfl, _, _, hi⟩
    · rw [hm] at hl
      cases hl
    · rw [hf] at hl
      cases hl
    · rw [hi] at hl
      cases hl
      simp only [List.length_cons, List.length_append]
      omega
  item := by
    intro buf r rest hl bytes
    rcases frameLook_cases buf with hm | ⟨_, _, _, _, _, _, _, hf⟩ |
      ⟨a, b, c, d, body, rest', rfl, hlen, hle, hi⟩
    · rw [hm] at hl
      cases hl
    · rw [hf] at hl
      cases hl
    · rw [hi] at hl
      cases hl
      have happ : a :: b :: c :: d :: (body ++ rest) ++ bytes
          = a :: b :: c :: d :: (body ++ (rest ++ bytes)) := by simp
      rw [happ, frameLook_frame hlen hle]
  flush := by
    intro buf r hl bytes
    rcases frameLook_cases buf with hm | ⟨a, b, c, d, rest, rfl, hover, hf⟩ |
      ⟨_, _, _, _, _, _, _, _, _, hi⟩
    · rw [hm] at hl
      cases hl
    · rw [hf] at hl
      cases hl
      exact frameLook_oversized hover _
    · rw [hi] at hl
      cases hl

/-! ### Encoded frames -/

/-- `frames` are what the encoder makes of `bodies`. -/
def Encoded (bodies frames : List (List UInt8)) : Prop :=
  List.Forall₂ (fun body frame => encodeJson body = .ok frame) bodies frames

theorem encodeJson_eq_ok {body frame : List UInt8} :
    encodeJson body = .ok frame ↔
      body.length ≤ maxFrameBytes ∧ frame = toBeBytes (UInt32.ofNat body.length) ++ body := by
  unfold encodeJson
  by_cases hover : maxFrameBytes < body.length
  · rw [if_pos hover]
    constructor
    · intro h
      cases h
    · rintro ⟨hle, -⟩
      omega
  · rw [if_neg hover]
    constructor
    · intro h
      cases h
      exact ⟨by omega, rfl⟩
    · rintro ⟨-, rfl⟩
      rfl

/-- A body the encoder takes is short enough for its length to be written in full. -/
theorem toNat_ofNat_length {body : List UInt8} (h : body.length ≤ maxFrameBytes) :
    (UInt32.ofNat body.length).toNat = body.length := by
  have hmax : maxFrameBytes = 16777216 := rfl
  rw [UInt32.toNat_ofNat']
  omega

/-- An encoded frame is taken off the front of any buffer. -/
theorem frameLook_encoded {body frame : List UInt8} (h : encodeJson body = .ok frame)
    (rest : List UInt8) : frameLook (frame ++ rest) = .item (bodyResult body) rest := by
  obtain ⟨hle, rfl⟩ := encodeJson_eq_ok.mp h
  have hlen := (congrArg UInt32.toNat (fromBeBytes_bytes (UInt32.ofNat body.length))).trans
    (toNat_ofNat_length hle)
  exact frameLook_frame hlen hle rest

/-- A frame short of its end is waited for. -/
theorem frameLook_part {body part tail : List UInt8} (h : encodeJson body = .ok (part ++ tail))
    (htail : tail ≠ []) : frameLook part = .more := by
  have hlook := frameLook_encoded h []
  rw [List.append_nil] at hlook
  exact stable_frameLook.more_of_append hlook htail

/-- **Encoded frames are taken off the front of a buffer, one by one.** -/
theorem drain_encoded {bodies frames : List (List UInt8)} (h : Encoded bodies frames)
    (tail : List UInt8) :
    drain frameLook (frames.flatten ++ tail)
      = (drain frameLook tail).prepend (bodies.map bodyResult) := by
  induction h with
  | nil => rfl
  | cons hbody _ ih =>
    rw [List.flatten_cons, List.append_assoc,
      drain_item stable_frameLook (frameLook_encoded hbody _), ih]
    rfl

theorem map_bodyResult {bodies : List (List UInt8)} (h : ∀ body ∈ bodies, body ≠ []) :
    bodies.map bodyResult = bodies.map .ok :=
  List.map_congr_left fun body hbody => bodyResult_of_ne_nil (h body hbody)

/-! ### Pushing chunks -/

namespace FrameDecoder

/-- Pushing chunks is what feeding them to the look is. -/
theorem pushAll_eq (dec : FrameDecoder) (chunks : List (List UInt8)) :
    dec.pushAll chunks
      = ((results frameLook dec.buf chunks).flatten, ⟨leftover frameLook dec.buf chunks⟩) := by
  induction chunks generalizing dec with
  | nil => rfl
  | cons chunk chunks ih => simp only [pushAll, push, ih, results_cons, leftover_cons,
      List.flatten_cons]

theorem pushAll_append (dec : FrameDecoder) (xs ys : List (List UInt8)) :
    dec.pushAll (xs ++ ys)
      = ((dec.pushAll xs).1 ++ ((dec.pushAll xs).2.pushAll ys).1,
        ((dec.pushAll xs).2.pushAll ys).2) := by
  simp only [pushAll_eq, results_append, leftover_append, List.flatten_append]

/-- As long as nothing empties the buffer, chunks yield what their concatenation does. -/
theorem pushAll_of_not_flushed {chunks : List (List UInt8)}
    (h : (drain frameLook chunks.flatten).flushed = false) :
    new.pushAll chunks
      = ((drain frameLook chunks.flatten).items, ⟨(drain frameLook chunks.flatten).buf⟩) := by
  have hnil : frameLook [] = .more := rfl
  obtain ⟨hitems, hbuf⟩ := results_eq_drain stable_frameLook hnil chunks h
  rw [pushAll_eq]
  show ((results frameLook [] chunks).flatten, FrameDecoder.mk (leftover frameLook [] chunks)) = _
  rw [hitems, hbuf]
  rfl

/-- Once something does, they yield the same up to the chunk that shows it, and the
decoder is as new after that chunk. -/
theorem pushAll_of_flushed {chunks : List (List UInt8)}
    (h : (drain frameLook chunks.flatten).flushed = true) :
    ∃ pre chunk post, chunks = pre ++ chunk :: post ∧
      (drain frameLook pre.flatten).flushed = false ∧
      new.pushAll (pre ++ [chunk]) = ((drain frameLook chunks.flatten).items, new) := by
  have hnil : frameLook [] = .more := rfl
  obtain ⟨pre, chunk, post, hsplit, hpre, hitems, hleft⟩ :=
    results_of_flushed stable_frameLook hnil chunks h
  refine ⟨pre, chunk, post, hsplit, hpre, ?_⟩
  rw [pushAll_eq]
  show ((results frameLook [] (pre ++ [chunk])).flatten,
    FrameDecoder.mk (leftover frameLook [] (pre ++ [chunk]))) = _
  rw [hitems, hleft]
  rfl

end FrameDecoder

/-! ### The bodies come back -/

/-- A part of the stream that ends inside a frame: no number of whole frames. -/
def EndsInside (frames : List (List UInt8)) (part : List UInt8) : Prop :=
  part <+: frames.flatten ∧ ∀ k, part ≠ (frames.take k).flatten

/-- Such a part is whole frames and the beginning of one more. -/
theorem EndsInside.split {bodies frames : List (List UInt8)} {part : List UInt8}
    (hframes : Encoded bodies frames) (h : EndsInside frames part) :
    ∃ k body beginning tail, encodeJson body = .ok (beginning ++ tail) ∧ beginning ≠ [] ∧
      tail ≠ [] ∧ Encoded (bodies.take k) (frames.take k) ∧
      part = (frames.take k).flatten ++ beginning := by
  induction hframes generalizing part with
  | nil =>
    obtain ⟨hpart, hk⟩ := h
    exact absurd (List.prefix_nil.mp hpart) (hk 0)
  | @cons body frame bodies frames hbody hrest ih =>
    obtain ⟨hpart, hk⟩ := h
    rw [List.flatten_cons] at hpart
    obtain ⟨after, hafter⟩ := hpart
    rcases List.append_eq_append_iff.mp hafter with ⟨tail, rfl, -⟩ | ⟨part', rfl, hpart'⟩
    · have htail : tail ≠ [] := by
        rintro rfl
        exact hk 1 (by simp)
      exact ⟨0, body, part, tail, hbody, fun hnil => hk 0 (by simp [hnil]), htail,
        List.Forall₂.nil, rfl⟩
    · have hk' : ∀ k, part' ≠ (frames.take k).flatten := by
        intro k heq
        exact hk (k + 1) (by simp [heq])
      obtain ⟨k, body', beginning, tail, hbody', hne, htail, henc, rfl⟩ :=
        ih ⟨⟨after, hpart'.symm⟩, hk'⟩
      exact ⟨k + 1, body', beginning, tail, hbody', hne, htail, henc.cons hbody, by simp⟩

/-- Any bodies that encode are reported as they came, an empty one as an error. -/
theorem pushAll_encoded {bodies frames chunks : List (List UInt8)} (h : Encoded bodies frames)
    {tail : List UInt8} (htail : frameLook tail = .more)
    (hchunks : chunks.flatten = frames.flatten ++ tail) :
    FrameDecoder.new.pushAll chunks = (bodies.map bodyResult, ⟨tail⟩) := by
  have hdrain : drain frameLook chunks.flatten = ⟨bodies.map bodyResult, tail, false⟩ := by
    rw [hchunks, drain_encoded h, drain_more htail]
    simp [Drained.prepend]
  have hnot : (drain frameLook chunks.flatten).flushed = false := by rw [hdrain]
  rw [FrameDecoder.pushAll_of_not_flushed hnot, hdrain]

/-- What the codec promises of a list of bodies: each alone is accepted, all of them come
back in order under any chunking and leave nothing, and a stream that stops inside a frame
is reported as truncated. -/
structure RoundTrips (bodies : List (List UInt8)) : Prop where
  accepted : ∀ body ∈ bodies, ∀ frame, encodeJson body = .ok frame →
    FrameDecoder.new.push frame = ([.ok body], FrameDecoder.new)
  decoded : ∀ frames, Encoded bodies frames → ∀ chunks : List (List UInt8),
    chunks.flatten = frames.flatten →
    (FrameDecoder.new.pushAll chunks).1 = bodies.map .ok ∧
      (FrameDecoder.new.pushAll chunks).2.finish = none
  truncated : ∀ frames, Encoded bodies frames → ∀ chunks : List (List UInt8),
    EndsInside frames chunks.flatten →
    (FrameDecoder.new.pushAll chunks).2.finish = some .truncated

/-- **The bodies come back under any chunking**, when none of them is empty. -/
theorem roundtrip_of_ne_nil (bodies : List (List UInt8)) (hne : ∀ body ∈ bodies, body ≠ []) :
    RoundTrips bodies where
  accepted := by
    intro body hbody frame henc
    have hlook : frameLook (FrameDecoder.new.buf ++ frame) = .item (bodyResult body) [] := by
      have := frameLook_encoded henc []
      rwa [List.append_nil] at this
    unfold FrameDecoder.push
    rw [drain_item stable_frameLook hlook, bodyResult_of_ne_nil (hne body hbody)]
    rfl
  decoded := by
    intro frames henc chunks hchunks
    have hnil : frameLook [] = .more := rfl
    rw [pushAll_encoded henc hnil (by simpa using hchunks), map_bodyResult hne]
    exact ⟨rfl, rfl⟩
  truncated := by
    intro frames henc chunks hinside
    obtain ⟨k, body, beginning, tail, hbody, hbegin, htail, htake, hcut⟩ := hinside.split henc
    rw [pushAll_encoded htake (frameLook_part hbody htail) hcut]
    simp [FrameDecoder.finish, hbegin]

theorem roundtrip_of_ne_nil_two : RoundTrips [[123], [125]] :=
  roundtrip_of_ne_nil [[123], [125]] (by decide)

/-- The encoder takes a body without bytes, the decoder reports it as an error. -/
theorem not_roundtrips_nil : ¬ RoundTrips [[]] := by
  intro h
  have hpush := h.accepted [] (by simp) [0, 0, 0, 0] rfl
  exact absurd hpush (by decide)

/-! ### Arbitrary bytes -/

/-- An oversized declaration, the one result after which the buffer is empty. -/
def isOversized : Except FrameError (List UInt8) → Bool
  | .error (.oversized ..) => true
  | _ => false

theorem isOversized_bodyResult (body : List UInt8) : isOversized (bodyResult body) = false := by
  cases body with
  | nil => rfl
  | cons b body => rfl

theorem isOversized_of_item {buf rest : List UInt8} {r : Except FrameError (List UInt8)}
    (h : frameLook buf = .item r rest) : isOversized r = false := by
  rcases frameLook_cases buf with hm | ⟨_, _, _, _, _, _, _, hf⟩ |
    ⟨_, _, _, _, body, _, _, _, _, hi⟩
  · rw [hm] at h
    cases h
  · rw [hf] at h
    cases h
  · rw [hi] at h
    cases h
    exact isOversized_bodyResult body

theorem isOversized_of_flush {buf : List UInt8} {r : Except FrameError (List UInt8)}
    (h : frameLook buf = .flush r) : isOversized r = true := by
  rcases frameLook_cases buf with hm | ⟨_, _, _, _, _, _, _, hf⟩ |
    ⟨_, _, _, _, _, _, _, _, _, hi⟩
  · rw [hm] at h
    cases h
  · rw [hf] at h
    cases h
    rfl
  · rw [hi] at h
    cases h

/-- The buffer is thrown away exactly when an oversized declaration is reported. -/
theorem flushed_iff_isOversized (bytes : List UInt8) :
    (drain frameLook bytes).flushed = true
      ↔ ∃ r ∈ (drain frameLook bytes).items, isOversized r = true :=
  flushed_iff stable_frameLook isOversized_of_item isOversized_of_flush bytes

/-- The results of the whole stream pushed at once: those of any chunking, up to the first
oversized declaration. -/
theorem throughFirst_pushAll (chunks : List (List UInt8)) :
    throughFirst isOversized (FrameDecoder.new.pushAll chunks).1
      = (drain frameLook chunks.flatten).items := by
  cases hf : (drain frameLook chunks.flatten).flushed with
  | false =>
    rw [FrameDecoder.pushAll_of_not_flushed hf]
    exact throughFirst_drain stable_frameLook isOversized_of_item _
  | true =>
    obtain ⟨pre, chunk, post, hsplit, -, hpush⟩ := FrameDecoder.pushAll_of_flushed hf
    have hcut : chunks = (pre ++ [chunk]) ++ post := by simp [hsplit]
    have hover := (flushed_iff_isOversized chunks.flatten).mp hf
    conv_lhs => rw [hcut]
    rw [FrameDecoder.pushAll_append, hpush]
    show throughFirst isOversized ((drain frameLook chunks.flatten).items ++ _) = _
    rw [throughFirst_append_of_mem _ hover]
    exact throughFirst_drain stable_frameLook isOversized_of_item _

/-- **What a stream yields, whatever its cuts.**  Two cuts of one stream give the same
bodies and errors through the first oversized declaration, and all of them when there is
none.  The chunk that shows such a declaration is lost behind it, and the chunks after that
one are decoded as by a new decoder. -/
theorem pushAll_chunk_invariant (chunks chunks' : List (List UInt8))
    (h : chunks.flatten = chunks'.flatten) :
    throughFirst isOversized (FrameDecoder.new.pushAll chunks).1
        = throughFirst isOversized (FrameDecoder.new.pushAll chunks').1 ∧
      ((∀ r ∈ (FrameDecoder.new.pushAll chunks).1, isOversized r = false) →
        FrameDecoder.new.pushAll chunks = FrameDecoder.new.pushAll chunks') ∧
      ((∃ r ∈ (FrameDecoder.new.pushAll chunks).1, isOversized r = true) →
        ∃ pre chunk post, chunks = pre ++ chunk :: post ∧
          (∀ r ∈ (FrameDecoder.new.pushAll pre).1, isOversized r = false) ∧
          (FrameDecoder.new.pushAll chunks).1
            = throughFirst isOversized (FrameDecoder.new.pushAll chunks).1
              ++ (FrameDecoder.new.pushAll post).1) := by
  refine ⟨?_, ?_, ?_⟩
  · rw [throughFirst_pushAll, throughFirst_pushAll, h]
  · intro hnone
    have hf : (drain frameLook chunks.flatten).flushed = false := by
      apply Bool.eq_false_iff.mpr
      intro hf
      obtain ⟨r, hr, hover⟩ := (flushed_iff_isOversized chunks.flatten).mp hf
      rw [← throughFirst_pushAll, throughFirst_of_none hnone] at hr
      rw [hnone r hr] at hover
      exact Bool.false_ne_true hover
    rw [FrameDecoder.pushAll_of_not_flushed hf, FrameDecoder.pushAll_of_not_flushed (h ▸ hf), h]
  · intro hsome
    have hf : (drain frameLook chunks.flatten).flushed = true := by
      apply (flushed_iff_isOversized chunks.flatten).mpr
      rw [← throughFirst_pushAll]
      exact exists_mem_throughFirst.mpr hsome
    obtain ⟨pre, chunk, post, hsplit, hpre, hpush⟩ := FrameDecoder.pushAll_of_flushed hf
    refine ⟨pre, chunk, post, hsplit, ?_, ?_⟩
    · rw [FrameDecoder.pushAll_of_not_flushed hpre]
      intro r hr
      apply Bool.eq_false_iff.mpr
      intro hover
      have hflushed := (flushed_iff_isOversized pre.flatten).mpr ⟨r, hr, hover⟩
      rw [hpre] at hflushed
      exact Bool.false_ne_true hflushed
    · have hcut : chunks = (pre ++ [chunk]) ++ post := by simp [hsplit]
      rw [throughFirst_pushAll]
      conv_lhs => rw [hcut]
      rw [FrameDecoder.pushAll_append, hpush]

theorem pushAll_chunk_invariant_split :
    throughFirst isOversized (FrameDecoder.new.pushAll [[2, 0], [0, 0, 7]]).1
        = throughFirst isOversized (FrameDecoder.new.pushAll [[2, 0, 0, 0, 7]]).1 :=
  (pushAll_chunk_invariant [[2, 0], [0, 0, 7]] [[2, 0, 0, 0, 7]] rfl).1

/-- A frame behind an oversized declaration is decoded when a new chunk begins with it, and
lost when it comes in the same chunk. -/
theorem not_pushAll_chunk_invariant :
    ¬ ∀ chunks chunks' : List (List UInt8), chunks.flatten = chunks'.flatten →
      (FrameDecoder.new.pushAll chunks).1 = (FrameDecoder.new.pushAll chunks').1 := by
  intro h
  have heq := h [[2, 0, 0, 0, 0, 0, 0, 1, 123]] [[2, 0, 0, 0], [0, 0, 0, 1, 123]] rfl
  exact absurd heq (by decide)

/-! ### Envelopes -/

/-- `WireEnvelope` -/
structure WireEnvelope (M : Type*) where
  message : M
  deriving DecidableEq

/-- Reading and writing envelopes as JSON text, which the codec takes from its library. -/
structure EnvelopeSerde (M : Type*) where
  /-- The text `serde_json::to_vec` writes. -/
  toText : WireEnvelope M → Except String String
  /-- `serde_json::from_str` -/
  fromStr : String → Except String (WireEnvelope M)

/-- The UTF-8 bytes of a text. -/
def utf8 (s : String) : List UInt8 := s.toUTF8.data.toList

/-- `std::str::from_utf8` -/
def fromUtf8 (bytes : List UInt8) : Option String := String.fromUTF8? ⟨bytes.toArray⟩

section Envelope

variable {M : Type*}

/-- `encode_client` -/
def encodeClient (serde : EnvelopeSerde M) (env : WireEnvelope M) :
    Except FrameError (List UInt8) :=
  match serde.toText env with
  | .error e => .error (.malformedJson e)
  | .ok s => encodeJson (utf8 s)

/-- `decode_envelope` -/
def decodeEnvelope (serde : EnvelopeSerde M) (body : List UInt8) :
    Except FrameError (WireEnvelope M) :=
  if body.isEmpty then .error .empty
  else
    match fromUtf8 body with
    | none => .error .invalidUtf8
    | some s =>
      match serde.fromStr s with
      | .error e => .error (.malformedJson e)
      | .ok env => .ok env

/-- `decode_client` -/
def decodeClient (serde : EnvelopeSerde M) (body : List UInt8) :
    Except FrameError (WireEnvelope M) :=
  decodeEnvelope serde body

/-- The bytes JSON may put in front of an object or an array, and the two brackets. -/
def opensJson : List UInt8 := [0x20, 0x09, 0x0a, 0x0d, 0x7b, 0x5b]

/-- What the codec relies on.  An envelope is written as an object whose only field is
`message`, without a control character, and reads back as it was; a text is read as an
envelope only when it starts like an object or an array. -/
structure EnvelopeSerde.Lawful (serde : EnvelopeSerde M) : Prop where
  reads : ∀ {env s}, serde.toText env = .ok s → serde.fromStr s = .ok env
  opens : ∀ {env s}, serde.toText env = .ok s →
    ∃ rest, utf8 s = 0x7b :: 0x22 :: 0x6d :: 0x65 :: rest
  printable : ∀ {env s}, serde.toText env = .ok s → ∀ b ∈ utf8 s, 0x20 ≤ b
  starts : ∀ {env s}, serde.fromStr s = .ok env →
    ∃ b rest, utf8 s = b :: rest ∧ b ∈ opensJson

@[simp] theorem fromUtf8_utf8 (s : String) : fromUtf8 (utf8 s) = some s := by
  unfold fromUtf8 utf8 String.fromUTF8?
  rw [dif_pos (by simpa using s.isValidUTF8)]
  rfl

/-- Bytes are a text only when they are its UTF-8. -/
theorem utf8_of_fromUtf8 {bytes : List UInt8} {s : String} (h : fromUtf8 bytes = some s) :
    utf8 s = bytes := by
  unfold fromUtf8 String.fromUTF8? at h
  by_cases hv : (ByteArray.mk bytes.toArray).IsValidUTF8
  · rw [dif_pos hv] at h
    cases h
    rfl
  · rw [dif_neg hv] at h
    cases h

variable {serde : EnvelopeSerde M} {env : WireEnvelope M}

theorem encodeClient_eq_ok {frame : List UInt8} :
    encodeClient serde env = .ok frame ↔
      ∃ s, serde.toText env = .ok s ∧ encodeJson (utf8 s) = .ok frame := by
  unfold encodeClient
  cases h : serde.toText env with
  | error e =>
    constructor
    · intro hframe
      cases hframe
    · rintro ⟨s, hs, -⟩
      cases hs
  | ok s =>
    constructor
    · intro hframe
      exact ⟨s, rfl, hframe⟩
    · rintro ⟨s', hs, hframe⟩
      cases hs
      exact hframe

/-- A written envelope is read back. -/
theorem decodeClient_utf8 (hserde : serde.Lawful) {s : String} (h : serde.toText env = .ok s) :
    decodeClient serde (utf8 s) = .ok env := by
  obtain ⟨rest, hrest⟩ := hserde.opens h
  have hne : (utf8 s).isEmpty = false := by rw [hrest]; rfl
  unfold decodeClient decodeEnvelope
  rw [hne, fromUtf8_utf8]
  simp only [hserde.reads h, Bool.false_eq_true, if_false]

/-- A body that reads as an envelope starts like JSON. -/
theorem exists_opensJson (hserde : serde.Lawful) {body : List UInt8}
    (h : decodeClient serde body = .ok env) : ∃ b rest, body = b :: rest ∧ b ∈ opensJson := by
  unfold decodeClient decodeEnvelope at h
  by_cases hempty : body.isEmpty = true
  · rw [if_pos hempty] at h
    cases h
  · rw [if_neg hempty] at h
    cases htext : fromUtf8 body with
    | none =>
      rw [htext] at h
      cases h
    | some s =>
      rw [htext] at h
      cases henv : serde.fromStr s with
      | error e =>
        simp only [henv] at h
        cases h
      | ok env' =>
        have hstarts := hserde.starts henv
        rwa [utf8_of_fromUtf8 htext] at hstarts

end Envelope

end Pantoken
