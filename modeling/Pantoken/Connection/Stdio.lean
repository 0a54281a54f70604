import Pantoken.Protocol.Frame

/-!
# The stdio transport

A stdio connection is read twice: the adapter waits for the first message, and after the
split a reader of its own waits for all later ones.  Either reads up to 8192 bytes at a
time, pushes them into a frame decoder and returns the first message of the push.

The other frames of the same push are dropped, and so is what the adapter's decoder holds
when the hello is complete.  Messages therefore survive exactly when the hello's last read
holds nothing else and no later read completes two frames.

## Main definitions

* `StdioAdapter`, `StdioReader` — the two readers and their `recv`.
* `StdioDelivers` — every message arrives, in order, and then the end.
* `SeparateReads` — the cuts under which they do.

## Main results

* `recvTimes_eq` — repeated calls return the first message of each read that has one.
* `AtMostFrames.decoded_le` — a decoder that starts inside a frame yields no more messages than
  whole frames follow.
* `stdioDelivers_iff` — **the messages arrive exactly under separate reads.**
-/

namespace Pantoken

open Incremental

variable {M : Type*}

/-! ### The code -/

/-- The bytes one `read` puts into the buffer of 8192. -/
abbrev ReadBuf := { bytes : List UInt8 // bytes ≠ [] ∧ bytes.length ≤ 8192 }

/-- What the reads of a stream return, up to its end. -/
abbrev Stdin := List (Except String ReadBuf)

/-- The loop over the results of a push: the first message that decodes. -/
def firstMessage (serde : EnvelopeSerde M) :
    List (Except FrameError (List UInt8)) → Option M
  | [] => none
  | .ok body :: results =>
    match decodeClient serde body with
    | .ok env => some env.message
    | .error _ => firstMessage serde results
  | .error _ :: results => firstMessage serde results

/-- The read loop of both `recv`: the message, and what is left of the stream and the
decoder. -/
def recvLoop (serde : EnvelopeSerde M) :
    FrameDecoder → Stdin → Option M × Stdin × FrameDecoder
  | decoder, [] => (none, [], decoder)
  | decoder, .error _ :: stdin => (none, stdin, decoder)
  | decoder, .ok buf :: stdin =>
    match firstMessage serde (decoder.push buf.val).1 with
    | some msg => (some msg, stdin, (decoder.push buf.val).2)
    | none => recvLoop serde (decoder.push buf.val).2 stdin

structure StdioAdapter where
  stdin : Stdin

structure StdioReader where
  stdin : Stdin
  decoder : FrameDecoder

/-- `StdioAdapter::recv`, with a decoder of its own. -/
def StdioAdapter.recv (serde : EnvelopeSerde M) (self : StdioAdapter) :
    Option M × StdioAdapter :=
  let (msg, stdin, _) := recvLoop serde FrameDecoder.new self.stdin
  (msg, ⟨stdin⟩)

/-- `StdioAdapter::split`, the read half. -/
def StdioAdapter.split (self : StdioAdapter) : StdioReader := ⟨self.stdin, FrameDecoder.new⟩

/-- `StdioReader::recv` -/
def StdioReader.recv (serde : EnvelopeSerde M) (self : StdioReader) : Option M × StdioReader :=
  let (msg, stdin, decoder) := recvLoop serde self.decoder self.stdin
  (msg, ⟨stdin, decoder⟩)

/-- `encode_client_frame` -/
def encodeClientFrame (serde : EnvelopeSerde M) (msg : M) : Except FrameError (List UInt8) :=
  encodeClient serde ⟨msg⟩

/-- What `n` calls of `recv` return. -/
def StdioReader.recvTimes (serde : EnvelopeSerde M) : ℕ → StdioReader → List (Option M)
  | 0, _ => []
  | n + 1, reader => (reader.recv serde).1 :: recvTimes serde n (reader.recv serde).2

/-! ### What is asked -/

/-- The connection returns the hello, then every message in order, then the end. -/
def StdioDelivers (serde : EnvelopeSerde M) (hello : M) (msgs : List M) (reads : List ReadBuf) :
    Prop :=
  ((StdioAdapter.mk (reads.map .ok)).recv serde).1 = some hello ∧
    ((StdioAdapter.mk (reads.map .ok)).recv serde).2.split.recvTimes serde (msgs.length + 1)
      = msgs.map some ++ [none]

/-- The frames for the messages. -/
def Framed (serde : EnvelopeSerde M) (msgs : List M) (frames : List (List UInt8)) : Prop :=
  List.Forall₂ (fun msg frame => encodeClientFrame serde msg = .ok frame) msgs frames

/-- The bytes of a list of reads. -/
def readBytes (reads : List ReadBuf) : List UInt8 := (reads.map Subtype.val).flatten

/-- How many of the frames end within the first `n` bytes. -/
def framesWithin : List (List UInt8) → ℕ → ℕ
  | [], _ => 0
  | frame :: frames, n =>
    if frame.length ≤ n then framesWithin frames (n - frame.length) + 1 else 0

/-- The hello has reads of its own, and no later read completes two frames. -/
def SeparateReads (hello : List UInt8) (frames : List (List UInt8)) (reads : List ReadBuf) :
    Prop :=
  ∃ pre post, reads = pre ++ post ∧ readBytes pre = hello ∧
    ∀ done buf todo, post = done ++ buf :: todo →
      framesWithin frames ((readBytes done).length + buf.val.length)
        ≤ framesWithin frames (readBytes done).length + 1

/-! ### Repeated calls -/

/-- The message of one result, if it decodes. -/
def message (serde : EnvelopeSerde M) : Except FrameError (List UInt8) → Option M
  | .ok body => (decodeClient serde body).toOption.map WireEnvelope.message
  | .error _ => none

/-- The messages among some results. -/
def decoded (serde : EnvelopeSerde M) (rs : List (Except FrameError (List UInt8))) : List M :=
  rs.filterMap (message serde)

/-- What each read completes, message by message, from the buffer `buf`. -/
def deliveries (serde : EnvelopeSerde M) (buf : List UInt8) (reads : List ReadBuf) :
    List (List M) :=
  (results frameLook buf (reads.map Subtype.val)).map (decoded serde)

variable {serde : EnvelopeSerde M}

theorem firstMessage_eq (rs : List (Except FrameError (List UInt8))) :
    firstMessage serde rs = (decoded serde rs).head? := by
  induction rs with
  | nil => rfl
  | cons r rs ih =>
    cases r with
    | error e =>
      show firstMessage serde rs = _
      rw [ih]
      rfl
    | ok body =>
      cases h : decodeClient serde body with
      | error e =>
        have hmsg : message serde (.ok body) = none := by rw [message, h]; rfl
        rw [decoded, List.filterMap_cons_none hmsg]
        simp only [firstMessage, h]
        exact ih
      | ok env =>
        have hmsg : message serde (.ok body) = some env.message := by rw [message, h]; rfl
        rw [decoded, List.filterMap_cons_some hmsg]
        simp only [firstMessage, h, List.head?_cons]

theorem deliveries_cons (buf : List UInt8) (read : ReadBuf) (reads : List ReadBuf) :
    deliveries serde buf (read :: reads)
      = decoded serde (drain frameLook (buf ++ read.val)).items
        :: deliveries serde (drain frameLook (buf ++ read.val)).buf reads := rfl

/-- A read without a message is passed over. -/
theorem recvLoop_skip {dec : FrameDecoder} {read : ReadBuf} (reads : List ReadBuf)
    (h : decoded serde (drain frameLook (dec.buf ++ read.val)).items = []) :
    recvLoop serde dec ((read :: reads).map .ok)
      = recvLoop serde ⟨(drain frameLook (dec.buf ++ read.val)).buf⟩ (reads.map .ok) := by
  have hfirst : firstMessage serde (dec.push read.val).1 = none := by
    rw [firstMessage_eq]
    show (decoded serde (drain frameLook (dec.buf ++ read.val)).items).head? = none
    rw [h]
    rfl
  simp only [List.map_cons, recvLoop, hfirst]
  rfl

/-- Of a read with messages the first is returned. -/
theorem recvLoop_take {dec : FrameDecoder} {read : ReadBuf} (reads : List ReadBuf) {msg : M}
    {others : List M}
    (h : decoded serde (drain frameLook (dec.buf ++ read.val)).items = msg :: others) :
    recvLoop serde dec ((read :: reads).map .ok)
      = (some msg, reads.map .ok, ⟨(drain frameLook (dec.buf ++ read.val)).buf⟩) := by
  have hfirst : firstMessage serde (dec.push read.val).1 = some msg := by
    rw [firstMessage_eq]
    show (decoded serde (drain frameLook (dec.buf ++ read.val)).items).head? = some msg
    rw [h]
    rfl
  simp only [List.map_cons, recvLoop, hfirst]
  rfl

/-- **Repeated calls return the first message of each read that has one**, then the end. -/
theorem recvTimes_eq (reads : List ReadBuf) (dec : FrameDecoder) (msgs : List M) :
    (StdioReader.mk (reads.map .ok) dec).recvTimes serde (msgs.length + 1)
        = msgs.map some ++ [none] ↔
      (deliveries serde dec.buf reads).filterMap List.head? = msgs := by
  induction reads generalizing dec msgs with
  | nil =>
    cases msgs with
    | nil => exact ⟨fun _ => rfl, fun _ => rfl⟩
    | cons msg msgs =>
      constructor
      · intro h
        have hhead : (none : Option M) = some msg := (List.cons.inj h).1
        cases hhead
      · intro h
        cases h
  | cons read reads ih =>
    rw [deliveries_cons]
    cases h : decoded serde (drain frameLook (dec.buf ++ read.val)).items with
    | nil =>
      rw [List.filterMap_cons_none rfl,
        ← ih ⟨(drain frameLook (dec.buf ++ read.val)).buf⟩ msgs]
      simp only [StdioReader.recvTimes, StdioReader.recv, recvLoop_skip reads h]
    | cons msg others =>
      have hhead : (msg :: others).head? = some msg := rfl
      rw [List.filterMap_cons_some hhead]
      simp only [StdioReader.recvTimes, StdioReader.recv, recvLoop_take reads h]
      cases msgs with
      | nil => simp
      | cons msg' msgs =>
        have ih' := ih ⟨(drain frameLook (dec.buf ++ read.val)).buf⟩ msgs
        simp only [List.length_cons, List.map_cons, List.cons_append, List.cons.injEq,
          Option.some.injEq]
        rw [← ih']

/-! ### Frames of messages -/

@[simp] theorem readBytes_nil : readBytes [] = [] := rfl

@[simp] theorem readBytes_cons (read : ReadBuf) (reads : List ReadBuf) :
    readBytes (read :: reads) = read.val ++ readBytes reads := rfl

@[simp] theorem readBytes_append (xs ys : List ReadBuf) :
    readBytes (xs ++ ys) = readBytes xs ++ readBytes ys := by
  simp [readBytes]

/-- Reads hold at least one byte. -/
theorem readBytes_eq_nil {reads : List ReadBuf} (h : readBytes reads = []) : reads = [] := by
  cases reads with
  | nil => rfl
  | cons read reads =>
    have hread : read.val = [] := (List.append_eq_nil_iff.mp h).1
    exact absurd hread read.property.1

/-- The frame for a message: its length, then text that reads back as the message. -/
theorem exists_text_of_framed (hserde : serde.Lawful) {msg : M} {frame : List UInt8}
    (h : encodeClientFrame serde msg = .ok frame) :
    ∃ s, serde.toText ⟨msg⟩ = .ok s ∧ encodeJson (utf8 s) = .ok frame ∧
      bodyResult (utf8 s) = .ok (utf8 s) ∧ message serde (.ok (utf8 s)) = some msg := by
  obtain ⟨s, htext, hframe⟩ := encodeClient_eq_ok.mp h
  obtain ⟨rest, hopens⟩ := hserde.opens htext
  refine ⟨s, htext, hframe, ?_, ?_⟩
  · apply bodyResult_of_ne_nil
    rw [hopens]
    exact List.cons_ne_nil _ _
  · rw [message, decodeClient_utf8 hserde htext]
    rfl

/-- A whole frame yields its message. -/
theorem drain_framed (hserde : serde.Lawful) {msg : M} {frame : List UInt8}
    (h : encodeClientFrame serde msg = .ok frame) (rest : List UInt8) :
    decoded serde (drain frameLook (frame ++ rest)).items
        = msg :: decoded serde (drain frameLook rest).items ∧
      (drain frameLook (frame ++ rest)).flushed = (drain frameLook rest).flushed := by
  obtain ⟨s, _, hframe, hresult, hmsg⟩ := exists_text_of_framed hserde h
  rw [drain_item stable_frameLook (frameLook_encoded hframe rest), hresult]
  refine ⟨?_, rfl⟩
  rw [Drained.cons_items, decoded, List.filterMap_cons_some hmsg]
  rfl

/-- Part of a frame yields nothing and is kept. -/
theorem drain_framed_part {msg : M} {part tail : List UInt8}
    (h : encodeClientFrame serde msg = .ok (part ++ tail)) (htail : tail ≠ []) :
    drain frameLook part = ⟨[], part, false⟩ := by
  obtain ⟨s, _, hframe⟩ := encodeClient_eq_ok.mp h
  exact drain_more (frameLook_part hframe htail)

theorem framesWithin_cons_of_le {frame : List UInt8} {n : ℕ} (frames : List (List UInt8))
    (h : frame.length ≤ n) :
    framesWithin (frame :: frames) n = framesWithin frames (n - frame.length) + 1 := if_pos h

theorem framesWithin_cons_of_lt {frame : List UInt8} {n : ℕ} (frames : List (List UInt8))
    (h : n < frame.length) : framesWithin (frame :: frames) n = 0 := if_neg (Nat.not_le.mpr h)

/-- The beginning of a stream of frames yields the messages whose frames end in it. -/
theorem drain_beginning (hserde : serde.Lawful) {msgs : List M} {frames : List (List UInt8)}
    (h : Framed serde msgs frames) {part : List UInt8} (hpart : part <+: frames.flatten) :
    (drain frameLook part).flushed = false ∧
      decoded serde (drain frameLook part).items
        = msgs.take (framesWithin frames part.length) := by
  induction h generalizing part with
  | nil =>
    rw [List.prefix_nil.mp hpart]
    exact ⟨rfl, rfl⟩
  | @cons msg frame msgs frames hmsg _ ih =>
    obtain ⟨after, hafter⟩ := hpart
    rw [List.flatten_cons] at hafter
    rcases Nat.lt_or_ge part.length frame.length with hlt | hge
    · rcases List.append_eq_append_iff.mp hafter with ⟨tail, rfl, -⟩ | ⟨more, rfl, -⟩
      · have htail : tail ≠ [] := by
          rintro rfl
          simp at hlt
        rw [framesWithin_cons_of_lt frames hlt, drain_framed_part hmsg htail]
        exact ⟨rfl, rfl⟩
      · simp only [List.length_append] at hlt
        omega
    · obtain ⟨more, rfl, hmore⟩ :
          ∃ more, part = frame ++ more ∧ frames.flatten = more ++ after := by
        rcases List.append_eq_append_iff.mp hafter with ⟨tail, rfl, htail⟩ | ⟨more, rfl, hmore⟩
        · have hnil : tail = [] := by
            apply List.eq_nil_of_length_eq_zero
            simp only [List.length_append] at hge
            omega
          subst hnil
          exact ⟨[], by simp, by simpa using htail.symm⟩
        · exact ⟨more, rfl, hmore⟩
      obtain ⟨hflushed, hdecoded⟩ := ih ⟨after, hmore.symm⟩
      obtain ⟨hitems, hflag⟩ := drain_framed hserde hmsg more
      have hlen : (frame ++ more).length - frame.length = more.length := by simp
      rw [framesWithin_cons_of_le frames hge, hlen, hitems, hflag, hdecoded, hflushed]
      exact ⟨rfl, rfl⟩

/-! ### Read by read -/

theorem mem_deliveries {buf : List UInt8} {reads : List ReadBuf} {x : List M} :
    x ∈ deliveries serde buf reads ↔ ∃ done read todo, reads = done ++ read :: todo ∧
      deliveries serde buf (done ++ [read]) = deliveries serde buf done ++ [x] := by
  have happ : ∀ (done : List ReadBuf) (read : ReadBuf),
      deliveries serde buf (done ++ [read]) = deliveries serde buf done
        ++ [decoded serde (drain frameLook
            (leftover frameLook buf (done.map Subtype.val) ++ read.val)).items] := by
    intro done read
    simp [deliveries, results_append]
  rw [deliveries, List.mem_map]
  constructor
  · rintro ⟨items, hitems, rfl⟩
    obtain ⟨done', chunk, todo', hsplit, rfl⟩ := mem_results.mp hitems
    obtain ⟨done, rest, rfl, rfl, hrest⟩ := List.map_eq_append_iff.mp hsplit
    obtain ⟨read, todo, rfl, rfl, rfl⟩ := List.map_eq_cons_iff.mp hrest
    exact ⟨done, read, todo, rfl, happ done read⟩
  · rintro ⟨done, read, todo, rfl, hx⟩
    rw [happ] at hx
    have hx' := List.append_cancel_left hx
    refine ⟨_, mem_results.mpr
      ⟨done.map Subtype.val, read.val, todo.map Subtype.val, ?_, rfl⟩, ?_⟩
    · simp
    · exact (List.cons.inj hx').1

theorem flatten_deliveries (buf : List UInt8) (reads : List ReadBuf) :
    (deliveries serde buf reads).flatten
      = decoded serde (results frameLook buf (reads.map Subtype.val)).flatten := by
  unfold deliveries decoded
  rw [List.filterMap_flatten]

/-- The reads so far have completed the messages whose frames end in their bytes. -/
theorem flatten_deliveries_beginning (hserde : serde.Lawful) {msgs : List M}
    {frames : List (List UInt8)} (h : Framed serde msgs frames) {done : List ReadBuf}
    (hdone : readBytes done <+: frames.flatten) :
    (deliveries serde [] done).flatten
      = msgs.take (framesWithin frames (readBytes done).length) := by
  obtain ⟨hflushed, hdecoded⟩ := drain_beginning hserde h hdone
  have hnil : frameLook [] = .more := rfl
  have hitems := (results_eq_drain stable_frameLook hnil (done.map Subtype.val) hflushed).1
  rw [flatten_deliveries, hitems]
  exact hdecoded

theorem framesWithin_le (frames : List (List UInt8)) (n : ℕ) :
    framesWithin frames n ≤ frames.length := by
  induction frames generalizing n with
  | nil => exact Nat.le_refl 0
  | cons frame frames ih =>
    rcases Nat.lt_or_ge n frame.length with hlt | hge
    · rw [framesWithin_cons_of_lt frames hlt]
      exact Nat.zero_le _
    · rw [framesWithin_cons_of_le frames hge]
      exact Nat.succ_le_succ (ih _)

theorem framesWithin_flatten (frames : List (List UInt8)) :
    framesWithin frames frames.flatten.length = frames.length := by
  induction frames with
  | nil => rfl
  | cons frame frames ih =>
    have hle : frame.length ≤ (frame :: frames).flatten.length := by simp
    have hrest : (frame :: frames).flatten.length - frame.length = frames.flatten.length := by simp
    rw [framesWithin_cons_of_le frames hle, hrest, ih]
    rfl

/-- A read completes as many messages as frames end in it. -/
theorem length_le_one_iff (hserde : serde.Lawful) {msgs : List M} {frames : List (List UInt8)}
    (h : Framed serde msgs frames) {reads : List ReadBuf}
    (hreads : readBytes reads = frames.flatten) :
    (∀ x ∈ deliveries serde [] reads, x.length ≤ 1) ↔
      ∀ done buf todo, reads = done ++ buf :: todo →
        framesWithin frames ((readBytes done).length + buf.val.length)
          ≤ framesWithin frames (readBytes done).length + 1 := by
  have hlen : msgs.length = frames.length := h.length_eq
  have hcount : ∀ done buf todo x, reads = done ++ buf :: todo →
      deliveries serde [] (done ++ [buf]) = deliveries serde [] done ++ [x] →
      framesWithin frames ((readBytes done).length + buf.val.length)
        = framesWithin frames (readBytes done).length + x.length := by
    intro done buf todo x hsplit hx
    have hdone : readBytes done <+: frames.flatten := by
      rw [← hreads, hsplit, readBytes_append]
      exact List.prefix_append _ _
    have hdone' : readBytes (done ++ [buf]) <+: frames.flatten := by
      have hcut : reads = (done ++ [buf]) ++ todo := by simp [hsplit]
      rw [← hreads, hcut, readBytes_append (done ++ [buf]) todo]
      exact List.prefix_append _ _
    have hbefore := congrArg List.length (flatten_deliveries_beginning hserde h hdone)
    have hafter := congrArg List.length (flatten_deliveries_beginning hserde h hdone')
    have hle := framesWithin_le frames (readBytes done).length
    have hle' := framesWithin_le frames (readBytes (done ++ [buf])).length
    have hbytes : (readBytes (done ++ [buf])).length
        = (readBytes done).length + buf.val.length := by simp
    rw [hx] at hafter
    rw [hbytes] at hafter hle'
    simp only [List.flatten_append, List.flatten_cons, List.flatten_nil, List.append_nil,
      List.length_append, List.length_take] at hbefore hafter
    omega
  constructor
  · intro hall done buf todo hsplit
    obtain ⟨x, hx⟩ : ∃ x, deliveries serde [] (done ++ [buf]) = deliveries serde [] done ++ [x] :=
      ⟨_, by simp only [deliveries, List.map_append, results_append]; rfl⟩
    have hmem : x ∈ deliveries serde [] reads := mem_deliveries.mpr ⟨done, buf, todo, hsplit, hx⟩
    have hone := hall x hmem
    have hxlen := hcount done buf todo x hsplit hx
    omega
  · intro hall x hmem
    obtain ⟨done, buf, todo, hsplit, hx⟩ := mem_deliveries.mp hmem
    have hone := hall done buf todo hsplit
    have hxlen := hcount done buf todo x hsplit hx
    omega

theorem length_heads_le (xss : List (List M)) :
    (xss.filterMap List.head?).length ≤ xss.flatten.length := by
  induction xss with
  | nil => exact Nat.le_refl 0
  | cons xs xss ih =>
    cases xs with
    | nil =>
      rw [List.filterMap_cons_none rfl]
      exact ih
    | cons x xs =>
      simp only [List.filterMap_cons, List.head?_cons, List.length_cons, List.flatten_cons,
        List.length_append]
      omega

/-- Nothing is lost by taking first elements exactly when there are no second ones. -/
theorem heads_eq_flatten_iff (xss : List (List M)) :
    xss.filterMap List.head? = xss.flatten ↔ ∀ xs ∈ xss, xs.length ≤ 1 := by
  induction xss with
  | nil => simp
  | cons xs xss ih =>
    rw [List.forall_mem_cons, ← ih]
    rcases xs with _ | ⟨x, _ | ⟨y, ys⟩⟩
    · rw [List.filterMap_cons_none rfl]
      simp
    · simp
    · constructor
      · intro h
        have hlen := congrArg List.length h
        have hle := length_heads_le xss
        simp only [List.filterMap_cons, List.head?_cons, List.length_cons, List.flatten_cons,
          List.length_append] at hlen
        omega
      · rintro ⟨hlen, -⟩
        simp at hlen

/-! ### Starting inside a frame -/

/-- The frame of some message. -/
def IsFrame (serde : EnvelopeSerde M) (frame : List UInt8) : Prop :=
  ∃ msg, encodeClientFrame serde msg = .ok frame

/-- The end of a frame and then at most `n` whole frames. -/
def AtMostFrames (serde : EnvelopeSerde M) (n : ℕ) (bytes : List UInt8) : Prop :=
  ∃ (begun piece : List UInt8) (frames : List (List UInt8)),
    bytes = piece ++ frames.flatten ∧
    (piece = [] ∨ begun ≠ [] ∧ IsFrame serde (begun ++ piece)) ∧
    (∀ frame ∈ frames, IsFrame serde frame) ∧ frames.length ≤ n

theorem Framed.isFrame {msgs : List M} {frames : List (List UInt8)}
    (h : Framed serde msgs frames) : ∀ frame ∈ frames, IsFrame serde frame := by
  induction h with
  | nil => simp
  | cons hmsg _ ih => exact List.forall_mem_cons.mpr ⟨⟨_, hmsg⟩, ih⟩

/-- Behind the beginning of one of some frames there is such a piece. -/
theorem atMostFrames_of_suffix {n : ℕ} {begun tail : List UInt8} {frames rest : List (List UInt8)}
    (hframes : ∀ frame ∈ frames, IsFrame serde frame) (hle : frames.length ≤ n)
    (h : (begun ++ tail) :: rest <:+ frames) : AtMostFrames serde n (tail ++ rest.flatten) := by
  have hrest : ∀ frame ∈ rest, IsFrame serde frame := fun frame hframe =>
    hframes frame (h.subset (List.mem_cons_of_mem _ hframe))
  have hframe : IsFrame serde (begun ++ tail) := hframes _ (h.subset (by simp))
  have hlen := h.length_le
  rw [List.length_cons] at hlen
  cases begun with
  | nil =>
    refine ⟨[], [], tail :: rest, by simp, .inl rfl, ?_, ?_⟩
    · exact List.forall_mem_cons.mpr ⟨hframe, hrest⟩
    · rw [List.length_cons]
      omega
  | cons b begun =>
    exact ⟨b :: begun, tail, rest, rfl, .inr ⟨List.cons_ne_nil b begun, hframe⟩, hrest, by omega⟩

/-- What is left of such bytes is such bytes again. -/
theorem AtMostFrames.suffix {n : ℕ} {bytes bytes' : List UInt8} (h : AtMostFrames serde n bytes)
    (hsuffix : bytes' <:+ bytes) : AtMostFrames serde n bytes' := by
  obtain ⟨begun, piece, frames, rfl, hpiece, hframes, hle⟩ := h
  rw [← List.flatten_cons] at hsuffix
  rcases suffix_flatten hsuffix with rfl | ⟨gone, tail, rest, hrest, rfl⟩
  · exact ⟨[], [], [], rfl, .inl rfl, by simp, Nat.zero_le n⟩
  · rcases List.suffix_cons_iff.mp hrest with heq | hlater
    · obtain ⟨rfl, rfl⟩ := List.cons.inj heq
      refine ⟨begun ++ gone, tail, rest, rfl, ?_, hframes, hle⟩
      rcases hpiece with hnil | ⟨hne, hframe⟩
      · exact .inl (List.append_eq_nil_iff.mp hnil).2
      · refine .inr ⟨?_, ?_⟩
        · intro hnil
          exact hne (List.append_eq_nil_iff.mp hnil).1
        · rw [List.append_assoc]
          exact hframe
    · exact atMostFrames_of_suffix hframes hle hlater

/-- A body that does not start like JSON is no message. -/
theorem message_of_head (hserde : serde.Lawful) {b : UInt8} {body : List UInt8}
    (hb : b ∉ opensJson) : message serde (bodyResult (b :: body)) = none := by
  have hresult : bodyResult (b :: body) = .ok (b :: body) := rfl
  rw [hresult, message]
  cases h : decodeClient serde (b :: body) with
  | error e => rfl
  | ok env =>
    obtain ⟨b', rest, heq, hmem⟩ := exists_opensJson hserde h
    obtain ⟨rfl, -⟩ := List.cons.inj heq
    exact absurd hmem hb

/-- The bytes of a frame: a length of four bytes, then the text. -/
theorem IsFrame.bytes (hserde : serde.Lawful) {frame : List UInt8} (h : IsFrame serde frame) :
    ∃ a b c d text, frame = a :: b :: c :: d :: 0x7b :: 0x22 :: 0x6d :: 0x65 :: text ∧
      ∀ x ∈ (0x7b :: 0x22 :: 0x6d :: 0x65 :: text : List UInt8), 0x20 ≤ x := by
  obtain ⟨msg, hmsg⟩ := h
  obtain ⟨s, htext, hframe⟩ := encodeClient_eq_ok.mp hmsg
  obtain ⟨text, hopens⟩ := hserde.opens htext
  have hprintable := hserde.printable htext
  rw [hopens] at hframe hprintable
  obtain ⟨-, rfl⟩ := encodeJson_eq_ok.mp hframe
  exact ⟨_, _, _, _, text, rfl, hprintable⟩

/-- A frame read from the middle of a true one does not decode: its length is over the
limit, or its body starts in the middle of `"message"`. -/
theorem message_of_inside (hserde : serde.Lawful) {begun piece after rest : List UInt8}
    (hbegun : begun ≠ []) (hpiece : piece ≠ []) (hframe : IsFrame serde (begun ++ piece))
    {r : Except FrameError (List UInt8)}
    (hlook : frameLook (piece ++ after) = .item r rest) : message serde r = none := by
  obtain ⟨h0, h1, h2, h3, text, hbytes, hprintable⟩ := hframe.bytes hserde
  obtain ⟨a, b, c, d, body, rest', hbuf, hlen, hle, rfl⟩ : ∃ a b c d body rest',
      piece ++ after = a :: b :: c :: d :: (body ++ rest') ∧
      (fromBeBytes a b c d).toNat = body.length ∧ body.length ≤ maxFrameBytes ∧
      r = bodyResult body := by
    rcases frameLook_cases (piece ++ after) with hm | ⟨_, _, _, _, _, _, _, hf⟩ |
      ⟨a, b, c, d, body, rest', hbuf, hlen, hle, hi⟩
    · rw [hm] at hlook
      cases hlook
    · rw [hf] at hlook
      cases hlook
    · rw [hi] at hlook
      cases hlook
      exact ⟨a, b, c, d, body, _, hbuf, hlen, hle, rfl⟩
  rw [fromBeBytes_toNat] at hlen
  rcases begun with _ | ⟨_, _ | ⟨_, _ | ⟨_, _ | ⟨_, begun⟩⟩⟩⟩
  · exact absurd rfl hbegun
  · -- behind one byte of the length
    simp only [List.cons_append, List.nil_append, List.cons.injEq] at hbytes
    obtain ⟨-, rfl⟩ := hbytes
    simp only [List.cons_append, List.cons.injEq] at hbuf
    obtain ⟨-, -, -, rfl, hbody⟩ := hbuf
    cases body with
    | nil =>
      have hbyte : (0x7b : UInt8).toNat = 123 := rfl
      rw [List.length_nil] at hlen
      omega
    | cons x body =>
      obtain ⟨rfl, -⟩ := List.cons.inj hbody
      exact message_of_head hserde (by decide)
  · -- behind two
    simp only [List.cons_append, List.nil_append, List.cons.injEq] at hbytes
    obtain ⟨-, -, rfl⟩ := hbytes
    simp only [List.cons_append, List.cons.injEq] at hbuf
    obtain ⟨-, -, rfl, rfl, hbody⟩ := hbuf
    cases body with
    | nil =>
      have hbyte : (0x7b : UInt8).toNat = 123 := rfl
      rw [List.length_nil] at hlen
      omega
    | cons x body =>
      obtain ⟨rfl, -⟩ := List.cons.inj hbody
      exact message_of_head hserde (by decide)
  · -- behind three
    simp only [List.cons_append, List.nil_append, List.cons.injEq] at hbytes
    obtain ⟨-, -, -, rfl⟩ := hbytes
    simp only [List.cons_append, List.cons.injEq] at hbuf
    obtain ⟨-, rfl, rfl, rfl, hbody⟩ := hbuf
    cases body with
    | nil =>
      have hbyte : (0x7b : UInt8).toNat = 123 := rfl
      rw [List.length_nil] at hlen
      omega
    | cons x body =>
      obtain ⟨rfl, -⟩ := List.cons.inj hbody
      exact message_of_head hserde (by decide)
  · -- inside the text no byte is small enough to begin a length
    simp only [List.cons_append, List.cons.injEq] at hbytes
    obtain ⟨-, -, -, -, htext⟩ := hbytes
    cases piece with
    | nil => exact absurd rfl hpiece
    | cons x piece =>
      have hx : (0x20 : UInt8) ≤ x := hprintable x (by rw [← htext]; simp)
      obtain ⟨rfl, -⟩ := List.cons.inj hbuf
      have hx' : 32 ≤ x.toNat := UInt8.le_iff_toNat_le.mp hx
      have hmax : maxFrameBytes = 16777216 := rfl
      omega

theorem decoded_cons (r : Except FrameError (List UInt8))
    (rs : List (Except FrameError (List UInt8))) :
    decoded serde (r :: rs) = decoded serde [r] ++ decoded serde rs := by
  rw [← List.singleton_append, decoded, List.filterMap_append]
  rfl

/-- One look takes at most one whole frame, and a message only with it. -/
theorem AtMostFrames.look (hserde : serde.Lawful) {n : ℕ} {buf future rest : List UInt8}
    {r : Except FrameError (List UInt8)} (h : AtMostFrames serde n (buf ++ future))
    (hlook : frameLook buf = .item r rest) :
    ∃ n', (decoded serde [r]).length + n' ≤ n ∧ AtMostFrames serde n' (rest ++ future) := by
  have hlook' := stable_frameLook.item hlook future
  have hsuffix : rest ++ future <:+ buf ++ future := by
    rcases frameLook_cases buf with hm | ⟨_, _, _, _, _, _, _, hf⟩ |
      ⟨a, b, c, d, body, rest', rfl, -, -, hi⟩
    · rw [hm] at hlook
      cases hlook
    · rw [hf] at hlook
      cases hlook
    · rw [hi] at hlook
      cases hlook
      exact ⟨a :: b :: c :: d :: body, by simp⟩
  obtain ⟨begun, piece, frames, hbytes, hpiece, hframes, hle⟩ := h
  by_cases hnil : piece = []
  · subst hnil
    cases frames with
    | nil =>
      rw [hbytes] at hlook'
      cases hlook'
    | cons frame frames =>
      -- aligned: the look takes the first whole frame
      obtain ⟨msg, hmsg⟩ := hframes frame (by simp)
      obtain ⟨s, -, hencoded, hresult, hmessage⟩ := exists_text_of_framed hserde hmsg
      rw [hbytes, List.nil_append, List.flatten_cons, frameLook_encoded hencoded, hresult]
        at hlook'
      injection hlook' with hr hrest
      subst hr
      refine ⟨frames.length, ?_, [], [], frames, hrest.symm, .inl rfl, ?_, Nat.le_refl _⟩
      · rw [decoded, List.filterMap_cons_some hmessage]
        simp only [List.length_cons] at hle
        simp only [List.filterMap_nil, List.length_cons, List.length_nil]
        omega
      · intro frame' hframe'
        exact hframes frame' (List.mem_cons_of_mem _ hframe')
  · have hinside : begun ≠ [] ∧ IsFrame serde (begun ++ piece) := hpiece.resolve_left hnil
    have hnone : message serde r = none := by
      rw [hbytes] at hlook'
      exact message_of_inside hserde hinside.1 hnil hinside.2 hlook'
    have hbound : AtMostFrames serde n (buf ++ future) :=
      ⟨begun, piece, frames, hbytes, hpiece, hframes, hle⟩
    refine ⟨n, ?_, hbound.suffix hsuffix⟩
    rw [decoded, List.filterMap_cons_none hnone]
    simp

/-- A drain yields at most as many messages as whole frames it takes. -/
theorem AtMostFrames.drained (hserde : serde.Lawful) {n : ℕ} {buf future : List UInt8} :
    AtMostFrames serde n (buf ++ future) →
      ∃ n', (decoded serde (drain frameLook buf).items).length + n' ≤ n ∧
        AtMostFrames serde n' ((drain frameLook buf).buf ++ future) := by
  induction buf using stable_frameLook.induction generalizing n with
  | more buf hl =>
    intro h
    rw [drain_more hl]
    exact ⟨n, by simp [decoded], h⟩
  | flush buf r hl =>
    intro h
    rw [drain_flush hl]
    have hnone : message serde r = none := by
      rcases frameLook_cases buf with hm | ⟨_, _, _, _, _, _, _, hf⟩ |
        ⟨_, _, _, _, _, _, _, _, _, hi⟩
      · rw [hm] at hl
        cases hl
      · rw [hf] at hl
        cases hl
        rfl
      · rw [hi] at hl
        cases hl
    refine ⟨n, ?_, h.suffix (List.suffix_append buf future)⟩
    rw [decoded, List.filterMap_cons_none hnone]
    simp
  | item buf r rest hl ih =>
    intro h
    obtain ⟨n₁, hle₁, hrest⟩ := h.look hserde hl
    obtain ⟨n₂, hle₂, hdrained⟩ := ih hrest
    refine ⟨n₂, ?_, ?_⟩
    · rw [drain_item stable_frameLook hl, Drained.cons_items, decoded_cons, List.length_append]
      omega
    · rw [drain_item stable_frameLook hl, Drained.cons_buf]
      exact hdrained

/-- **A decoder that starts inside a frame yields no more messages than whole frames
follow.** -/
theorem AtMostFrames.decoded_le (hserde : serde.Lawful) {n : ℕ} {buf : List UInt8}
    {reads : List ReadBuf} (h : AtMostFrames serde n (buf ++ readBytes reads)) :
    (deliveries serde buf reads).flatten.length ≤ n := by
  induction reads generalizing n buf with
  | nil => simp [deliveries]
  | cons read reads ih =>
    rw [readBytes_cons, ← List.append_assoc] at h
    obtain ⟨n', hle, hrest⟩ := h.drained hserde
    have hlater := ih hrest
    rw [deliveries_cons, List.flatten_cons, List.length_append]
    omega

/-! ### The hello -/

/-- The adapter returns the message of the first frame when the read that completes it is
in, and keeps nothing of what that read holds besides. -/
theorem recvLoop_hello (hserde : serde.Lawful) {hello : M} {frame rest : List UInt8}
    (hhello : encodeClientFrame serde hello = .ok frame) (reads : List ReadBuf)
    (part : List UInt8) (hpart : part.length < frame.length)
    (hreads : part ++ readBytes reads = frame ++ rest) :
    ∃ pre read post extra dec, reads = pre ++ read :: post ∧
      (part ++ readBytes pre).length < frame.length ∧
      part ++ readBytes pre ++ read.val = frame ++ extra ∧
      extra ++ readBytes post = rest ∧
      recvLoop serde ⟨part⟩ (reads.map .ok) = (some hello, post.map .ok, dec) := by
  induction reads generalizing part with
  | nil =>
    have hlen := congrArg List.length hreads
    simp only [readBytes_nil, List.append_nil, List.length_append] at hlen
    omega
  | cons read reads ih =>
    rw [readBytes_cons, ← List.append_assoc] at hreads
    rcases List.append_eq_append_iff.mp hreads with ⟨tail, hframe, htail⟩ | ⟨extra, hcut, hextra⟩
    · cases tail with
      | nil =>
        -- the read ends with the frame
        rw [List.append_nil] at hframe
        have hdecoded := (drain_framed hserde hhello []).1
        rw [List.append_nil, hframe] at hdecoded
        refine ⟨[], read, reads, [], _, rfl, by simpa using hpart, ?_, ?_,
          recvLoop_take reads hdecoded⟩
        · simp [hframe]
        · simpa using htail
      | cons b tail =>
        -- the frame goes on in a later read
        have hhello' : encodeClientFrame serde hello = .ok (part ++ read.val ++ b :: tail) := by
          rw [← hframe]
          exact hhello
        have hdrain := drain_framed_part hhello' (List.cons_ne_nil b tail)
        have hnone : decoded serde (drain frameLook (part ++ read.val)).items = [] := by
          rw [hdrain]
          rfl
        have hshort : (part ++ read.val).length < frame.length := by
          rw [hframe]
          simp
        obtain ⟨pre, last, post, extra, dec, rfl, hbefore, hlast, hpost, hrecv⟩ :=
          ih (part ++ read.val) hshort hreads
        refine ⟨read :: pre, last, post, extra, dec, rfl, ?_, ?_, hpost, ?_⟩
        · rw [readBytes_cons, ← List.append_assoc]
          exact hbefore
        · rw [readBytes_cons, ← List.append_assoc]
          exact hlast
        · rw [recvLoop_skip _ hnone]
          show recvLoop serde ⟨(drain frameLook (part ++ read.val)).buf⟩ _ = _
          rw [hdrain]
          exact hrecv
    · -- the read holds more than the frame
      have hdecoded := (drain_framed hserde hhello extra).1
      rw [← hcut] at hdecoded
      refine ⟨[], read, reads, extra, _, rfl, by simpa using hpart, ?_, hextra.symm,
        recvLoop_take reads hdecoded⟩
      simp [hcut]

/-- The reads that hold exactly the hello's frame are the ones the adapter consumed. -/
theorem separate_unique {pre pre' post post' : List ReadBuf} {read : ReadBuf}
    {frame extra : List UInt8} (hsplit : pre ++ read :: post = pre' ++ post')
    (hbefore : (readBytes pre).length < frame.length)
    (hcut : readBytes pre ++ read.val = frame ++ extra) (hpre' : readBytes pre' = frame) :
    extra = [] ∧ post' = post := by
  rcases List.append_eq_append_iff.mp hsplit with ⟨mid, rfl, hmid⟩ | ⟨mid, rfl, -⟩
  · rcases mid with _ | ⟨first, mid⟩
    · rw [List.append_nil] at hpre'
      rw [hpre'] at hbefore
      omega
    · obtain ⟨rfl, rfl⟩ := List.cons.inj hmid
      rw [readBytes_append, readBytes_cons, ← List.append_assoc, hcut, List.append_assoc] at hpre'
      have hnil : extra ++ readBytes mid = [] := by
        have hframe : frame ++ (extra ++ readBytes mid) = frame ++ [] := by
          rw [hpre', List.append_nil]
        exact List.append_cancel_left hframe
      obtain ⟨hextra, hmid'⟩ := List.append_eq_nil_iff.mp hnil
      rw [readBytes_eq_nil hmid']
      exact ⟨hextra, rfl⟩
  · rw [readBytes_append, List.length_append, hpre'] at hbefore
    omega

/-- Behind a part of some frames fewer whole ones are left. -/
theorem atMostFrames_of_extra {msgs : List M} {frames : List (List UInt8)}
    {extra bytes : List UInt8} (h : Framed serde msgs frames) (hextra : extra ≠ [])
    (hbytes : extra ++ bytes = frames.flatten) :
    ∃ n, n < msgs.length ∧ AtMostFrames serde n bytes := by
  cases h with
  | nil => exact absurd (List.append_eq_nil_iff.mp hbytes).1 hextra
  | @cons msg frame msgs frames hmsg hrest =>
    have hframes := Framed.isFrame hrest
    have hlen := hrest.length_eq
    refine ⟨frames.length, by rw [List.length_cons]; omega, ?_⟩
    rw [List.flatten_cons] at hbytes
    rcases List.append_eq_append_iff.mp hbytes with ⟨tail, rfl, rfl⟩ | ⟨later, -, hflat⟩
    · exact ⟨extra, tail, frames, rfl, .inr ⟨hextra, msg, hmsg⟩, hframes, Nat.le_refl _⟩
    · have hwhole : AtMostFrames serde frames.length frames.flatten :=
        ⟨[], [], frames, rfl, .inl rfl, hframes, Nat.le_refl _⟩
      exact hwhole.suffix ⟨later, hflat.symm⟩

/-- **The messages arrive exactly under separate reads.** -/
theorem stdioDelivers_iff (hserde : serde.Lawful) {hello : M} {msgs : List M}
    {frame : List UInt8} {frames : List (List UInt8)} {reads : List ReadBuf}
    (hhello : encodeClientFrame serde hello = .ok frame) (hmsgs : Framed serde msgs frames)
    (hreads : readBytes reads = frame ++ frames.flatten) :
    StdioDelivers serde hello msgs reads ↔ SeparateReads frame frames reads := by
  have hpos : ([] : List UInt8).length < frame.length := by
    obtain ⟨a, b, c, d, text, hbytes, -⟩ := IsFrame.bytes hserde ⟨hello, hhello⟩
    simp [hbytes]
  obtain ⟨pre, read, post, extra, dec, rfl, hbefore, hcut, hpost, hrecv⟩ :=
    recvLoop_hello hserde hhello reads [] hpos (by simpa using hreads)
  rw [List.nil_append] at hbefore hcut
  have hadapter : (StdioAdapter.mk ((pre ++ read :: post).map .ok)).recv serde
      = (some hello, ⟨post.map .ok⟩) := by
    simp only [StdioAdapter.recv, FrameDecoder.new, hrecv]
  have hdelivers : StdioDelivers serde hello msgs (pre ++ read :: post) ↔
      (deliveries serde [] post).filterMap List.head? = msgs := by
    unfold StdioDelivers
    rw [hadapter]
    exact (and_iff_right rfl).trans (recvTimes_eq post FrameDecoder.new msgs)
  rw [hdelivers]
  by_cases hextra : extra = []
  · subst hextra
    rw [List.nil_append] at hpost
    have hall : (deliveries serde [] post).flatten = msgs := by
      rw [flatten_deliveries_beginning hserde hmsgs (hpost ▸ List.prefix_rfl), hpost,
        framesWithin_flatten, ← hmsgs.length_eq, List.take_length]
    have hheads : (deliveries serde [] post).filterMap List.head? = msgs ↔
        ∀ x ∈ deliveries serde [] post, x.length ≤ 1 := by
      rw [← heads_eq_flatten_iff, hall]
    rw [hheads, length_le_one_iff hserde hmsgs hpost]
    constructor
    · intro hone
      exact ⟨pre ++ [read], post, by simp, by simpa using hcut, hone⟩
    · rintro ⟨pre', post', hsplit, hpre', hone⟩
      obtain ⟨-, rfl⟩ := separate_unique hsplit hbefore hcut hpre'
      exact hone
  · constructor
    · intro hheads
      obtain ⟨n, hn, hbound⟩ := atMostFrames_of_extra hmsgs hextra hpost
      have hle : (deliveries serde [] post).flatten.length ≤ n :=
        AtMostFrames.decoded_le hserde hbound
      have hlen := length_heads_le (deliveries serde [] post)
      rw [hheads] at hlen
      omega
    · rintro ⟨pre', post', hsplit, hpre', -⟩
      exact absurd (separate_unique hsplit hbefore hcut hpre').1 hextra

/-! ### A hello and one more message -/

/-- Two of the client's messages. -/
inductive SampleMessage
  | hello
  | listSessions
  deriving DecidableEq, Repr

/-- The texts of their envelopes. -/
def sampleText : SampleMessage → String
  | .hello => "\x7b\"message\":\x7b\"type\":\"hello\"\x7d\x7d"
  | .listSessions => "\x7b\"message\":\x7b\"type\":\"listSessions\"\x7d\x7d"

/-- Serde on these two. -/
def sampleSerde : EnvelopeSerde SampleMessage where
  toText env := .ok (sampleText env.message)
  fromStr s :=
    if s = sampleText .hello then .ok ⟨.hello⟩
    else if s = sampleText .listSessions then .ok ⟨.listSessions⟩
    else .error "unknown variant"

theorem sampleSerde_fromStr {s : String} {env : WireEnvelope SampleMessage}
    (h : sampleSerde.fromStr s = .ok env) : s = sampleText env.message := by
  simp only [sampleSerde] at h
  by_cases hhello : s = sampleText .hello
  · rw [if_pos hhello] at h
    cases h
    exact hhello
  · rw [if_neg hhello] at h
    by_cases hlist : s = sampleText .listSessions
    · rw [if_pos hlist] at h
      cases h
      exact hlist
    · rw [if_neg hlist] at h
      cases h

theorem sampleSerde_lawful : sampleSerde.Lawful where
  reads := by
    rintro ⟨msg⟩ s h
    cases h
    cases msg <;> decide
  opens := by
    rintro ⟨msg⟩ s h
    cases h
    cases msg
    · exact ⟨_, rfl⟩
    · exact ⟨_, rfl⟩
  printable := by
    rintro ⟨msg⟩ s h
    cases h
    have hall : (utf8 (sampleText msg)).all (fun b => decide (0x20 ≤ b)) = true := by
      cases msg <;> decide
    intro b hb
    exact of_decide_eq_true (List.all_eq_true.mp hall b hb)
  starts := by
    rintro ⟨msg⟩ s h
    rw [sampleSerde_fromStr h]
    cases msg
    · exact ⟨0x7b, _, rfl, by decide⟩
    · exact ⟨0x7b, _, rfl, by decide⟩

/-- A sample frame. -/
def sampleFrame (msg : SampleMessage) : List UInt8 :=
  toBeBytes (UInt32.ofNat (utf8 (sampleText msg)).length) ++ utf8 (sampleText msg)

theorem encodeClientFrame_sample (msg : SampleMessage) :
    encodeClientFrame sampleSerde msg = .ok (sampleFrame msg) := by
  cases msg <;> decide

/-- The hello and the message in one read. -/
def oneRead : ReadBuf := ⟨sampleFrame .hello ++ sampleFrame .listSessions, by decide⟩

/-- Each in a read of its own. -/
def twoReads : List ReadBuf :=
  [⟨sampleFrame .hello, by decide⟩, ⟨sampleFrame .listSessions, by decide⟩]

theorem framed_sample (msgs : List SampleMessage) :
    Framed sampleSerde msgs (msgs.map sampleFrame) := by
  induction msgs with
  | nil => exact List.Forall₂.nil
  | cons msg msgs ih => exact ih.cons (encodeClientFrame_sample msg)

theorem stdioDelivers_iff_twoReads :
    StdioDelivers sampleSerde .hello [.listSessions] twoReads ↔
      SeparateReads (sampleFrame .hello) [sampleFrame .listSessions] twoReads :=
  stdioDelivers_iff sampleSerde_lawful (encodeClientFrame_sample .hello)
    (framed_sample [.listSessions]) (by decide)

/-- **In one read the message is lost**: the hello arrives, then the end. -/
theorem not_stdioDelivers_oneRead :
    sampleSerde.Lawful ∧
      encodeClientFrame sampleSerde .hello = .ok (sampleFrame .hello) ∧
      Framed sampleSerde [.listSessions] [sampleFrame .listSessions] ∧
      readBytes [oneRead] = sampleFrame .hello ++ [sampleFrame .listSessions].flatten ∧
      ¬ StdioDelivers sampleSerde .hello [.listSessions] [oneRead] := by
  refine ⟨sampleSerde_lawful, encodeClientFrame_sample .hello, framed_sample [.listSessions],
    by decide, ?_⟩
  rintro ⟨-, hcalls⟩
  exact absurd hcalls (by decide)

end Pantoken
