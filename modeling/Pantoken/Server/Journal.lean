import Pantoken.Lib.Coalesce
import Pantoken.Protocol.State

/-!
# The session journal

One structure is the seed source for connecting clients (fold from zero) and the
resume ring for reconnecting ones (tail replay).  An event is stamped with the next
sequence number and kept in the tail; when the tail outgrows its caps its oldest
frames move to the compacted prefix, where neighbouring deltas are fused.

The journal stands for an unbounded log: the seed of the current build followed by
every event stamped since.  `Represents j seed log` says which part of the log is
compacted and which is still in the tail, and every operation keeps it.

## Main definitions

* `SessionJournal`, `createJournal`, `bumpEpoch`, `appendEvent`, `tailCovers`,
  `buildSeed`, `tryMerge`, `coalesceEvents` — the journal.
* `Represents` — the log a journal stands for.

## Main results

* `Represents.append`, `represents_create`, `represents_bump` — the operations keep
  the representation.
* `Represents.buildSeed_events` — a seed is the coalesced log.
* `foldAll_buildSeed` — **a seed folds to the state of the whole log.**
* `tailCovers_iff` — what the covers test decides.
* `resume_of_tailCovers` — **a covered client is caught up by the tail alone.**
-/

namespace Pantoken

/-! ### The code -/

/-- `TAIL_MAX_FRAMES` -/
def tailMaxFrames : Nat := 1024

/-- `TAIL_MAX_BYTES` -/
def tailMaxBytes : Nat := 256 * 1024

/-- The lengths the JSON serializer reports, which the byte estimate adds up. -/
structure Serde where
  /-- `v.to_string().len()` -/
  jsonLen : Json → Nat
  /-- `serde_json::to_string(request).map(|s| s.len())`, nothing on an error. -/
  requestLen : HostUiRequest → Option Nat

/-- JSON braces, tags and field names. -/
def overhead : Nat := 64

/-- The length of an optional string. -/
def optLen (s : Option String) : Nat := (s.map String.utf8ByteSize).getD 0

/-- `estimated_bytes` -/
def estimatedBytes (serde : Serde) : SessionDriverEvent → Nat
  | .assistantDelta _ text _ _ => text.utf8ByteSize + overhead
  | .userMessage _ id text _ _ _ => id.utf8ByteSize + text.utf8ByteSize + overhead
  | .customMessage _ id customType text _ _ =>
    id.utf8ByteSize + customType.utf8ByteSize + text.utf8ByteSize + overhead
  | .toolStarted _ toolName callId input label description =>
    toolName.utf8ByteSize + callId.utf8ByteSize + (input.map serde.jsonLen).getD 0 +
      optLen label + optLen description + overhead
  | .toolUpdated _ callId text _ => callId.utf8ByteSize + optLen text + overhead
  | .toolFinished _ callId _ output _ _ =>
    callId.utf8ByteSize + (output.map serde.jsonLen).getD 0 + overhead
  | .runFailed _ error => error.message.utf8ByteSize + overhead
  | .hostUiRequest _ request => (serde.requestLen request).getD overhead
  | .sessionOpened .. | .sessionUpdated .. | .sessionClosed .. | .runCompleted ..
  | .usageUpdated .. | .hostUiResolved .. | .queueUpdated .. | .queuedMessageStarted ..
  | .extensionCompatibilityIssue .. | .sessionReset .. => overhead

/-- One live ring entry. -/
structure JournalFrame where
  seq : Nat
  ev : SessionDriverEvent
  bytes : Nat

structure SessionJournal where
  epoch : Nat
  seq : Nat
  compacted : List SessionDriverEvent
  tail : List JournalFrame
  tailBytes : Nat
  sessionRef : Option SessionRef

/-- `try_merge`: fuse two adjacent events into one that folds the same. -/
def tryMerge : SessionDriverEvent → SessionDriverEvent → Option SessionDriverEvent
  | .assistantDelta base text channel entryId, .assistantDelta _ textB channelB _ =>
    let chanA := channel.getD .text
    let chanB := channelB.getD .text
    if chanA ≠ chanB then none
    else some (.assistantDelta base (text ++ textB) (some chanA) entryId)
  -- the later report wins whole, while a delta keeps the base of the earlier one
  | .usageUpdated _ _, .usageUpdated base usage => some (.usageUpdated base usage)
  | _, _ => none

/-- `compacted_append` -/
def compactedAppend (compacted : List SessionDriverEvent) (ev : SessionDriverEvent) :
    List SessionDriverEvent :=
  Coalesce.snoc tryMerge compacted ev

/-- `coalesce_events` -/
def coalesceEvents (events : List SessionDriverEvent) : List SessionDriverEvent :=
  Coalesce.coalesce tryMerge events

/-- `create_journal` -/
def createJournal (epoch : Nat) (seed : List SessionDriverEvent) : SessionJournal where
  epoch := epoch
  seq := 0
  compacted := coalesceEvents seed
  tail := []
  tailBytes := 0
  sessionRef := seed.head?.map (·.sessionRef)

/-- `bump_epoch` -/
def bumpEpoch (j : SessionJournal) (epoch : Nat) (seed : List SessionDriverEvent) :
    SessionJournal :=
  { j with
    epoch := epoch
    seq := 0
    compacted := coalesceEvents seed
    tail := []
    tailBytes := 0
    sessionRef := seed.head?.map (·.sessionRef) }

/-- The eviction loop of `append_event`: while a cap is exceeded the oldest frame moves
to the compacted prefix. -/
def evict (compacted : List SessionDriverEvent) :
    List JournalFrame → Nat → List SessionDriverEvent × List JournalFrame × Nat
  | [], tailBytes => (compacted, [], tailBytes)
  | oldest :: rest, tailBytes =>
    if (oldest :: rest).length > tailMaxFrames ∨ tailBytes > tailMaxBytes then
      -- the tail accounts for its bytes, so the subtraction does not wrap
      evict (compactedAppend compacted oldest.ev) rest (tailBytes - oldest.bytes)
    else (compacted, oldest :: rest, tailBytes)

/-- `append_event`: stamp an event into the tail and evict what overflows. -/
def appendEvent (serde : Serde) (j : SessionJournal) (ev : SessionDriverEvent) : SessionJournal :=
  let seq := j.seq + 1
  let bytes := estimatedBytes serde ev
  let (compacted, tail, tailBytes) :=
    evict j.compacted (j.tail ++ [⟨seq, ev, bytes⟩]) (j.tailBytes + bytes)
  { j with seq := seq, compacted := compacted, tail := tail, tailBytes := tailBytes }

/-- `tail_covers` -/
def tailCovers (j : SessionJournal) (seq : Nat) : Bool :=
  if seq > j.seq then false
  else if seq = j.seq then true
  else
    match j.tail.head? with
    | some first => first.seq ≤ seq + 1
    | none => false

/-- `build_seed`: the epoch, the watermark and the events of a seed. -/
def buildSeed (j : SessionJournal) : Nat × Nat × List SessionDriverEvent :=
  (j.epoch, j.seq, coalesceEvents (j.compacted ++ j.tail.map (·.ev)))

/-! ### The fusion is lawful and sound -/

/-- What a fusion can be: two deltas of one channel, or two usage reports. -/
theorem tryMerge_cases {b c m : SessionDriverEvent} (h : tryMerge b c = some m) :
    (∃ base t ch e base' t' ch' e', b = .assistantDelta base t ch e ∧
      c = .assistantDelta base' t' ch' e' ∧ ch.getD .text = ch'.getD .text ∧
      m = .assistantDelta base (t ++ t') (some (ch.getD .text)) e) ∨
    (∃ base u base' u', b = .usageUpdated base u ∧ c = .usageUpdated base' u' ∧
      m = .usageUpdated base' u') := by
  unfold tryMerge at h
  split at h
  · next base t ch e base' t' ch' e' =>
    dsimp only at h
    split at h
    · cases h
    · next hch =>
      cases h
      exact .inl ⟨base, t, ch, e, base', t', ch', e', rfl, rfl, not_not.mp hch, rfl⟩
  · next base u base' u' =>
    cases h
    exact .inr ⟨base, u, base', u', rfl, rfl, rfl⟩
  · cases h

theorem tryMerge_delta {base base' : SessionEventBase} {t t' : String}
    {ch ch' : Option AssistantDeltaChannel} {e e' : Option String}
    (h : ch.getD .text = ch'.getD .text) :
    tryMerge (.assistantDelta base t ch e) (.assistantDelta base' t' ch' e') =
      some (.assistantDelta base (t ++ t') (some (ch.getD .text)) e) := by
  simp [tryMerge, h]

theorem tryMerge_delta_ne {base base' : SessionEventBase} {t t' : String}
    {ch ch' : Option AssistantDeltaChannel} {e e' : Option String}
    (h : ch.getD .text ≠ ch'.getD .text) :
    tryMerge (.assistantDelta base t ch e) (.assistantDelta base' t' ch' e') = none := by
  simp [tryMerge, h]

theorem tryMerge_lawful : Coalesce.Lawful tryMerge where
  assoc := by
    intro a b c bc h
    rcases tryMerge_cases h with ⟨base, t, ch, e, base', t', ch', e', rfl, rfl, hch, rfl⟩ |
      ⟨base, u, base', u', rfl, rfl, rfl⟩
    · cases a with
      | assistantDelta base₀ t₀ ch₀ e₀ =>
        by_cases h₀ : ch₀.getD .text = ch.getD .text
        · rw [tryMerge_delta h₀, tryMerge_delta (by simpa using h₀), Option.bind_some,
            tryMerge_delta (by simpa [h₀] using hch)]
          simp [String.append_assoc]
        · rw [tryMerge_delta_ne h₀, tryMerge_delta_ne (by simpa using h₀)]
          rfl
      | _ => rfl
    · cases a <;> rfl
  trans := by
    intro a b c ab bc hab hbc
    rcases tryMerge_cases hab with ⟨base, t, ch, e, base', t', ch', e', rfl, rfl, hch, rfl⟩ |
      ⟨base, u, base', u', rfl, rfl, rfl⟩
    · rcases tryMerge_cases hbc with ⟨_, _, _, _, base₂, t₂, ch₂, e₂, hb, rfl, hch₂, rfl⟩ |
        ⟨_, _, _, _, hb, -, -⟩
      · cases hb
        rw [tryMerge_delta (by simpa [hch] using hch₂)]
        rfl
      · cases hb
    · rcases tryMerge_cases hbc with ⟨_, _, _, _, _, _, _, _, hb, -⟩ | ⟨_, _, _, _, hb, rfl, rfl⟩
      · cases hb
      · rfl

/-- The reducer cannot tell a fused pair from its parts. -/
theorem foldEvent_sound : Coalesce.Sound tryMerge foldEvent := by
  intro s b c m h
  rcases tryMerge_cases h with ⟨base, t, ch, e, base', t', ch', e', rfl, rfl, hch, rfl⟩ |
    ⟨base, u, base', u', rfl, rfl, rfl⟩
  · simp only [foldEvent]
    rw [foldDelta_foldDelta _ hch]
  · rfl

theorem foldAllFrom_coalesceEvents (s : SessionState) (es : List SessionDriverEvent) :
    foldAllFrom s (coalesceEvents es) = foldAllFrom s es :=
  foldEvent_sound.foldl_coalesce s es

/-- Coalescing a log does not change what it folds to. -/
theorem foldAll_coalesceEvents (es : List SessionDriverEvent) :
    foldAll (coalesceEvents es) = foldAll es := foldAllFrom_coalesceEvents _ es

/-! ### The log a journal stands for -/

/-- The frames stamped on a run of events, the first with the sequence number after `n`. -/
def frames (serde : Serde) (n : Nat) : List SessionDriverEvent → List JournalFrame
  | [] => []
  | ev :: evs => ⟨n + 1, ev, estimatedBytes serde ev⟩ :: frames serde (n + 1) evs

/-- The bytes a run of frames accounts for: the sum of theirs. -/
def frameBytes (fs : List JournalFrame) : Nat := fs.foldr (fun f n => f.bytes + n) 0

section Frames

variable (serde : Serde)

@[simp] theorem frames_nil (n : Nat) : frames serde n [] = [] := rfl

@[simp] theorem length_frames (n : Nat) (evs : List SessionDriverEvent) :
    (frames serde n evs).length = evs.length := by
  induction evs generalizing n with
  | nil => rfl
  | cons ev evs ih => simp [frames, ih]

@[simp] theorem map_ev_frames (n : Nat) (evs : List SessionDriverEvent) :
    (frames serde n evs).map (·.ev) = evs := by
  induction evs generalizing n with
  | nil => rfl
  | cons ev evs ih => simp [frames, ih]

@[simp] theorem map_seq_frames (n : Nat) (evs : List SessionDriverEvent) :
    (frames serde n evs).map (·.seq) = List.range' (n + 1) evs.length := by
  induction evs generalizing n with
  | nil => rfl
  | cons ev evs ih => simp [frames, ih, List.range'_succ]

theorem frames_append (n : Nat) (evs fvs : List SessionDriverEvent) :
    frames serde n (evs ++ fvs) = frames serde n evs ++ frames serde (n + evs.length) fvs := by
  induction evs generalizing n with
  | nil => rfl
  | cons ev evs ih =>
    have hn : n + (ev :: evs).length = n + 1 + evs.length := by rw [List.length_cons]; omega
    rw [hn, List.cons_append, frames, frames, ih, List.cons_append]

theorem seq_le_of_mem_frames {n : Nat} {evs : List SessionDriverEvent} {f : JournalFrame}
    (h : f ∈ frames serde n evs) : n < f.seq ∧ f.seq ≤ n + evs.length := by
  have hmem : f.seq ∈ (frames serde n evs).map (·.seq) := List.mem_map_of_mem h
  rw [map_seq_frames, List.mem_range'_1] at hmem
  omega

/-- The frame of a sequence number is that of its event. -/
theorem getElem?_of_mem_frames {n : Nat} {evs : List SessionDriverEvent} {f : JournalFrame}
    (h : f ∈ frames serde n evs) : n < f.seq ∧ evs[f.seq - 1 - n]? = some f.ev := by
  induction evs generalizing n with
  | nil => cases h
  | cons ev evs ih =>
    rcases List.mem_cons.mp h with rfl | h
    · simp
    · obtain ⟨hlt, hget⟩ := ih h
      have hidx : f.seq - 1 - n = (f.seq - 1 - (n + 1)) + 1 := by omega
      exact ⟨by omega, by rw [hidx, List.getElem?_cons_succ, hget]⟩

theorem frameBytes_append (fs gs : List JournalFrame) :
    frameBytes (fs ++ gs) = frameBytes fs + frameBytes gs := by
  induction fs with
  | nil => exact (Nat.zero_add _).symm
  | cons f fs ih =>
    show f.bytes + frameBytes (fs ++ gs) = f.bytes + frameBytes fs + frameBytes gs
    rw [ih, Nat.add_assoc]

@[simp] theorem frameBytes_cons (f : JournalFrame) (fs : List JournalFrame) :
    frameBytes (f :: fs) = f.bytes + frameBytes fs := rfl

end Frames

/-- `j` keeps `seed` followed by `old` compacted, and `live` in the tail. -/
structure Holds (serde : Serde) (j : SessionJournal)
    (seed old live : List SessionDriverEvent) : Prop where
  compacted : j.compacted = coalesceEvents (seed ++ old)
  tail : j.tail = frames serde old.length live
  seq : j.seq = old.length + live.length
  tailBytes : j.tailBytes = frameBytes j.tail

/-- `j` stands for `seed` followed by the stamped events of `log`. -/
def Represents (serde : Serde) (j : SessionJournal) (seed log : List SessionDriverEvent) : Prop :=
  ∃ old live, log = old ++ live ∧ Holds serde j seed old live

section Represents

variable {serde : Serde} {j : SessionJournal} {seed log : List SessionDriverEvent}

/-- Eviction moves a run of frames, oldest first, to the end of the compacted prefix. -/
theorem exists_evict (n : Nat) (compacted live : List SessionDriverEvent) :
    ∃ gone kept, live = gone ++ kept ∧
      evict compacted (frames serde n live) (frameBytes (frames serde n live)) =
        (gone.foldl compactedAppend compacted, frames serde (n + gone.length) kept,
          frameBytes (frames serde (n + gone.length) kept)) := by
  induction live generalizing n compacted with
  | nil => exact ⟨[], [], rfl, rfl⟩
  | cons ev live ih =>
    rw [frames, evict]
    split
    · -- a cap is exceeded: the oldest frame goes, and its bytes with it
      obtain ⟨gone, kept, rfl, he⟩ := ih (n + 1) (compactedAppend compacted ev)
      refine ⟨ev :: gone, kept, rfl, ?_⟩
      have hn : n + (ev :: gone).length = n + 1 + gone.length := by rw [List.length_cons]; omega
      rw [frameBytes_cons, Nat.add_sub_cancel_left, he, hn, List.foldl_cons]
    · exact ⟨[], ev :: live, rfl, rfl⟩

theorem represents_create (epoch : Nat) (seed : List SessionDriverEvent) :
    Represents serde (createJournal epoch seed) seed [] :=
  ⟨[], [], rfl, by simp [createJournal], rfl, rfl, rfl⟩

theorem represents_bump (j : SessionJournal) (epoch : Nat) (seed : List SessionDriverEvent) :
    Represents serde (bumpEpoch j epoch seed) seed [] :=
  ⟨[], [], rfl, by simp [bumpEpoch], rfl, rfl, rfl⟩

/-- Appending an event appends it to the log. -/
theorem Represents.append (h : Represents serde j seed log) (ev : SessionDriverEvent) :
    Represents serde (appendEvent serde j ev) seed (log ++ [ev]) := by
  obtain ⟨old, live, rfl, h⟩ := h
  have hseq : j.seq + 1 = old.length + live.length + 1 := by rw [h.seq]
  -- before the eviction the tail is still one run of frames
  have htail : j.tail ++ [⟨j.seq + 1, ev, estimatedBytes serde ev⟩] =
      frames serde old.length (live ++ [ev]) := by
    rw [h.tail, frames_append, hseq]
    rfl
  have hbytes : j.tailBytes + estimatedBytes serde ev =
      frameBytes (frames serde old.length (live ++ [ev])) := by
    rw [← htail, frameBytes_append, h.tailBytes]
    rfl
  obtain ⟨gone, kept, hsplit, he⟩ :=
    @exists_evict serde old.length j.compacted (live ++ [ev])
  refine ⟨old ++ gone, kept, by rw [List.append_assoc, List.append_assoc, hsplit], ?_⟩
  have happ : appendEvent serde j ev =
      { j with
        seq := j.seq + 1
        compacted := gone.foldl compactedAppend j.compacted
        tail := frames serde (old.length + gone.length) kept
        tailBytes := frameBytes (frames serde (old.length + gone.length) kept) } := by
    rw [appendEvent, htail, hbytes, he]
  have hlen : live.length + 1 = gone.length + kept.length := by
    simpa using congrArg List.length hsplit
  rw [happ]
  exact
    { compacted := by
        show gone.foldl compactedAppend j.compacted = _
        rw [h.compacted, ← List.append_assoc, coalesceEvents, coalesceEvents,
          Coalesce.coalesce_append _ gone]
        rfl
      tail := by rw [List.length_append]
      seq := by
        show j.seq + 1 = _
        rw [List.length_append]
        omega
      tailBytes := rfl }

/-- A run of appends appends the run. -/
theorem Represents.foldl_append (h : Represents serde j seed log)
    (evs : List SessionDriverEvent) :
    Represents serde (evs.foldl (appendEvent serde) j) seed (log ++ evs) := by
  induction evs generalizing j log with
  | nil => simpa using h
  | cons ev evs ih =>
    have := ih (h.append ev)
    rwa [List.append_assoc, List.singleton_append] at this

theorem Represents.seq_eq (h : Represents serde j seed log) : j.seq = log.length := by
  obtain ⟨old, live, rfl, h⟩ := h
  rw [h.seq, List.length_append]

/-- A seed is the coalesced log. -/
theorem Represents.buildSeed_events (h : Represents serde j seed log) :
    (buildSeed j).2.2 = coalesceEvents (seed ++ log) := by
  obtain ⟨old, live, rfl, h⟩ := h
  have hall : j.compacted ++ j.tail.map (·.ev) = coalesceEvents (seed ++ old) ++ live := by
    rw [h.compacted, h.tail, map_ev_frames]
  calc (buildSeed j).2.2 = coalesceEvents (coalesceEvents (seed ++ old) ++ live) := by
        rw [← hall]; rfl
    _ = coalesceEvents (seed ++ (old ++ live)) := by
        rw [← List.append_assoc]
        exact tryMerge_lawful.coalesce_coalesce_append _ _

/-- **A seed folds to the state of the whole log.** -/
theorem foldAll_buildSeed (h : Represents serde j seed log) :
    foldAll (buildSeed j).2.2 = foldAll (seed ++ log) := by
  rw [h.buildSeed_events, foldAll_coalesceEvents]

/-- A restarted journal folds to its seed. -/
theorem foldAll_buildSeed_bumpEpoch (j : SessionJournal) (epoch : Nat)
    (seed : List SessionDriverEvent) :
    foldAll (buildSeed (bumpEpoch j epoch seed)).2.2 = foldAll seed := by
  simp [buildSeed, bumpEpoch, foldAll_coalesceEvents]

/-- The tail is contiguous and ends at the current sequence number. -/
theorem Represents.tail_seq (h : Represents serde j seed log) :
    j.tail.length ≤ j.seq ∧
      j.tail.map (·.seq) = List.range' (j.seq + 1 - j.tail.length) j.tail.length := by
  obtain ⟨old, live, rfl, h⟩ := h
  rw [h.tail, h.seq, length_frames, map_seq_frames]
  exact ⟨by omega, by congr 1; omega⟩

theorem Represents.tailBytes_eq (h : Represents serde j seed log) :
    j.tailBytes = frameBytes j.tail := by
  obtain ⟨old, live, rfl, h⟩ := h
  exact h.tailBytes

/-- What the covers test decides: the client is current, or its next event is in the tail. -/
theorem Represents.tailCovers_iff (h : Represents serde j seed log) (s : Nat) :
    tailCovers j s = true ↔ s = j.seq ∨ ∃ f ∈ j.tail, f.seq = s + 1 := by
  obtain ⟨old, live, rfl, h⟩ := h
  have hmem : (∃ f ∈ j.tail, f.seq = s + 1) ↔ old.length ≤ s ∧ s < j.seq := by
    have hmap : (∃ f ∈ j.tail, f.seq = s + 1) ↔ s + 1 ∈ j.tail.map (·.seq) := by
      simp only [List.mem_map]
    rw [hmap, h.tail, map_seq_frames, List.mem_range'_1, h.seq]
    omega
  rw [hmem]
  have hseq := h.seq
  unfold tailCovers
  cases live with
  | nil =>
    -- an empty tail covers a current client only
    rw [h.tail, frames_nil, List.head?_nil]
    grind
  | cons ev live =>
    -- the first frame decides, for the tail is contiguous
    rw [h.tail, frames, List.head?_cons]
    grind

/-- A covered client's share of the tail is the rest of the log. -/
theorem Represents.filter_tail (h : Represents serde j seed log) {s : Nat}
    (hs : tailCovers j s = true) :
    j.tail.filter (fun f => s < f.seq) = frames serde s (log.drop s) := by
  have hcov := (h.tailCovers_iff s).mp hs
  have hseq := h.seq_eq
  obtain ⟨old, live, rfl, h⟩ := h
  rw [h.tail] at hcov ⊢
  have hold : old.length ≤ s ∧ s ≤ old.length + live.length := by
    rcases hcov with rfl | ⟨f, hf, hfs⟩
    · rw [List.length_append] at hseq
      omega
    · have := seq_le_of_mem_frames serde hf
      omega
  obtain ⟨k, rfl⟩ := Nat.exists_eq_add_of_le hold.1
  have hk : (live.take k).length = k := by rw [List.length_take]; omega
  -- the frames up to `s` are dropped, the ones after it are kept
  have hdrop : (frames serde old.length (live.take k)).filter
      (fun f => old.length + k < f.seq) = [] := by
    rw [List.filter_eq_nil_iff]
    intro f hf
    have := seq_le_of_mem_frames serde hf
    simp only [decide_eq_true_eq]
    omega
  have hkeep : (frames serde (old.length + k) (live.drop k)).filter
      (fun f => old.length + k < f.seq) = frames serde (old.length + k) (live.drop k) := by
    rw [List.filter_eq_self]
    intro f hf
    simpa using (seq_le_of_mem_frames serde hf).1
  rw [List.drop_append, List.drop_eq_nil_of_le (by omega), List.nil_append,
    Nat.add_sub_cancel_left]
  conv_lhs => rw [← List.take_append_drop k live]
  rw [frames_append, hk, List.filter_append, hdrop, hkeep, List.nil_append]

/-- **A covered client is caught up by the tail alone.** -/
theorem resume_of_tailCovers (h : Represents serde j seed log) {s : Nat}
    (hs : tailCovers j s = true) :
    foldAllFrom (foldAll (seed ++ log.take s))
        ((j.tail.filter (fun f => s < f.seq)).map (·.ev)) = foldAll (buildSeed j).2.2 := by
  rw [h.filter_tail hs, map_ev_frames, ← foldAll_append, List.append_assoc,
    List.take_append_drop, foldAll_buildSeed h]

end Represents

/-! ### Runs of a journal -/

/-- What can happen to a journal. -/
inductive JournalOp where
  | append (ev : SessionDriverEvent)
  | bump (epoch : Nat) (seed : List SessionDriverEvent)

/-- One operation on a journal. -/
def SessionJournal.step (serde : Serde) (j : SessionJournal) : JournalOp → SessionJournal
  | .append ev => appendEvent serde j ev
  | .bump epoch seed => bumpEpoch j epoch seed

/-- One build of a transcript: the seed its epoch began with, and every event stamped since. -/
structure Build where
  seed : List SessionDriverEvent
  stamped : List SessionDriverEvent

/-- What an operation does to the build under way. -/
def Build.step (b : Build) : JournalOp → Build
  | .append ev => { b with stamped := b.stamped ++ [ev] }
  | .bump _ seed => ⟨seed, []⟩

/-- A journal keeps standing for the build under way. -/
theorem represents_run (serde : Serde) (epoch : Nat) (seed : List SessionDriverEvent)
    (ops : List JournalOp) :
    Represents serde (ops.foldl (SessionJournal.step serde) (createJournal epoch seed))
      (ops.foldl Build.step ⟨seed, []⟩).seed (ops.foldl Build.step ⟨seed, []⟩).stamped := by
  refine List.foldl_rel (r := fun j (b : Build) => Represents serde j b.seed b.stamped)
    (represents_create epoch seed) fun op _ j b h => ?_
  cases op with
  | append ev => exact h.append ev
  | bump epoch seed => exact represents_bump j epoch seed

/-- **The seed of a journal folds to its seed and its events, in order**, wherever the
ring evicted and whatever was fused. -/
theorem foldAll_buildSeed_foldl_appendEvent (serde : Serde) (epoch : Nat)
    (seed evs : List SessionDriverEvent) :
    foldAll (buildSeed (evs.foldl (appendEvent serde) (createJournal epoch seed))).2.2 =
      foldAll (seed ++ evs) :=
  foldAll_buildSeed ((represents_create epoch seed).foldl_append evs)

/-- **Resume is exact on every run**: the tail is contiguous up to the current sequence
number and its bytes are accounted for; a covered client's frames are the events it
misses and bring it to the state of a fresh seed; a client ahead of the journal, or
whose next event is no longer in the tail, is not covered. -/
theorem resume_exact (serde : Serde) (epoch : Nat) (seed : List SessionDriverEvent)
    (ops : List JournalOp) :
    let j := ops.foldl (SessionJournal.step serde) (createJournal epoch seed)
    let b := ops.foldl Build.step ⟨seed, []⟩
    (j.seq = b.stamped.length ∧ j.tail.length ≤ j.seq ∧
      j.tail.map (·.seq) = List.range' (j.seq + 1 - j.tail.length) j.tail.length ∧
      j.tailBytes = frameBytes j.tail) ∧
    ∀ s,
      (tailCovers j s = true →
        let missed := j.tail.filter (fun f => s < f.seq)
        missed.map (·.seq) = List.range' (s + 1) (j.seq - s) ∧
        missed.map (·.ev) = b.stamped.drop s ∧
        foldAllFrom (foldAll (b.seed ++ b.stamped.take s)) (missed.map (·.ev)) =
          foldAll (buildSeed j).2.2) ∧
      (j.seq < s → tailCovers j s = false) ∧
      (s < j.seq → (∀ f ∈ j.tail, f.seq ≠ s + 1) → tailCovers j s = false) := by
  intro j b
  have h : Represents serde j b.seed b.stamped := represents_run serde epoch seed ops
  refine ⟨⟨h.seq_eq, h.tail_seq.1, h.tail_seq.2, h.tailBytes_eq⟩, fun s => ⟨?_, ?_, ?_⟩⟩
  · intro hs
    refine ⟨?_, ?_, resume_of_tailCovers h hs⟩
    · rw [h.filter_tail hs, map_seq_frames, List.length_drop, h.seq_eq]
    · rw [h.filter_tail hs, map_ev_frames]
  · intro hs
    simp [tailCovers, hs]
  · intro hs hmiss
    rw [Bool.eq_false_iff, Ne, h.tailCovers_iff]
    rintro (rfl | ⟨f, hf, hfs⟩)
    · omega
    · exact hmiss f hf hfs

end Pantoken
