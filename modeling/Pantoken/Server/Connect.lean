import Pantoken.Lib.Channel
import Pantoken.Server.Transcripts

/-!
# What a connecting client is queued

`add_client` makes a channel of 128 messages, fills it with sends that do not wait, and
only then hands its receiving end out.  So what does not fit is lost, and nothing looks at
it: a client that missed more of the tail than the channel holds is left short of it.  A
resume that is refused is answered with a seed of the token's session, while the connection
is focused on the default session.

## Main definitions

* `SessionHub.connectFocus`, `SessionHub.connectQueue` — the focus and the channel of a new
  connection.
* `Held` — the session, epoch and sequence number a client reaches by what it is queued.
* `ConnectAgrees`, `ResumeComplete` — what is asked of both.

## Main results

* `connectQueue_eq` — the channel holds the first 128 messages.
* `connect_agrees_iff` — **when what is queued meets the focus.**
* `resume_complete_iff` — **when the missed tail is queued whole.**
-/

namespace Pantoken

open Channel

/-! ### The code -/

/-- The capacity of a client's channel. -/
def clientChannel : ℕ := 128

/-- What `add_client` sends: the modelled messages, and the three it ends with. -/
inductive Outbound
  | msg (m : ServerMessage)
  | sessionStatus
  | updateStatus
  | pantokenSettings

namespace SessionHub

/-- The focus `add_client` gives the connection. -/
def connectFocus (h : SessionHub) : Option ResumeToken → Option SessionId
  | some r => if h.resumes r then some r.sessionId else h.defaultFocusId
  | none => h.defaultFocusId

/-- The messages `add_client` sends, in order. -/
def connectSends (h : SessionHub) (resume : Option ResumeToken) : List Outbound :=
  .msg .hello :: (h.greeting (h.connectFocus resume) resume).map .msg
    ++ [.sessionStatus, .updateStatus, .pantokenSettings]

/-- The channel `add_client` returns: nothing is received from it before. -/
def connectQueue (h : SessionHub) (resume : Option ResumeToken) : List Outbound :=
  sendAll clientChannel [] (h.connectSends resume)

end SessionHub

/-! ### What is asked -/

/-- What a client holds: a session, an epoch and a sequence number. -/
structure Held where
  session : Option SessionId
  epoch : ℕ
  seq : ℕ
  deriving DecidableEq, Repr

/-- What the resume token says the client holds. -/
def Held.ofToken : Option ResumeToken → Held
  | some r => ⟨some r.sessionId, r.epoch, r.seq⟩
  | none => ⟨none, 0, 0⟩

/-- A seed replaces what is held, an event moves it on. -/
def Held.read (held : Held) : Outbound → Held
  | .msg (.seed sid epoch seq _) => ⟨sid, epoch, seq⟩
  | .msg (.event _ epoch seq) => { held with epoch := epoch, seq := seq }
  | _ => held

/-- Where a session's journal stands: the events broadcast next go on from there. -/
def SessionHub.position (h : SessionHub) (sid : Option SessionId) : Held :=
  match h.seedOf sid with
  | some (epoch, seq, _) => ⟨sid, epoch, seq⟩
  | none => ⟨sid, 0, 0⟩

/-- What is queued brings the client to where the session it is focused on stands. -/
def ConnectAgrees (h : SessionHub) (resume : Option ResumeToken) : Prop :=
  (h.connectQueue resume).foldl Held.read (.ofToken resume) = h.position (h.connectFocus resume)

/-- The channel begins with the hello and these messages, whatever is sent after. -/
def QueuedFirst (q : List Outbound) (msgs : List ServerMessage) : Prop :=
  ∀ later, .msg .hello :: msgs.map .msg <+: sendAll clientChannel q later

/-- The missed tail is queued whole, or a seed in its place. -/
def ResumeComplete (h : SessionHub) (r : ResumeToken) (j : SessionJournal) : Prop :=
  QueuedFirst (h.connectQueue (some r)) (SessionHub.replay j r.seq) ∨
    QueuedFirst (h.connectQueue (some r)) [h.seedMsg (some r.sessionId)]

/-! ### The channel -/

section Connect

variable {h : SessionHub} {r : ResumeToken} {j : SessionJournal}

/-- The connection of the hub's own step: its focus, and what is sent on it but for the
three last messages. -/
theorem addClient_eq (h : SessionHub) (resume : Option ResumeToken) :
    h.addClient resume =
      { h with
        clients := h.clients ++
          [⟨h.nextClientKey, .hello :: h.greeting (h.connectFocus resume) resume,
            h.connectFocus resume, false, none⟩]
        nextClientKey := h.nextClientKey + 1 } := by
  cases resume with
  | none => rfl
  | some r => rfl

/-- The channel holds the first 128 messages. -/
theorem connectQueue_eq (h : SessionHub) (resume : Option ResumeToken) :
    h.connectQueue resume = (h.connectSends resume).take clientChannel := by
  have hempty : ([] : List Outbound).length ≤ clientChannel := Nat.zero_le _
  rw [SessionHub.connectQueue, sendAll_eq_take hempty, List.nil_append]

/-- Of the greeting, the first 127 messages fit behind the hello. -/
theorem foldl_read_connectQueue (held : Held) (h : SessionHub) (resume : Option ResumeToken) :
    (h.connectQueue resume).foldl Held.read held
      = (((h.greeting (h.connectFocus resume) resume).take 127).map .msg).foldl Held.read held := by
  have hlast : ∀ (k : ℕ) (held : Held),
      (([.sessionStatus, .updateStatus, .pantokenSettings] : List Outbound).take k).foldl
        Held.read held = held := by
    intro k held
    rcases k with _ | _ | _ | k
    · rfl
    · rfl
    · rfl
    · rw [List.take_of_length_le (by simp)]
      rfl
  rw [connectQueue_eq, SessionHub.connectSends]
  show ((.msg .hello :: ((h.greeting _ resume).map .msg ++ _ : List Outbound)).take
    (127 + 1)).foldl Held.read held = _
  rw [List.take_succ_cons, List.foldl_cons, List.take_append, List.foldl_append, hlast,
    List.map_take]
  rfl

/-- A seed brings the client to where its session stands. -/
theorem read_seedMsg (held : Held) (sid : Option SessionId) :
    held.read (.msg (h.seedMsg sid)) = h.position sid := by
  unfold SessionHub.seedMsg SessionHub.position
  cases h.seedOf sid with
  | none => rfl
  | some seed => rfl

theorem foldl_read_seed (held : Held) (sid : Option SessionId) :
    (([h.seedMsg sid].take 127).map Outbound.msg).foldl Held.read held = h.position sid :=
  read_seedMsg held sid

theorem take_frames (serde : Serde) (n k : ℕ) (evs : List SessionDriverEvent) :
    (frames serde n evs).take k = frames serde n (evs.take k) := by
  induction evs generalizing n k with
  | nil => simp
  | cons ev evs ih =>
    cases k with
    | zero => rfl
    | succ k =>
      rw [frames, List.take_succ_cons, ih, List.take_succ_cons, frames]

/-- Replayed frames move the client on by their number. -/
theorem foldl_read_frames (serde : Serde) (epoch : ℕ) (sid : Option SessionId) (n : ℕ)
    (evs : List SessionDriverEvent) :
    (((frames serde n evs).map fun f => ServerMessage.event f.ev epoch f.seq).map
        Outbound.msg).foldl Held.read ⟨sid, epoch, n⟩ = ⟨sid, epoch, n + evs.length⟩ := by
  induction evs generalizing n with
  | nil => rfl
  | cons ev evs ih =>
    rw [frames, List.map_cons, List.map_cons, List.foldl_cons]
    show List.foldl Held.read ⟨sid, epoch, n + 1⟩ _ = _
    rw [ih, List.length_cons]
    congr 1
    omega

/-- A token that resumes names the journal's epoch, and the tail covers its number. -/
theorem resumes_iff (hj : h.journals r.sessionId = some j) :
    h.resumes r = true ↔ j.epoch = r.epoch ∧ tailCovers j r.seq = true := by
  simp [SessionHub.resumes, hj]

theorem position_of_journal {sid : SessionId} (hj : h.journals sid = some j) :
    h.position (some sid) = ⟨some sid, j.epoch, j.seq⟩ := by
  simp [SessionHub.position, SessionHub.seedOf, hj, buildSeed]

/-- A number the tail covers is not beyond the journal's. -/
theorem Represents.le_of_tailCovers {serde : Serde} {seed log : List SessionDriverEvent}
    (hrep : Represents serde j seed log) {s : ℕ} (hcov : tailCovers j s = true) : s ≤ j.seq := by
  rcases (hrep.tailCovers_iff s).mp hcov with heq | ⟨f, hf, hfs⟩
  · exact heq.le
  · obtain ⟨hlen, hseqs⟩ := hrep.tail_seq
    have hmem : f.seq ∈ j.tail.map (·.seq) := List.mem_map_of_mem hf
    rw [hseqs, List.mem_range'_1] at hmem
    omega

/-- Where a client that resumes is brought: 127 events on, or to the end of the log. -/
theorem foldl_read_replay {serde : Serde} {seed log : List SessionDriverEvent}
    (hrep : Represents serde j seed log) (hepoch : j.epoch = r.epoch)
    (hcov : tailCovers j r.seq = true) :
    (((SessionHub.replay j r.seq).take 127).map Outbound.msg).foldl Held.read (.ofToken (some r))
      = ⟨some r.sessionId, j.epoch, r.seq + ((log.drop r.seq).take 127).length⟩ := by
  have hframes : (SessionHub.replay j r.seq).take 127
      = (frames serde r.seq ((log.drop r.seq).take 127)).map
          fun f => ServerMessage.event f.ev j.epoch f.seq := by
    rw [SessionHub.replay, hrep.filter_tail hcov, ← List.map_take, take_frames]
  rw [hframes, Held.ofToken, ← hepoch, foldl_read_frames]

/-- **When what is queued meets the focus**, in every state of the server and for every
token: a token of a session with a journal resumes with at most 127 events to catch up on,
or is refused while its session is the default one. -/
theorem connect_agrees_iff (serde : Serde) (deltaFlushMs nowMs : ℕ)
    (defaultSeed : Option SwapSeed) (acts : List Server.Action) (resume : Option ResumeToken) :
    let h := ((Server.boot deltaFlushMs nowMs defaultSeed).run serde acts).hub
    ConnectAgrees h resume ↔
      ∀ r j, resume = some r → h.journals r.sessionId = some j →
        (h.resumes r = true → j.seq ≤ r.seq + 127) ∧
          (h.resumes r = false → h.defaultFocusId = some r.sessionId) := by
  intro h
  have hsound : h.Sound serde :=
    ((Server.sound_boot serde deltaFlushMs nowMs defaultSeed).run acts).hub
  unfold ConnectAgrees
  rw [foldl_read_connectQueue]
  cases resume with
  | none => exact iff_of_true (foldl_read_seed _ _) (by intro r j hr; cases hr)
  | some r =>
    cases hj : h.journals r.sessionId with
    | none =>
      have hgreet : h.greeting (h.connectFocus (some r)) (some r)
          = [h.seedMsg (h.connectFocus (some r))] := by simp [SessionHub.greeting, hj]
      rw [hgreet]
      refine iff_of_true (foldl_read_seed _ _) ?_
      intro r' j' hr' hj'
      cases hr'
      rw [hj] at hj'
      cases hj'
    | some j =>
      have hall : (∀ r' j', some r = some r' → h.journals r'.sessionId = some j' →
            (h.resumes r' = true → j'.seq ≤ r'.seq + 127) ∧
              (h.resumes r' = false → h.defaultFocusId = some r'.sessionId)) ↔
          (h.resumes r = true → j.seq ≤ r.seq + 127) ∧
            (h.resumes r = false → h.defaultFocusId = some r.sessionId) := by
        constructor
        · intro hcond
          exact hcond r j rfl hj
        · intro hcond r' j' hr' hj'
          cases hr'
          rw [hj] at hj'
          cases hj'
          exact hcond
      rw [hall]
      cases hres : h.resumes r with
      | true =>
        obtain ⟨hepoch, hcov⟩ := (resumes_iff hj).mp hres
        obtain ⟨seed, log, hrep⟩ := (hsound.journal _ j hj).represents
        have hgreet : h.greeting (h.connectFocus (some r)) (some r)
            = SessionHub.replay j r.seq := by simp [SessionHub.greeting, hj, hres]
        have hfocus : h.connectFocus (some r) = some r.sessionId := by
          simp [SessionHub.connectFocus, hres]
        have hseq := hrep.seq_eq
        have hle : r.seq ≤ j.seq := hrep.le_of_tailCovers hcov
        rw [hgreet, foldl_read_replay hrep hepoch hcov, hfocus, position_of_journal hj]
        simp only [Held.mk.injEq, true_and, List.length_take, List.length_drop, forall_const,
          Bool.true_eq_false, false_imp_iff, and_true]
        omega
      | false =>
        have hgreet : h.greeting (h.connectFocus (some r)) (some r)
            = [h.seedMsg (some r.sessionId)] := by simp [SessionHub.greeting, hj, hres]
        have hfocus : h.connectFocus (some r) = h.defaultFocusId := by
          simp [SessionHub.connectFocus, hres]
        rw [hgreet, foldl_read_seed, hfocus]
        have hsession : ∀ sid, (h.position sid).session = sid := by
          intro sid
          unfold SessionHub.position
          cases h.seedOf sid with
          | none => rfl
          | some seed => rfl
        constructor
        · intro heq
          have hs := congrArg Held.session heq
          rw [hsession, hsession] at hs
          exact ⟨fun hf => absurd hf (by simp), fun _ => hs.symm⟩
        · rintro ⟨-, hdefault⟩
          rw [hdefault rfl]

/-- A stale token of a session that is not the default one: the seed is of the token's
session, and the connection is focused on the default session. -/
theorem connect_disagrees :
    let serde : Serde := ⟨fun _ => 0, fun _ => none⟩
    let m : Moment := ⟨default, 0, true⟩
    let defaultSeed : SwapSeed :=
      ⟨[.sessionOpened ⟨⟨"w", "d"⟩, "t", none⟩
        (metaSnapshot initialSessionState ⟨"w", "d"⟩ "t")], .inr ⟨_, _, _, rfl⟩⟩
    let h := ((Server.boot 0 0 (some defaultSeed)).run serde
      (connectAndSend m 0 (.openSession "p") ++ .tick m (.seed (titledSeed "s")) :: ticks m 4)).hub
    let resume : Option ResumeToken := some ⟨"s", 0, 0⟩
    (h.connectQueue resume).foldl Held.read (.ofToken resume) = ⟨some "s", 2, 0⟩ ∧
      h.connectFocus resume = some "d" ∧ ¬ ConnectAgrees h resume := by
  intro serde m defaultSeed h resume
  have hheld : (h.connectQueue resume).foldl Held.read (.ofToken resume) = ⟨some "s", 2, 0⟩ := by
    decide
  have hfocus : h.connectFocus resume = some "d" := by decide
  refine ⟨hheld, hfocus, ?_⟩
  unfold ConnectAgrees
  rw [hheld, hfocus]
  decide

/-! ### The missed tail -/

theorem queuedFirst_iff (q : List Outbound) (msgs : List ServerMessage) :
    QueuedFirst q msgs ↔ .msg .hello :: msgs.map .msg <+: q := by
  constructor
  · intro hfirst
    exact hfirst []
  · intro hpart later
    exact hpart.trans (prefix_sendAll q later)

theorem seedMsg_ne_event (sid : Option SessionId) (ev : SessionDriverEvent) (epoch seq : ℕ) :
    h.seedMsg sid ≠ .event ev epoch seq := by
  unfold SessionHub.seedMsg
  cases h.seedOf sid with
  | none =>
    intro heq
    cases heq
  | some seed =>
    intro heq
    cases heq

/-- What a client that resumes is sent. -/
theorem connectSends_of_resumes (hj : h.journals r.sessionId = some j)
    (hres : h.resumes r = true) :
    h.connectSends (some r) = (.msg .hello :: (SessionHub.replay j r.seq).map .msg)
      ++ [.sessionStatus, .updateStatus, .pantokenSettings] := by
  simp [SessionHub.connectSends, SessionHub.greeting, hj, hres]

/-- 127 frames fit behind the hello. -/
theorem ResumeComplete.of_le (hj : h.journals r.sessionId = some j) (hres : h.resumes r = true)
    (hle : (j.tail.filter (fun f => r.seq < f.seq)).length ≤ 127) : ResumeComplete h r j := by
  left
  rw [queuedFirst_iff, connectQueue_eq, connectSends_of_resumes hj hres, List.prefix_take_iff]
  refine ⟨List.prefix_append _ _, ?_⟩
  simp only [List.length_cons, List.length_map, SessionHub.replay, clientChannel]
  omega

/-- More do not, and no seed takes their place. -/
theorem not_resumeComplete_of_lt (hj : h.journals r.sessionId = some j)
    (hres : h.resumes r = true) (hlt : 127 < (j.tail.filter (fun f => r.seq < f.seq)).length) :
    ¬ ResumeComplete h r j := by
  unfold ResumeComplete
  rw [queuedFirst_iff, queuedFirst_iff, connectQueue_eq, connectSends_of_resumes hj hres]
  rintro (hwhole | hseed)
  · have hle := hwhole.length_le
    simp only [List.length_cons, List.length_map, List.length_take, SessionHub.replay,
      clientChannel] at hle
    omega
  · cases hfs : j.tail.filter (fun f => r.seq < f.seq) with
    | nil =>
      rw [hfs] at hlt
      exact absurd hlt (by decide)
    | cons f fs =>
      -- a frame is queued where the seed would be
      obtain ⟨rest, hrest⟩ := hseed
      rw [SessionHub.replay, hfs] at hrest
      have hsecond := congrArg (·[1]?) hrest
      simp only [List.map_cons, List.map_nil, List.cons_append, List.nil_append, clientChannel,
        List.take_succ_cons, List.getElem?_cons_succ, List.getElem?_cons_zero, Option.some.injEq,
        Outbound.msg.injEq] at hsecond
      exact seedMsg_ne_event _ _ _ _ hsecond

/-- A token of another epoch is answered with the seed. -/
theorem ResumeComplete.of_epoch (hj : h.journals r.sessionId = some j)
    (hepoch : j.epoch ≠ r.epoch) : ResumeComplete h r j := by
  have hres : h.resumes r = false := by
    rw [← Bool.not_eq_true, resumes_iff hj]
    rintro ⟨heq, -⟩
    exact hepoch heq
  have hsends : h.connectSends (some r) = [.msg .hello, .msg (h.seedMsg (some r.sessionId)),
      .sessionStatus, .updateStatus, .pantokenSettings] := by
    simp [SessionHub.connectSends, SessionHub.greeting, hj, hres]
  right
  rw [queuedFirst_iff, connectQueue_eq, hsends]
  exact ⟨[.sessionStatus, .updateStatus, .pantokenSettings], rfl⟩

/-- **When the missed tail is queued whole**, or a seed in its place, for every journal and
every token its tail covers: at most 127 frames are missed, or the token is of another epoch
and gets the seed. -/
theorem resume_complete_iff (hj : h.journals r.sessionId = some j)
    (hcov : tailCovers j r.seq = true) :
    ResumeComplete h r j ↔
      j.epoch ≠ r.epoch ∨ (j.tail.filter (fun f => r.seq < f.seq)).length ≤ 127 := by
  by_cases hepoch : j.epoch = r.epoch
  · have hres : h.resumes r = true := (resumes_iff hj).mpr ⟨hepoch, hcov⟩
    constructor
    · intro hcomplete
      right
      by_contra hlt
      exact not_resumeComplete_of_lt hj hres (Nat.lt_of_not_le hlt) hcomplete
    · rintro (hne | hle)
      · exact absurd hepoch hne
      · exact ResumeComplete.of_le hj hres hle
  · exact iff_of_true (ResumeComplete.of_epoch hj hepoch) (.inl hepoch)

/-- The hub after a number of messages in its default session. -/
def busyHub (m : Moment) (n : ℕ) : SessionHub :=
  ((Server.boot 0 0 (some (titledSeed "s"))).run ⟨fun _ => 0, fun _ => none⟩
    (List.replicate n (.input (.event m
      (.userMessage ⟨⟨"w", "s"⟩, "t", none⟩ "u" "hello" none none none))))).hub

theorem resume_complete_two :
    ∃ j, (busyHub ⟨default, 0, true⟩ 2).journals "s" = some j ∧
      (ResumeComplete (busyHub ⟨default, 0, true⟩ 2) ⟨"s", 1, 1⟩ j ↔
        j.epoch ≠ 1 ∨ (j.tail.filter (fun f => 1 < f.seq)).length ≤ 127) := by
  have hcov : ((busyHub ⟨default, 0, true⟩ 2).journals "s").map (fun j => tailCovers j 1)
      = some true := by decide
  obtain ⟨j, hj, hj1⟩ := Option.map_eq_some_iff.mp hcov
  exact ⟨j, hj, @resume_complete_iff _ ⟨"s", 1, 1⟩ j hj hj1⟩

/-- After 128 messages a client that saw none of them is queued 127. -/
theorem not_resumeComplete_busyHub :
    ∃ j, (busyHub ⟨default, 0, true⟩ 128).journals "s" = some j ∧ tailCovers j 0 = true ∧
      ¬ ResumeComplete (busyHub ⟨default, 0, true⟩ 128) ⟨"s", 1, 0⟩ j := by
  have hmissed : ((busyHub ⟨default, 0, true⟩ 128).journals "s").map (fun j =>
      (j.epoch, tailCovers j 0, (j.tail.filter (fun f => 0 < f.seq)).length))
      = some (1, true, 128) := by decide +kernel
  -- the hub's value is in `hmissed`, and must not be computed again
  generalize busyHub ⟨default, 0, true⟩ 128 = h at hmissed ⊢
  obtain ⟨j, hj, hvalues⟩ := Option.map_eq_some_iff.mp hmissed
  simp only [Prod.mk.injEq] at hvalues
  obtain ⟨hepoch, hcov, hlen⟩ := hvalues
  have hiff := @resumes_iff h ⟨"s", 1, 0⟩ j hj
  have hlt : 127 < (j.tail.filter (fun f => 0 < f.seq)).length := by omega
  exact ⟨j, hj, hcov, @not_resumeComplete_of_lt h ⟨"s", 1, 0⟩ j hj
    (hiff.mpr ⟨hepoch, hcov⟩) hlt⟩

end Connect

end Pantoken
