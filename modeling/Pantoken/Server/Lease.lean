import Mathlib.Algebra.Group.Int.Defs
import Mathlib.Algebra.Group.Nat.Defs
import Pantoken.Server.Slicing

/-!
# Lease conflicts

One TUI at a time holds the attachment lease of a daemon.  A claim while another one holds it is
answered with status 409 and a body that names the holder and when its lease expires.  The claim
is retried where that expiry comes before the retries are over, and given up with a message that
says how long to wait where it does not.

The error of a request is the `message` of the body where it has one, and the claim reads the
holder from that error.

## Main definitions

* `parseLeaseHeldError`, `claimLease` — what a claim makes of an answer.
* `claimLeaseWithRetry` — the loop over claims, with the arithmetic of `i64`.
* `AsTold` — what its documentation says of a loop: how many claims, why it stops, with what.
* `Undisturbed` — no number of the loop wraps in a way that shows.

## Main results

* `claimLease_conflict_iff` — a conflict carries the holder where the message names it.
* `asTold_iff` — the loop does as it is told where no number wraps.
* `lease_conflicts_iff` — **both**.
-/

namespace Pantoken.Server.Lease

/-! ### The answer of a claim -/

/-- `LeaseHeldInfo` -/
structure LeaseHeldInfo where
  summary : String
  expiresAt : Option String
  deriving DecidableEq

/-- The holder in the body of a conflict. -/
structure Active where
  activeTerminalLabel : Option String
  activePid : Option Int
  expiresAt : Option String
  deriving DecidableEq

/-- The body of a conflict. -/
structure Body where
  active : Option Active
  message : Option String
  deriving DecidableEq

def Active.held (a : Active) : LeaseHeldInfo :=
  let label := a.activeTerminalLabel.getD "unknown TUI"
  let pid := (a.activePid.map fun p => s!" pid {p}").getD ""
  let expires := (a.expiresAt.map fun e => s!", lease expires {e}").getD ""
  ⟨s!"\"{label}\"{pid}{expires}", a.expiresAt⟩

/-- `LeaseError` -/
inductive LeaseError
  | conflict (held : Option LeaseHeldInfo)
  | other (msg : String)
  deriving DecidableEq

/-- `TuiAttachClaimResponse`, without the expiry that nothing reads. -/
structure ClaimResponse where
  leaseId : String
  heartbeatIntervalSeconds : Int
  expiresAfterSeconds : Int
  deriving DecidableEq

/-- `AttachmentLease`: what is kept of a lease that was claimed. -/
structure AttachmentLease where
  leaseId : String
  heartbeatIntervalMs : Int
  expiresAfterMs : Int
  deriving DecidableEq

def ClaimResponse.lease (data : ClaimResponse) : AttachmentLease :=
  ⟨data.leaseId, max data.heartbeatIntervalSeconds 1 * 1000, max data.expiresAfterSeconds 1 * 1000⟩

section Claim

/- `serde_json::from_str`, to a value, to the body of a conflict and to the answer of a claim. -/
variable (parse : String → Option Json) (readBody : String → Option Body)
  (readClaim : String → Option ClaimResponse)

/-- `parse_lease_held_error` -/
def parseLeaseHeldError (error : Option String) : Option LeaseHeldInfo :=
  (error.bind readBody).bind fun body =>
    match body.active with
    | some a => some a.held
    | none => body.message.map fun m => ⟨m, none⟩

/-- The data of `post`: a body that is not empty, where it can be read. -/
def postData (r : DaemonReply) : Option ClaimResponse :=
  let text := r.text.getD ""
  if r.status = 0 ∨ text = "" then none else readClaim text

/-- `claim_lease`; nothing where the error is cut inside a character. -/
def claimLease (r : DaemonReply) : Option (Except LeaseError AttachmentLease) :=
  (postError? parse r).map fun error =>
    match if r.status = 200 then postData readClaim r else none with
    | some data => .ok data.lease
    | none =>
      if r.status = 409 then .error (.conflict (parseLeaseHeldError readBody error))
      else
        let status := r.status
        let text := error.getD ""
        .error (.other s!"lease claim failed ({status}): {text}")

variable {parse readBody readClaim}

/-- An error with a message is that message, and a conflict is read from it. -/
theorem claimLease_message {r : DaemonReply} {message : String} (hstatus : r.status = 409)
    (hmessage : parsedMessage parse (r.text.getD "") = some message) :
    claimLease parse readBody readClaim r =
      some (.error (.conflict (parseLeaseHeldError readBody (some message)))) := by
  have herror : postError? parse r = some (some message) := by
    unfold postError?
    rw [if_neg (by omega), if_neg (by omega)]
    dsimp only
    rw [hmessage]
  unfold claimLease
  rw [herror, Option.map_some, if_neg (by omega)]
  dsimp only
  rw [if_pos hstatus]

/-- **A conflict carries the holder where the message of the body names it.** -/
theorem claimLease_conflict_iff {r : DaemonReply} {a : Active} {message : String}
    (hstatus : r.status = 409)
    (hmessage : parsedMessage parse (r.text.getD "") = some message) :
    claimLease parse readBody readClaim r = some (.error (.conflict (some a.held))) ↔
      parseLeaseHeldError readBody (some message) = some a.held := by
  rw [claimLease_message hstatus hmessage]
  simp

end Claim

/-! ### The loop -/

/-- `LeaseConflictError` -/
structure LeaseConflictError where
  message : String
  held : Option LeaseHeldInfo
  deriving DecidableEq

/-- `format_lease_conflict_message` -/
def formatLeaseConflictMessage (held : Option LeaseHeldInfo) (secondsToLapse : Option Int) :
    String :=
  match held with
  | none => "lease claim failed (409): another TUI is attached"
  | some held =>
    let wait := (secondsToLapse.map fun s => s!"{s}s").getD "~30s"
    let summary := held.summary
    s!"another TUI is attached to this session ({summary}). Detach it there (/detach) or wait " ++
      s!"{wait} for its lease to lapse."

/-- `ceil_seconds` -/
def ceilSeconds (ms : Int) : Int := if ms % 1000 ≠ 0 then ms / 1000 + 1 else ms / 1000

/-- A count of seconds that is rounded up. -/
theorem ceilSeconds_spec (ms : Int) :
    1000 * (ceilSeconds ms - 1) < ms ∧ ms ≤ 1000 * ceilSeconds ms := by
  unfold ceilSeconds
  split_ifs <;> omega

/-- `as i64`, and the value of `i64` arithmetic. -/
def asI64 (n : Int) : Int := n.bmod (2 ^ 64)

/-- What a loop over claims meets: the outcomes of the claims, the clock at each attempt and
after the last, and how an expiry is read. -/
structure Retry (α : Type*) where
  outcome : ℕ → Except LeaseError α
  /-- `current_millis` -/
  now : ℕ → Int
  /-- `parse_iso8601_to_millis` -/
  millis : String → Option Int
  maxRetries : Option UInt32
  delayMs : Option UInt64

namespace Retry

variable {α : Type*} (inp : Retry α)

def retries : ℕ := (inp.maxRetries.getD 3).toNat

def delay : ℕ := (inp.delayMs.getD 3000).toNat

/-- The expiry a conflict reports. -/
def expiry (held : Option LeaseHeldInfo) : Option Int :=
  (held.bind (·.expiresAt)).bind inp.millis

/-- The loop, with the attempts that are left, and the count of its claims. -/
def loop : ℕ → ℕ → Option (Option LeaseHeldInfo) → Except LeaseConflictError α × ℕ
  | 0, attempt, lastConflict =>
    let held := lastConflict.join
    let secondsToLapse := (inp.expiry held).map fun exp =>
      ceilSeconds (asI64 (asI64 exp - inp.now attempt))
    (.error ⟨formatLeaseConflictMessage held secondsToLapse, held⟩, 0)
  | left + 1, attempt, _ =>
    match inp.outcome attempt with
    | .ok v => (.ok v, 1)
    | .error (.other msg) => (.error ⟨msg, none⟩, 1)
    | .error (.conflict held) =>
      let msUntilExpiry := (inp.expiry held).map fun exp => asI64 (asI64 exp - inp.now attempt)
      let remainingDelays := asI64 (left * asI64 inp.delay)
      -- the last attempt is not compared: its conflict is reported behind the loop
      match if 0 < left then msUntilExpiry.filter (remainingDelays < ·) else none with
      | some ms => (.error ⟨formatLeaseConflictMessage held (some (ceilSeconds ms)), held⟩, 1)
      | none =>
        let rest := loop left (attempt + 1) (some held)
        (rest.1, rest.2 + 1)

/-- `claim_lease_with_retry`, and how many claims it makes. -/
def claimLeaseWithRetry : Except LeaseConflictError α × ℕ :=
  inp.loop ((inp.retries : Int).bmod (2 ^ 32) + 1).toNat 0 none

/-! ### Why a loop stops -/

/-- The clock that a conflict of an attempt is compared with. -/
def clock (k : ℕ) : Int := if k < inp.retries then inp.now k else inp.now (k + 1)

/-- A loop from attempt `start` on made `n` claims and ended with `r`: it retried conflicts whose
expiry is not beyond the remaining delays, and stopped for a reason. -/
structure Stops (beyond : ℕ → Option LeaseHeldInfo → Prop)
    (message : ℕ → Option LeaseHeldInfo → String) (start : ℕ)
    (r : Except LeaseConflictError α) (n : ℕ) : Prop where
  count : start + n ≤ inp.retries + 1
  retried : ∀ k, k + 1 < n → ∃ held, inp.outcome (start + k) = .error (.conflict held) ∧
    ¬ beyond (start + k) held
  last : ∃ k, n = k + 1 ∧
    ((∃ v, inp.outcome (start + k) = .ok v ∧ r = .ok v) ∨
      (∃ msg, inp.outcome (start + k) = .error (.other msg) ∧ r = .error ⟨msg, none⟩) ∨
      ∃ held, inp.outcome (start + k) = .error (.conflict held) ∧
        (start + k = inp.retries ∨ beyond (start + k) held) ∧
        r = .error ⟨message (start + k) held, held⟩)

/-- The expiry is beyond the remaining delays. -/
def Beyond (k : ℕ) (held : Option LeaseHeldInfo) : Prop :=
  k < inp.retries ∧ ∃ exp, inp.expiry held = some exp ∧
    ((inp.retries - k : ℕ) : Int) * inp.delay < exp - inp.clock k

/-- The holder, and the seconds to the expiry, rounded up. -/
def message (k : ℕ) (held : Option LeaseHeldInfo) : String :=
  formatLeaseConflictMessage held ((inp.expiry held).map fun exp =>
    ceilSeconds (exp - inp.clock k))

/-- **What is told of the loop.** -/
def AsTold (run : Except LeaseConflictError α × ℕ) : Prop :=
  inp.Stops inp.Beyond inp.message 0 run.1 run.2

/-- The time to an expiry as the loop has it. -/
def msUntil (k : ℕ) (exp : Int) : Int := asI64 (asI64 exp - inp.clock k)

/-- The comparison the loop makes. -/
def CodeBeyond (k : ℕ) (held : Option LeaseHeldInfo) : Prop :=
  k < inp.retries ∧ ∃ exp, inp.expiry held = some exp ∧
    asI64 (((inp.retries - k : ℕ) : Int) * asI64 inp.delay) < inp.msUntil k exp

def codeMessage (k : ℕ) (held : Option LeaseHeldInfo) : String :=
  formatLeaseConflictMessage held ((inp.expiry held).map fun exp =>
    ceilSeconds (inp.msUntil k exp))

variable {inp}

/-- One retry, in front of a loop that stops. -/
theorem Stops.cons {beyond : ℕ → Option LeaseHeldInfo → Prop}
    {message : ℕ → Option LeaseHeldInfo → String} {start n : ℕ} {held : Option LeaseHeldInfo}
    {r : Except LeaseConflictError α} (hout : inp.outcome start = .error (.conflict held))
    (hbeyond : ¬ beyond start held) (h : inp.Stops beyond message (start + 1) r n) :
    inp.Stops beyond message start r (n + 1) where
  count := by
    have hcount := h.count
    omega
  retried := by
    intro k hk
    cases k with
    | zero => exact ⟨held, hout, hbeyond⟩
    | succ k =>
      obtain ⟨held', hheld', hnot⟩ := h.retried k (by omega)
      rw [show start + (k + 1) = start + 1 + k by omega]
      exact ⟨held', hheld', hnot⟩
  last := by
    obtain ⟨k, rfl, hlast⟩ := h.last
    refine ⟨k + 1, rfl, ?_⟩
    rwa [show start + (k + 1) = start + 1 + k by omega]

/-- A loop that stops at once. -/
theorem Stops.single {beyond : ℕ → Option LeaseHeldInfo → Prop}
    {message : ℕ → Option LeaseHeldInfo → String} {start : ℕ}
    {r : Except LeaseConflictError α} (hcount : start ≤ inp.retries)
    (h : (∃ v, inp.outcome start = .ok v ∧ r = .ok v) ∨
      (∃ msg, inp.outcome start = .error (.other msg) ∧ r = .error ⟨msg, none⟩) ∨
      ∃ held, inp.outcome start = .error (.conflict held) ∧
        (start = inp.retries ∨ beyond start held) ∧ r = .error ⟨message start held, held⟩) :
    inp.Stops beyond message start r 1 where
  count := Nat.succ_le_succ hcount
  retried := fun k hk => absurd hk (by omega)
  last := ⟨0, rfl, h⟩

/-- What is no conflict ends the loop. -/
theorem Stops.of_no_conflict {beyond : ℕ → Option LeaseHeldInfo → Prop}
    {message : ℕ → Option LeaseHeldInfo → String} {start : ℕ} (hstart : start ≤ inp.retries)
    (h : ∀ held, inp.outcome start ≠ .error (.conflict held)) (left : ℕ)
    (last : Option (Option LeaseHeldInfo)) :
    inp.Stops beyond message start (inp.loop (left + 1) start last).1
      (inp.loop (left + 1) start last).2 := by
  unfold loop
  cases hout : inp.outcome start with
  | ok v => exact .single hstart (.inl ⟨v, hout, rfl⟩)
  | error e =>
    cases e with
    | other msg => exact .single hstart (.inr (.inl ⟨msg, hout, rfl⟩))
    | conflict held => exact absurd hout (h held)

/-- **The loop stops for the reasons it computes.** -/
theorem stops_loop (left start : ℕ) (last : Option (Option LeaseHeldInfo))
    (hstart : start + left = inp.retries) :
    inp.Stops inp.CodeBeyond inp.codeMessage start (inp.loop (left + 1) start last).1
      (inp.loop (left + 1) start last).2 := by
  induction left generalizing start last with
  | zero =>
    by_cases hconflict : ∃ held, inp.outcome start = .error (.conflict held)
    · -- the last attempt: its conflict is reported, by the clock behind the loop
      obtain ⟨held, hout⟩ := hconflict
      have hclock : inp.clock start = inp.now (start + 1) := by
        rw [clock, if_neg (by omega)]
      unfold loop
      rw [hout]
      refine .single (by omega) (.inr (.inr ⟨held, hout, .inl (by omega), ?_⟩))
      rw [codeMessage]
      simp only [msUntil, hclock]
      rfl
    · exact .of_no_conflict (by omega) (not_exists.mp hconflict) 0 last
  | succ left ih =>
    by_cases hconflict : ∃ held, inp.outcome start = .error (.conflict held)
    · obtain ⟨held, hout⟩ := hconflict
      have hclock : inp.clock start = inp.now start := by
        rw [clock, if_pos (by omega)]
      have hleft : inp.retries - start = left + 1 := by omega
      unfold loop
      rw [hout]
      dsimp only
      rw [if_pos (Nat.succ_pos left)]
      cases hexp : inp.expiry held with
      | none =>
        -- an expiry that is not known is no reason to give up
        have hnot : ¬ inp.CodeBeyond start held := by
          rintro ⟨-, exp, hsome, -⟩
          rw [hexp] at hsome
          cases hsome
        exact .cons hout hnot (ih (start + 1) (some held) (by omega))
      | some exp =>
        rw [Option.map_some, ← hclock, ← msUntil, Option.filter_some]
        by_cases hlt : asI64 (((left + 1 : ℕ) : Int) * asI64 inp.delay) < inp.msUntil start exp
        · -- the lease outlives the delays that are left
          rw [if_pos (decide_eq_true hlt)]
          refine .single (by omega) (.inr (.inr ⟨held, hout, .inr ⟨by omega, exp, hexp, ?_⟩, ?_⟩))
          · rwa [hleft]
          · rw [codeMessage, hexp]
            rfl
        · rw [if_neg (by simpa using hlt)]
          have hnot : ¬ inp.CodeBeyond start held := by
            rintro ⟨-, exp', hsome, hlt'⟩
            rw [hexp] at hsome
            cases hsome
            rw [hleft] at hlt'
            exact hlt hlt'
          exact .cons hout hnot (ih (start + 1) (some held) (by omega))
    · exact .of_no_conflict (by omega) (not_exists.mp hconflict) (left + 1) last

/-! ### Arithmetic that wraps -/

/-- Attempt `k` is made: those before it met conflicts that are not beyond. -/
def Reaches (inp : Retry α) (k : ℕ) : Prop :=
  ∀ j < k, ∃ held, inp.outcome j = .error (.conflict held) ∧ ¬ inp.Beyond j held

/-- The conversions and the arithmetic of the loop do not show: the number of retries is kept, and
each comparison and each message is the one of the exact numbers. -/
structure Undisturbed (inp : Retry α) : Prop where
  retries : inp.retries < 2 ^ 31
  agree : ∀ k held, k ≤ inp.retries → inp.Reaches k → inp.outcome k = .error (.conflict held) →
    (inp.CodeBeyond k held ↔ inp.Beyond k held) ∧
      ((k = inp.retries ∨ inp.Beyond k held) → inp.codeMessage k held = inp.message k held)

theorem claimLeaseWithRetry_eq (h : inp.retries < 2 ^ 31) :
    inp.claimLeaseWithRetry = inp.loop (inp.retries + 1) 0 none := by
  have hbmod : (inp.retries : Int).bmod (2 ^ 32) = inp.retries :=
    Int.bmod_eq_of_le (by omega) (by omega)
  rw [claimLeaseWithRetry, hbmod]
  congr 1

/-- A number of retries that is negative as `i32` makes no claim. -/
theorem claimLeaseWithRetry_wrapped (h : ¬ inp.retries < 2 ^ 31) :
    inp.claimLeaseWithRetry.2 = 0 := by
  have hlt : inp.retries < 2 ^ 32 := (inp.maxRetries.getD 3).toNat_lt
  have hbmod : ((inp.retries : Int).bmod (2 ^ 32) + 1).toNat = 0 := by
    rw [Int.bmod_def, Int.emod_eq_of_lt (by omega) (by omega), if_neg (by omega)]
    omega
  rw [claimLeaseWithRetry, hbmod]
  rfl

theorem undisturbed_of_asTold (h : inp.AsTold inp.claimLeaseWithRetry) : inp.Undisturbed := by
  have hretries : inp.retries < 2 ^ 31 := by
    by_contra hlarge
    obtain ⟨k, hk, -⟩ := h.last
    rw [claimLeaseWithRetry_wrapped hlarge] at hk
    cases hk
  refine ⟨hretries, fun k held hk hreach hout => ?_⟩
  have hcode := stops_loop inp.retries 0 none (Nat.zero_add inp.retries)
  rw [← claimLeaseWithRetry_eq hretries] at hcode
  obtain ⟨m, hm, hlast⟩ := h.last
  obtain ⟨m', hm', hcodeLast⟩ := hcode.last
  obtain rfl : m = m' := by omega
  have hcount := h.count
  simp only [Nat.zero_add] at hlast hcodeLast hcount
  -- an attempt that is reached is not behind the last one
  have hle : k ≤ m := by
    by_contra hlt
    obtain ⟨held', hout', hnot⟩ := hreach m (by omega)
    rcases hlast with ⟨v, hv, -⟩ | ⟨msg, hmsg, -⟩ | ⟨held'', hheld, hstop, -⟩
    · rw [hout'] at hv
      cases hv
    · rw [hout'] at hmsg
      cases hmsg
    · rw [hout'] at hheld
      cases hheld
      rcases hstop with hstop | hstop
      · omega
      · exact hnot hstop
  rcases Nat.lt_or_eq_of_le hle with hlt | rfl
  · -- an attempt that was retried
    obtain ⟨held', hout', hnot⟩ := h.retried k (by omega)
    obtain ⟨held'', hout'', hnotCode⟩ := hcode.retried k (by omega)
    rw [Nat.zero_add, hout] at hout' hout''
    cases hout'
    cases hout''
    rw [Nat.zero_add] at hnot hnotCode
    exact ⟨iff_of_false hnotCode hnot, fun hstop => absurd hstop (not_or.mpr ⟨by omega, hnot⟩)⟩
  · -- the last attempt
    rw [hout] at hlast hcodeLast
    simp only [reduceCtorEq, false_and, exists_false, Except.error.injEq, LeaseError.conflict.injEq,
      false_or] at hlast hcodeLast
    obtain ⟨_, rfl, hstop, hr⟩ := hlast
    obtain ⟨_, rfl, hcodeStop, hr'⟩ := hcodeLast
    rw [hr] at hr'
    have hmessage : inp.message k held = inp.codeMessage k held :=
      congrArg LeaseConflictError.message (Except.error.inj hr')
    refine ⟨?_, fun _ => hmessage.symm⟩
    by_cases heq : k = inp.retries
    · exact iff_of_false (fun hb => absurd hb.1 (by omega)) fun hb => absurd hb.1 (by omega)
    · exact iff_of_true (hcodeStop.resolve_left heq) (hstop.resolve_left heq)

theorem asTold_of_undisturbed (h : inp.Undisturbed) : inp.AsTold inp.claimLeaseWithRetry := by
  have hcode := stops_loop inp.retries 0 none (Nat.zero_add inp.retries)
  rw [← claimLeaseWithRetry_eq h.retries] at hcode
  obtain ⟨m, hm, hlast⟩ := hcode.last
  have hcount := hcode.count
  -- what the loop retried is not beyond either, so each attempt up to the last is reached
  have hreach : ∀ k ≤ m, inp.Reaches k := by
    intro k
    induction k with
    | zero => exact fun _ j hj => absurd hj (Nat.not_lt_zero j)
    | succ k ih =>
      intro hk j hj
      rcases Nat.lt_or_eq_of_le (Nat.lt_succ_iff.mp hj) with hlt | rfl
      · exact ih (by omega) j hlt
      · obtain ⟨held, hout, hnot⟩ := hcode.retried j (by omega)
        rw [Nat.zero_add] at hout hnot
        exact ⟨held, hout, fun hb =>
          hnot ((h.agree j held (by omega) (ih (by omega)) hout).1.mpr hb)⟩
  refine ⟨hcount, fun k hk => ?_, m, hm, ?_⟩
  · rw [Nat.zero_add]
    exact hreach (k + 1) (by omega) k (Nat.lt_succ_self k)
  · rcases hlast with hok | hother | ⟨held, hout, hstop, hr⟩
    · exact .inl hok
    · exact .inr (.inl hother)
    · rw [Nat.zero_add] at hout hstop hr
      obtain ⟨hiff, hmessage⟩ := h.agree m held (by omega) (hreach m le_rfl) hout
      have hstop' := hstop.imp_right hiff.mp
      rw [hmessage hstop'] at hr
      simp only [Nat.zero_add]
      exact .inr (.inr ⟨held, hout, hstop', hr⟩)

/-- **The loop does as it is told** exactly where no number of it wraps in a way that shows. -/
theorem asTold_iff : inp.AsTold inp.claimLeaseWithRetry ↔ inp.Undisturbed :=
  ⟨undisturbed_of_asTold, asTold_of_undisturbed⟩

/-- Numbers in these ranges do not wrap. -/
theorem undisturbed_of_inRange (hretries : inp.retries < 2 ^ 31)
    (hdelays : inp.retries * inp.delay < 2 ^ 63)
    (hexpiry : ∀ s exp, inp.millis s = some exp → -2 ^ 62 ≤ exp ∧ exp < 2 ^ 62)
    (hnow : ∀ k, -2 ^ 62 ≤ inp.now k ∧ inp.now k < 2 ^ 62) : inp.Undisturbed := by
  have hexact : ∀ n : Int, -2 ^ 63 ≤ n → n < 2 ^ 63 → asI64 n = n := fun n hle hlt =>
    Int.bmod_eq_of_le (by omega) (by omega)
  have hms : ∀ k held exp, inp.expiry held = some exp →
      inp.msUntil k exp = exp - inp.clock k := by
    intro k held exp hexp
    obtain ⟨s, -, hs⟩ := Option.bind_eq_some_iff.mp hexp
    have hrange := hexpiry s exp hs
    have hclock : -2 ^ 62 ≤ inp.clock k ∧ inp.clock k < 2 ^ 62 := by
      unfold clock
      split_ifs <;> exact hnow _
    rw [msUntil, hexact exp (by omega) (by omega), hexact _ (by omega) (by omega)]
  refine ⟨hretries, fun k held hk _ _ => ⟨?_, fun _ => ?_⟩⟩
  · -- the delays that are left are no more than all
    refine and_congr_right fun hlt => exists_congr fun exp => and_congr_right fun hexp => ?_
    have hle : (inp.retries - k) * inp.delay ≤ inp.retries * inp.delay :=
      Nat.mul_le_mul_right _ (Nat.sub_le _ _)
    have hdelay : inp.delay ≤ inp.retries * inp.delay :=
      Nat.le_mul_of_pos_left _ (by omega)
    rw [hms k held exp hexp, hexact inp.delay (by omega) (by omega),
      ← Int.natCast_mul, hexact _ (by omega) (by omega)]
  · unfold codeMessage message
    cases hexp : inp.expiry held with
    | none => rfl
    | some exp => rw [Option.map_some, Option.map_some, hms k held exp hexp]

end Retry

/-- **Conflicts carry their holder, and are retried by its expiry**, exactly where the message of
the body names the holder again, and where no number of the loop wraps. -/
theorem lease_conflicts_iff {α : Type*} (parse : String → Option Json)
    (readBody : String → Option Body) (readClaim : String → Option ClaimResponse)
    {r : DaemonReply} {a : Active} {message : String} (hstatus : r.status = 409)
    (_hbody : readBody (r.text.getD "") = some ⟨some a, some message⟩)
    (hmessage : parsedMessage parse (r.text.getD "") = some message) (inp : Retry α) :
    (claimLease parse readBody readClaim r = some (.error (.conflict (some a.held))) ↔
      parseLeaseHeldError readBody (some message) = some a.held) ∧
    (inp.AsTold inp.claimLeaseWithRetry ↔ inp.Undisturbed) :=
  ⟨claimLease_conflict_iff hstatus hmessage, Retry.asTold_iff⟩

/-! ### The body of a daemon -/

/-- A holder that a daemon reports. -/
def someHolder : Active := ⟨some "tui", some 99, some "2025-01-15T12:34:56Z"⟩

def heldMessage : String := "an interactive TUI is attached"

/-- The body of its answer. -/
def heldText : String :=
  "\x7b\"active\":\x7b\"active_pid\":99,\"active_terminal_label\":\"tui\"," ++
    "\"expires_at\":\"2025-01-15T12:34:56Z\"\x7d,\"message\":\"" ++ heldMessage ++ "\"\x7d"

/-- The readers of JSON, on this body and its message. -/
def parseHeld (text : String) : Option Json :=
  if text = heldText then
    some (.object [("active", .object [("active_pid", .int 99), ("active_terminal_label",
      .str "tui"), ("expires_at", .str "2025-01-15T12:34:56Z")]), ("message", .str heldMessage)])
  else none

def readHeld (text : String) : Option Body :=
  if text = heldText then some ⟨some someHolder, some heldMessage⟩ else none

def heldReply : DaemonReply := ⟨409, some heldText, none⟩

theorem readHeld_heldText : readHeld heldText = some ⟨some someHolder, some heldMessage⟩ :=
  if_pos rfl

theorem parsedMessage_heldText : parsedMessage parseHeld heldText = some heldMessage := by
  unfold parsedMessage parseHeld
  rw [if_pos rfl]
  rfl

theorem readHeld_heldMessage : readHeld heldMessage = none := by
  unfold readHeld
  exact if_neg (by decide)

/-- A lease that is free six seconds after the first claim: the expiry of its holder is not beyond
the three delays, and the second claim gets it. -/
def heldRetry : Retry Unit where
  outcome k := if k = 0 then .error (.conflict (some someHolder.held)) else .ok ()
  now k := if k = 0 then 1736944490000 else 1736944496000
  millis s := if s = "2025-01-15T12:34:56Z" then some 1736944496000 else none
  maxRetries := none
  delayMs := none

theorem heldRetry_asTold : heldRetry.AsTold heldRetry.claimLeaseWithRetry ∧
    heldRetry.claimLeaseWithRetry = (.ok (), 2) := by
  have hexpiry : ∀ s exp, heldRetry.millis s = some exp → exp = 1736944496000 := by
    intro s exp h
    change (if s = "2025-01-15T12:34:56Z" then some 1736944496000 else none) = some exp at h
    split_ifs at h
    exact (Option.some.inj h).symm
  have hnow : ∀ k, heldRetry.now k = 1736944490000 ∨ heldRetry.now k = 1736944496000 := by
    intro k
    change (if k = 0 then (1736944490000 : Int) else 1736944496000) = _ ∨ _
    split_ifs
    · exact .inl rfl
    · exact .inr (if_neg ‹_›)
  have hundisturbed : heldRetry.Undisturbed := by
    refine Retry.undisturbed_of_inRange (by decide) (by decide) (fun s exp h => ?_) fun k => ?_
    · have := hexpiry s exp h
      omega
    · have := hnow k
      omega
  exact ⟨(lease_conflicts_iff parseHeld readHeld (fun _ => none) (r := heldReply) rfl
    readHeld_heldText parsedMessage_heldText heldRetry).2.mpr hundisturbed, by decide⟩

/-- With the body of a daemon, the conflict names no holder. -/
theorem not_lease_conflicts :
    readHeld heldText = some ⟨some someHolder, some heldMessage⟩ ∧
      parsedMessage parseHeld heldText = some heldMessage ∧
      claimLease parseHeld readHeld (fun _ => none) heldReply = some (.error (.conflict none)) := by
  refine ⟨readHeld_heldText, parsedMessage_heldText, ?_⟩
  rw [claimLease_message (r := heldReply) rfl parsedMessage_heldText, parseLeaseHeldError,
    Option.bind_some, readHeld_heldMessage]
  rfl

end Pantoken.Server.Lease
