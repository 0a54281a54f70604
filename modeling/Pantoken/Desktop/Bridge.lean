import Mathlib.Data.List.Infix
import Pantoken.Lib.Run

/-!
# The bridge between a browser socket and its proxies

The relay of a browser socket spawns a proxy on the remote host and forwards both ways.
When the proxy's process exits the exit is classified: the relay keeps the socket and
spawns another proxy, or gives up.  The end of the proxy's output, its exit and a broken
pipe to it are three observations of one event, and come in any order.

A step is one arrival, one arm of a `select!`, or one round of a relay direction's loop.

## Main definitions

* `classifyExit`, `ExitClassification.isRetryable` — what an exit means.
* `Relay`, `Relay.step` — a relay, with the frames and reads that have arrived.
* `Relay.ByExit` — what the relay did when a proxy ended is what the exit's class says.
* `Relay.Greets` — proxies hear the hello first, and nothing is lost between two of them.

## Main results

* `byExit_iff` — **the outcome is by the exit exactly when no poll finds the exit future
  ready, and no other sign of the end is of anything but a clean exit.**
* `greets_iff` — **proxies are greeted exactly when a fresh proxy's first message is the
  hello, and none waits while the relay backs off.**
* `phase_ne_backoff` — exit futures that panic leave one proxy a socket.
-/

namespace Pantoken.Desktop

/-! ### States -/

inductive PreflightPhase
  | checkingDockerAccess
  | locatingContainer
  | inspectingIdentity
  | checkingUserPermissions
  | checkingPersistence
  deriving DecidableEq, Repr

/-- The failure classification surfaced to the UI. -/
inductive ConnectionFailureState
  | sshAuthFailed
  | hostKeyUnknown
  | sshUnreachable
  | protocolMismatch
  | proxyStartFailed
  | startupFailed
  | provisioningFailed
  deriving DecidableEq, Repr

inductive RiskKind
  | rootExecution
  | ephemeralData
  deriving DecidableEq, Repr

structure PendingRisk where
  id : String
  kind : RiskKind
  fingerprint : String
  deriving DecidableEq, Repr

/-- The full connection state model. -/
inductive ConnectionState
  | disconnected
  | testingSsh
  | preflight (phase : PreflightPhase)
  | awaitingAcknowledgement (phase : PreflightPhase) (pendingRisks : List PendingRisk)
  | connecting
  | starting
  | ready
  | reconnecting
  | provisioning
  | failed (kind : ConnectionFailureState) (detail : String)
  deriving DecidableEq, Repr

/-- A short, user-facing label for this failure. -/
def ConnectionFailureState.label : ConnectionFailureState → String
  | .sshAuthFailed => "SSH authentication failed"
  | .hostKeyUnknown => "Host key unknown"
  | .sshUnreachable => "Can't reach the host"
  | .protocolMismatch => "Protocol mismatch"
  | .proxyStartFailed => "Couldn't start the bridge"
  | .startupFailed => "Remote runtime didn't start"
  | .provisioningFailed => "Provisioning failed"

/-- A suggested next action for the user. -/
def ConnectionFailureState.suggestedAction : ConnectionFailureState → String
  | .sshAuthFailed =>
    "Check your SSH key is loaded in the agent, or that the key/passphrase is correct."
  | .hostKeyUnknown => "Connect to the host via SSH manually first to accept its host key."
  | .sshUnreachable => "Check the host is up and reachable, and the port is correct."
  | .protocolMismatch => "The remote runtime is incompatible — upgrade it to match this app."
  | .proxyStartFailed => "Check for a port conflict on loopback, or that ssh is on PATH."
  | .startupFailed => "Check the remote runtime's logs — it exited during startup."
  | .provisioningFailed => "Provisioning failed — see the remote runtime's install logs."

/-! ### Exits -/

structure ExitInfo where
  code : Option Int
  signal : Option Int
  stderr : String
  deriving DecidableEq, Repr

inductive ExitClassification
  | sshAuthFailed
  | hostKeyUnknown
  | sshUnreachable
  | cleanExit
  | unknownError
  deriving DecidableEq, Repr

namespace ExitClassification

/-- `is_retryable` -/
def isRetryable : ExitClassification → Bool
  | .sshUnreachable | .unknownError => true
  | _ => false

/-- `to_failure_state` -/
def toFailureState : ExitClassification → Option ConnectionFailureState
  | .sshAuthFailed => some .sshAuthFailed
  | .hostKeyUnknown => some .hostKeyUnknown
  | .sshUnreachable => some .sshUnreachable
  | .cleanExit => none
  | .unknownError => some .startupFailed

end ExitClassification

/-- `to_ascii_lowercase`, then `contains`. -/
def lowerContains (text pattern : String) : Bool :=
  decide (pattern.toList <:+: text.toList.map Char.toLower)

/-- `classify_exit` -/
def classifyExit (exit : ExitInfo) : ExitClassification :=
  let code := exit.code.getD (-1)
  if code = 255 then
    if lowerContains exit.stderr "permission denied" then .sshAuthFailed
    else if lowerContains exit.stderr "host key verification failed"
        || lowerContains exit.stderr "host key for" then .hostKeyUnknown
    else if lowerContains exit.stderr "connection refused"
        || lowerContains exit.stderr "timed out"
        || lowerContains exit.stderr "unreachable"
        || lowerContains exit.stderr "could not resolve hostname" then .sshUnreachable
    else if lowerContains exit.stderr "refused" then .hostKeyUnknown
    else .unknownError
  else if code = 0 then .cleanExit
  else .unknownError

/-- `max_attempts` of `ReconnectPolicy::new`. -/
def maxAttempts : Nat := 5

/-- What a relay does when its proxy has ended. -/
inductive Outcome
  /-- The socket stays, and another proxy is spawned after a while. -/
  | retries
  | fails (kind : ConnectionFailureState)
  /-- The socket is closed. -/
  | closes
  /-- The task panicked. -/
  | panics
  /-- The task waits for a future that never completes. -/
  | hangs
  deriving DecidableEq, Repr

/-- What a class of exits asks for, after a number of retries. -/
def outcomeOf (c : ExitClassification) (attempt : Nat) : Outcome :=
  if c.isRetryable then
    if attempt < maxAttempts then .retries else .fails .sshUnreachable
  else
    match c.toFailureState with
    | some kind => .fails kind
    | none => .closes

theorem outcomeOf_eq_closes_iff {c : ExitClassification} {attempt : Nat} :
    outcomeOf c attempt = .closes ↔ c = .cleanExit := by
  by_cases h : attempt < maxAttempts <;> cases c <;>
    simp [outcomeOf, ExitClassification.isRetryable, ExitClassification.toFailureState, h]

/-! ### Relays -/

/-- What polling the exit future does after it completed: the future of an `async` block
panics. -/
inductive Repoll
  | panics | pending | ready
  deriving DecidableEq, Repr

/-- What a read of a proxy's output gives: the messages it completes, the end, or an
error. -/
inductive StdoutRead (N : Type*)
  | data (msgs : List N)
  | eof
  | error
  deriving DecidableEq, Repr

/-- A frame of the browser's socket; of a text, the client message `browser_to_ssh` reads
from it and can frame. -/
inductive WsFrame (M : Type*)
  | text (msg : Option M)
  | binary
  | ping (payload : List UInt8)
  | pong
  | close
  | frame
  | error
  /-- The stream ended. -/
  | none
  deriving DecidableEq, Repr

/-- A frame the relay sends to the browser. -/
inductive SentFrame (N : Type*)
  | text (msg : N)
  | keepalive
  | pong (payload : List UInt8)
  deriving DecidableEq, Repr

/-- A spawned proxy: how its process is going to exit, whether the exit future is ready,
what can be read from it and whether it still reads; then what was written to it, and what
it said. -/
structure Proxy (M N : Type*) where
  exit : ExitInfo
  repoll : Repoll
  exited : Bool := false
  stdout : List (StdoutRead N) := []
  stdinOpen : Bool := true
  received : List M := []
  said : List N := []
  pongs : List (List UInt8) := []

/-- Where the `select!` of a relay stands: between two polls, or in one of its two
directions. -/
inductive RelayStep
  | waiting | reading | forwarding
  deriving DecidableEq, Repr

inductive RelayPhase (M N : Type*)
  /-- `spawn_proxy` is under way. -/
  | spawning
  | relaying (pc : RelayStep) (proxy : Proxy M N)
  | backoff
  /-- `run_ws_relay` returned, panicked or is stuck. -/
  | finished

/-- A proxy's end: its exit, the retries before it, and what the relay did. -/
structure ProxyEnd where
  exit : ExitInfo
  attempt : Nat
  outcome : Outcome
  deriving DecidableEq, Repr

/-- A relay, with the frames of the browser it has not read, and what it sent and told the
state sink; then what happened: whether an exit future was polled again, how proxies ended,
the first message each of them received, and the messages that were dropped between two of
them. -/
structure Relay (M N : Type*) where
  phase : RelayPhase M N := .spawning
  attempt : Nat := 0
  cancelled : Bool := false
  inbox : List (WsFrame M) := []
  wsOpen : Bool := true
  sent : List (SentFrame N) := []
  told : List ConnectionState := [.connecting, .starting]
  polledAgain : Bool := false
  ended : List ProxyEnd := []
  greetings : List M := []
  dropped : List M := []

inductive RelayAction (M N : Type*)
  | cancel
  | browser (f : WsFrame M)
  /-- Writes to the browser fail from now on. -/
  | hangUp
  | spawned (result : Except String (ExitInfo × Repoll))
  | stdout (read : StdoutRead N)
  | exits
  /-- Writes to the proxy fail from now on. -/
  | breakPipe
  | poll
  | read
  | forward
  /-- A direction has to wait. -/
  | suspend
  /-- A round of the backoff loop, with what its timers say. -/
  | backoff (deadline tick : Bool)

namespace Relay

variable {M N : Type*}

/-- The task is over. -/
def finish (s : Relay M N) : Relay M N := { s with phase := .finished }

/-- A proxy's end, noted. -/
def ends (s : Relay M N) (exit : ExitInfo) (outcome : Outcome) : Relay M N :=
  { s with ended := s.ended ++ [⟨exit, s.attempt, outcome⟩] }

def tell (s : Relay M N) (state : ConnectionState) : Relay M N :=
  { s with told := s.told ++ [state] }

/-- What follows the exit's classification. -/
def judge (s : Relay M N) (exit : ExitInfo) : Relay M N :=
  if !(classifyExit exit).isRetryable then
    match (classifyExit exit).toFailureState with
    | some failure => ((s.ends exit (.fails failure)).tell (.failed failure exit.stderr)).finish
    | none => (s.ends exit .closes).finish
  else if s.attempt < maxAttempts then
    { (s.ends exit .retries).tell .reconnecting with
      attempt := s.attempt + 1
      phase := .backoff }
  else
    ((s.ends exit (.fails .sshUnreachable)).tell
      (.failed .sshUnreachable "reconnect backoff exhausted")).finish

/-- The `select!` is polled: cancellation, then the exit future, which the code awaits once
more when it is ready. -/
def poll (s : Relay M N) (proxy : Proxy M N) : Relay M N :=
  if s.cancelled then s.finish
  else if proxy.exited then
    match proxy.repoll with
    | .panics => ({ s with polledAgain := true }.ends proxy.exit .panics).finish
    | .pending => ({ s with polledAgain := true }.ends proxy.exit .hangs).finish
    | .ready => { s with polledAgain := true }.judge proxy.exit
  else { s with phase := .relaying .reading proxy }

/-- A round of `ssh_to_browser`. -/
def read (s : Relay M N) (proxy : Proxy M N) : Relay M N :=
  match proxy.pongs with
  | payload :: pongs =>
    if s.wsOpen then
      { s with
        sent := s.sent ++ [.pong payload]
        phase := .relaying .reading { proxy with pongs } }
    else s.finish
  | [] =>
    match proxy.stdout with
    | [] => { s with phase := .relaying .forwarding proxy }
    | .data msgs :: stdout =>
      if s.wsOpen || msgs.isEmpty then
        { s with
          sent := s.sent ++ msgs.map .text
          phase := .relaying .reading { proxy with stdout, said := proxy.said ++ msgs } }
      else s.finish
    -- stdout EOF: the connection is dead
    | .eof :: _ => (s.ends proxy.exit .closes).finish
    | .error :: _ => s.finish

/-- A round of `browser_to_ssh`. -/
def forward (s : Relay M N) (proxy : Proxy M N) : Relay M N :=
  match s.inbox with
  | [] => { s with phase := .relaying .waiting proxy }
  | .text (some msg) :: inbox =>
    if proxy.stdinOpen then
      { s with
        inbox
        greetings := if proxy.received.isEmpty then s.greetings ++ [msg] else s.greetings
        phase := .relaying .forwarding { proxy with received := proxy.received ++ [msg] } }
    -- the proxy no longer reads
    else (s.ends proxy.exit .closes).finish
  | .ping payload :: inbox =>
    { s with
      inbox
      phase := .relaying .forwarding { proxy with pongs := proxy.pongs ++ [payload] } }
  | .close :: _ | .error :: _ | .none :: _ => s.finish
  | .text none :: inbox | .binary :: inbox | .pong :: inbox | .frame :: inbox =>
    { s with inbox, phase := .relaying .forwarding proxy }

/-- A round of the loop between two proxies. -/
def backoff (s : Relay M N) (deadline tick : Bool) : Relay M N :=
  if s.cancelled then s.finish
  else if deadline then { s.tell .starting with phase := .spawning }
  else if tick then
    if s.wsOpen then { s with sent := s.sent ++ [.keepalive] } else s.finish
  else
    match s.inbox with
    | [] => s
    | .close :: _ | .error :: _ | .none :: _ => s.finish
    -- ignore text/binary/ping during retry
    | .text (some msg) :: inbox => { s with inbox, dropped := s.dropped ++ [msg] }
    | _ :: inbox => { s with inbox }

/-- One step. -/
def step (s : Relay M N) (a : RelayAction M N) : Relay M N :=
  match a, s.phase with
  | .cancel, _ => { s with cancelled := true }
  | .browser f, _ => { s with inbox := s.inbox ++ [f] }
  | .hangUp, _ => { s with wsOpen := false }
  | .spawned (.ok (exit, repoll)), .spawning =>
    { s.tell .ready with phase := .relaying .waiting { exit, repoll } }
  | .spawned (.error e), .spawning =>
    (s.tell (.failed .proxyStartFailed ("could not start SSH proxy: " ++ e))).finish
  | .stdout read, .relaying pc proxy =>
    { s with phase := .relaying pc { proxy with stdout := proxy.stdout ++ [read] } }
  | .exits, .relaying pc proxy => { s with phase := .relaying pc { proxy with exited := true } }
  | .breakPipe, .relaying pc proxy =>
    { s with phase := .relaying pc { proxy with stdinOpen := false } }
  | .poll, .relaying .waiting proxy => s.poll proxy
  | .read, .relaying .reading proxy => s.read proxy
  | .forward, .relaying .forwarding proxy => s.forward proxy
  | .suspend, .relaying _ proxy => { s with phase := .relaying .waiting proxy }
  | .backoff deadline tick, .backoff => s.backoff deadline tick
  | _, _ => s

/-- **The outcome is by the exit**: no exit future is polled after it completed, and what
the relay did when a proxy ended is what the class of the exit asks for. -/
structure ByExit (s : Relay M N) : Prop where
  once : s.polledAgain = false
  outcome : ∀ e ∈ s.ended, e.outcome = outcomeOf (classifyExit e.exit) e.attempt

/-- No poll finds the exit future ready, and an end of the output or a broken pipe is a
clean exit's. -/
def EndsCleanly (s : Relay M N) (a : RelayAction M N) : Prop :=
  match a, s.phase with
  | .poll, .relaying .waiting proxy => s.cancelled = false → proxy.exited = false
  | .read, .relaying .reading proxy => proxy.pongs = [] → proxy.stdout.head? = some .eof →
      classifyExit proxy.exit = .cleanExit
  | .forward, .relaying .forwarding proxy => proxy.stdinOpen = false →
      (∃ msg, s.inbox.head? = some (.text (some msg))) → classifyExit proxy.exit = .cleanExit
  | _, _ => True

/-- **Proxies are greeted first**: the first message each of them received is the hello,
and no message was dropped between two of them. -/
structure Greets (isHello : M → Bool) (s : Relay M N) : Prop where
  first : ∀ msg ∈ s.greetings, isHello msg = true
  kept : s.dropped = []

/-- What a fresh proxy is fed first is the hello, and the backoff loop finds no message. -/
def Introduces (isHello : M → Bool) (s : Relay M N) (a : RelayAction M N) : Prop :=
  match a, s.phase with
  | .forward, .relaying .forwarding proxy => ∀ msg, proxy.received = [] →
      proxy.stdinOpen = true → s.inbox.head? = some (.text (some msg)) → isHello msg = true
  | .backoff deadline tick, .backoff =>
      s.cancelled = false → deadline = false → tick = false →
        ∀ msg, s.inbox.head? ≠ some (.text (some msg))
  | _, _ => True

/-! ### Outcomes -/

section Outcomes

variable {s s' : Relay M N} {proxy : Proxy M N} {exit : ExitInfo}

theorem ByExit.of_eq (h : s.ByExit) (hpolled : s'.polledAgain = s.polledAgain)
    (hended : s'.ended = s.ended) : s'.ByExit where
  once := by rw [hpolled, h.once]
  outcome := by rw [hended]; exact h.outcome

/-- One more end is by the exit where what was done is what is asked for. -/
theorem byExit_ends_iff (h : s.ByExit) {outcome : Outcome} :
    (s.ends exit outcome).ByExit ↔ outcome = outcomeOf (classifyExit exit) s.attempt := by
  constructor
  · intro h'
    exact h'.outcome ⟨exit, s.attempt, outcome⟩ (by simp [ends])
  · intro heq
    refine ⟨h.once, fun e he => ?_⟩
    rcases List.mem_append.mp he with he | he
    · exact h.outcome e he
    · obtain rfl := List.mem_singleton.mp he
      exact heq

/-- The branch that classifies the exit does what its class asks for. -/
theorem ended_judge : (s.judge exit).ended =
    s.ended ++ [⟨exit, s.attempt, outcomeOf (classifyExit exit) s.attempt⟩] := by
  unfold judge
  split
  · next hretry =>
    have hretry' : (classifyExit exit).isRetryable = false := by simpa using hretry
    split
    · next failure hfailure => simp [ends, tell, finish, outcomeOf, hretry', hfailure]
    · next hfailure => simp [ends, finish, outcomeOf, hretry', hfailure]
  · next hretry =>
    have hretry' : (classifyExit exit).isRetryable = true := by simpa using hretry
    split
    · next hlt => simp [ends, tell, outcomeOf, hretry', hlt]
    · next hlt => simp [ends, tell, finish, outcomeOf, hretry', hlt]

theorem polledAgain_judge : (s.judge exit).polledAgain = s.polledAgain := by
  unfold judge
  split
  · split <;> rfl
  · split <;> rfl

/-- Once the exit future is ready, the code polls it again. -/
theorem byExit_poll_iff (h : s.ByExit) :
    (s.poll proxy).ByExit ↔ (s.cancelled = false → proxy.exited = false) := by
  unfold poll
  split
  · next hc => exact iff_of_true (h.of_eq rfl rfl) (by simp [hc])
  · next hc =>
    split
    · next he =>
      refine iff_of_false (fun h' => ?_) (by simp [hc, he])
      have hpolled := h'.once
      split at hpolled
      · cases hpolled
      · cases hpolled
      · rw [polledAgain_judge] at hpolled
        cases hpolled
    · next he => exact iff_of_true (h.of_eq rfl rfl) (by simp [he])

/-- The end of the output closes the socket, whatever the exit. -/
theorem byExit_read_iff (h : s.ByExit) : (s.read proxy).ByExit ↔
    (proxy.pongs = [] → proxy.stdout.head? = some .eof →
      classifyExit proxy.exit = .cleanExit) := by
  unfold read
  split
  · next payload pongs hpongs =>
    refine iff_of_true ?_ (by simp [hpongs])
    split <;> exact h.of_eq rfl rfl
  · next hpongs =>
    split
    · next hout => exact iff_of_true (h.of_eq rfl rfl) (by simp [hout])
    · next msgs stdout hout =>
      refine iff_of_true ?_ (by simp [hout])
      split <;> exact h.of_eq rfl rfl
    · next stdout hout =>
      have hends : (s.ends proxy.exit .closes).finish.ByExit ↔
          (s.ends proxy.exit .closes).ByExit :=
        ⟨fun h' => h'.of_eq rfl rfl, fun h' => h'.of_eq rfl rfl⟩
      rw [hends, byExit_ends_iff h, eq_comm, outcomeOf_eq_closes_iff]
      simp [hpongs, hout]
    · next stdout hout => exact iff_of_true (h.of_eq rfl rfl) (by simp [hout])

/-- So does a broken pipe. -/
theorem byExit_forward_iff (h : s.ByExit) : (s.forward proxy).ByExit ↔
    (proxy.stdinOpen = false → (∃ msg, s.inbox.head? = some (.text (some msg))) →
      classifyExit proxy.exit = .cleanExit) := by
  unfold forward
  split
  case h_2 msg inbox hin =>
    split
    · next hopen => exact iff_of_true (h.of_eq rfl rfl) (by simp [hopen])
    · next hopen =>
      have hends : (s.ends proxy.exit .closes).finish.ByExit ↔
          (s.ends proxy.exit .closes).ByExit :=
        ⟨fun h' => h'.of_eq rfl rfl, fun h' => h'.of_eq rfl rfl⟩
      rw [hends, byExit_ends_iff h, eq_comm, outcomeOf_eq_closes_iff]
      simp [hopen, hin]
  all_goals exact iff_of_true (h.of_eq rfl rfl) (by simp [*])

theorem byExit_backoff (h : s.ByExit) (deadline tick : Bool) :
    (s.backoff deadline tick).ByExit := by
  unfold backoff
  split
  · exact h.of_eq rfl rfl
  · split
    · exact h.of_eq rfl rfl
    · split
      · split <;> exact h.of_eq rfl rfl
      · split <;> exact h.of_eq rfl rfl

theorem byExit_step_iff (h : s.ByExit) (a : RelayAction M N) :
    s.EndsCleanly a ↔ (s.step a).ByExit := by
  unfold EndsCleanly
  split
  · next proxy hphase => simp only [step, hphase, byExit_poll_iff h]
  · next proxy hphase => simp only [step, hphase, byExit_read_iff h]
  · next proxy hphase => simp only [step, hphase, byExit_forward_iff h]
  · next hpoll hread hforward =>
    refine iff_of_true trivial ?_
    unfold step
    split
    case h_9 proxy hphase => exact (hpoll proxy rfl hphase).elim
    case h_10 proxy hphase => exact (hread proxy rfl hphase).elim
    case h_11 proxy hphase => exact (hforward proxy rfl hphase).elim
    case h_13 => exact byExit_backoff h _ _
    all_goals exact h.of_eq rfl rfl

/-- **The outcome is by the exit in every state of a run exactly when no poll finds the exit
future ready, and no other sign of a proxy's end is of anything but a clean exit.** -/
theorem byExit_iff (inbox : List (WsFrame M)) (acts : List (RelayAction M N)) :
    (∀ pre, pre <+: acts → (pre.foldl step ({ inbox } : Relay M N)).ByExit) ↔
      Along step EndsCleanly ({ inbox } : Relay M N) acts :=
  (along_iff_forall_part (I := ByExit) (fun _ a h => byExit_step_iff h a)
    ⟨rfl, fun _ he => absurd he List.not_mem_nil⟩ acts).symm

end Outcomes

/-- The exit of a remote command that failed. -/
def failedExit : ExitInfo := { code := some 1, signal := none, stderr := "" }

/-- The end of the output is read before the exit is seen. -/
def eofFirst : List (RelayAction Nat Nat) :=
  [.spawned (.ok (failedExit, .panics)), .stdout .eof, .poll, .read]

/-- The exit is seen first. -/
def exitFirst : List (RelayAction Nat Nat) :=
  [.spawned (.ok (failedExit, .panics)), .stdout .eof, .exits, .poll]

/-- **A retryable exit closes the socket where the end of the output is read first, and
panics where the exit is seen first.** -/
theorem not_byExit :
    ¬ (eofFirst.foldl step {}).ByExit ∧ ¬ (exitFirst.foldl step {}).ByExit := by
  constructor
  · intro h
    exact absurd (h.outcome ⟨failedExit, 0, .closes⟩ (List.mem_singleton.mpr rfl)) (by decide)
  · intro h
    exact absurd h.once (by decide)

/-! ### Greetings -/

section Greetings

variable {s s' : Relay M N} {proxy : Proxy M N} {exit : ExitInfo} {isHello : M → Bool}

theorem Greets.of_eq (h : s.Greets isHello) (hgreetings : s'.greetings = s.greetings)
    (hdropped : s'.dropped = s.dropped) : s'.Greets isHello where
  first := by rw [hgreetings]; exact h.first
  kept := by rw [hdropped, h.kept]

theorem greets_judge (h : s.Greets isHello) : (s.judge exit).Greets isHello := by
  unfold judge
  split
  · split <;> exact h.of_eq rfl rfl
  · split <;> exact h.of_eq rfl rfl

theorem greets_poll (h : s.Greets isHello) : (s.poll proxy).Greets isHello := by
  unfold poll
  split
  · exact h.of_eq rfl rfl
  · split
    · split
      · exact h.of_eq rfl rfl
      · exact h.of_eq rfl rfl
      · exact greets_judge (h.of_eq rfl rfl)
    · exact h.of_eq rfl rfl

theorem greets_read (h : s.Greets isHello) : (s.read proxy).Greets isHello := by
  unfold read
  split
  · split <;> exact h.of_eq rfl rfl
  · split
    · exact h.of_eq rfl rfl
    · split <;> exact h.of_eq rfl rfl
    · exact h.of_eq rfl rfl
    · exact h.of_eq rfl rfl

/-- A fresh proxy is greeted where what it is fed is the hello. -/
theorem greets_forward_iff (h : s.Greets isHello) : (s.forward proxy).Greets isHello ↔
    ∀ msg, proxy.received = [] → proxy.stdinOpen = true →
      s.inbox.head? = some (.text (some msg)) → isHello msg = true := by
  unfold forward
  split
  case h_2 msg inbox hin =>
    split
    · next hopen =>
      by_cases hfresh : proxy.received = []
      · simp only [hfresh, List.isEmpty_nil, if_true, hin, List.head?_cons]
        constructor
        · rintro h' msg' - - heq
          cases heq
          exact h'.first msg (by simp)
        · intro hhello
          refine ⟨fun m hm => ?_, h.kept⟩
          rcases List.mem_append.mp hm with hm | hm
          · exact h.first m hm
          · rw [List.mem_singleton.mp hm]
            exact hhello msg trivial hopen rfl
      · have hfresh' : proxy.received.isEmpty = false := by simpa using hfresh
        refine iff_of_true (h.of_eq ?_ rfl) (by simp [hfresh])
        simp [hfresh']
    · next hopen => exact iff_of_true (h.of_eq rfl rfl) (by simp [hopen])
  all_goals exact iff_of_true (h.of_eq rfl rfl) (by simp [*])

/-- Between two proxies, what is read of the socket is lost. -/
theorem greets_backoff_iff (h : s.Greets isHello) (deadline tick : Bool) :
    (s.backoff deadline tick).Greets isHello ↔
      (s.cancelled = false → deadline = false → tick = false →
        ∀ msg, s.inbox.head? ≠ some (.text (some msg))) := by
  unfold backoff
  split
  · next hc => exact iff_of_true (h.of_eq rfl rfl) (by simp [hc])
  · next hc =>
    split
    · next hd => exact iff_of_true (h.of_eq rfl rfl) (by simp [hd])
    · next hd =>
      split
      · next ht =>
        refine iff_of_true ?_ (by simp [ht])
        split <;> exact h.of_eq rfl rfl
      · next ht =>
        split
        case h_5 msg inbox hin =>
          refine iff_of_false (fun h' => ?_) (by simp [hc, hd, ht, hin])
          exact absurd h'.kept (by simp)
        case h_6 f inbox _ _ _ hf hin =>
          refine iff_of_true (h.of_eq rfl rfl) fun _ _ _ msg heq => hf msg ?_
          rw [hin] at heq
          exact Option.some.inj heq
        all_goals exact iff_of_true (h.of_eq rfl rfl) (by simp [*])

theorem greets_step_iff (h : s.Greets isHello) (a : RelayAction M N) :
    s.Introduces isHello a ↔ (s.step a).Greets isHello := by
  unfold Introduces
  split
  · next proxy hphase => simp only [step, hphase, greets_forward_iff h]
  · next deadline tick hphase => simp only [step, hphase, greets_backoff_iff h]
  · next hforward hbackoff =>
    refine iff_of_true trivial ?_
    unfold step
    split
    case h_9 => exact greets_poll h
    case h_10 => exact greets_read h
    case h_11 proxy hphase => exact (hforward proxy rfl hphase).elim
    case h_13 deadline tick hphase => exact (hbackoff deadline tick rfl hphase).elim
    all_goals exact h.of_eq rfl rfl

/-- **Proxies are greeted in every state of a run exactly when what a fresh proxy is fed
first is the hello, and no message waits where the relay backs off.** -/
theorem greets_iff (isHello : M → Bool) (inbox : List (WsFrame M))
    (acts : List (RelayAction M N)) :
    (∀ pre, pre <+: acts → (pre.foldl step ({ inbox } : Relay M N)).Greets isHello) ↔
      Along step (Introduces isHello) ({ inbox } : Relay M N) acts :=
  (along_iff_forall_part (I := Greets isHello) (fun _ a h => greets_step_iff h a)
    ⟨fun _ hm => absurd hm List.not_mem_nil, rfl⟩ acts).symm

end Greetings

/-- The browser says hello, the first proxy exits, and the browser goes on. -/
def retried : List (RelayAction Nat Nat) :=
  [.spawned (.ok (failedExit, .ready)), .poll, .read, .forward, .forward, .exits, .poll]

/-- A message while the relay backs off. -/
def droppedMessage : List (RelayAction Nat Nat) :=
  retried ++ [.browser (.text (some 1)), .backoff false false]

/-- A message for the second proxy. -/
def unintroduced : List (RelayAction Nat Nat) :=
  retried ++ [.backoff true false, .spawned (.ok (failedExit, .ready)), .browser (.text (some 1)),
    .poll, .read, .forward]

/-- **After a retry the browser's next message is lost, or is the first one the new proxy
receives.** -/
theorem not_greets :
    ¬ (droppedMessage.foldl step { inbox := [.text (some 0)] }).Greets (· == 0) ∧
      ¬ (unintroduced.foldl step { inbox := [.text (some 0)] }).Greets (· == 0) := by
  constructor
  · intro h
    exact absurd h.kept (by decide)
  · intro h
    exact absurd (h.first 1 (by decide)) (by decide)

/-! ### One proxy a socket -/

section Panics

variable {s : Relay M N}

/-- The relay never backs off, and an exit future it has panics when it is polled again. -/
def OneProxy (s : Relay M N) : Prop :=
  match s.phase with
  | .backoff => False
  | .relaying _ proxy => proxy.repoll = .panics
  | _ => True

theorem oneProxy_finish : s.finish.OneProxy := trivial

/-- Every exit future is one of an `async` block. -/
def SpawnsAsync (_ : Relay M N) : RelayAction M N → Prop
  | .spawned (.ok (_, repoll)) => repoll = .panics
  | _ => True

theorem oneProxy_step (h : s.OneProxy) (a : RelayAction M N) (ha : s.SpawnsAsync a) :
    (s.step a).OneProxy := by
  have hof : ∀ {pc proxy}, s.phase = .relaying pc proxy → proxy.repoll = .panics := by
    intro pc proxy hphase
    rw [OneProxy, hphase] at h
    exact h
  unfold step
  split
  case h_9 proxy hphase =>
    have hpanics := hof hphase
    unfold poll
    split
    · exact oneProxy_finish
    · split
      · rw [hpanics]
        exact oneProxy_finish
      · exact hpanics
  case h_10 proxy hphase =>
    have hpanics := hof hphase
    unfold read
    split
    · split
      · exact hpanics
      · exact oneProxy_finish
    · split
      · exact hpanics
      · split
        · exact hpanics
        · exact oneProxy_finish
      · exact oneProxy_finish
      · exact oneProxy_finish
  case h_11 proxy hphase =>
    have hpanics := hof hphase
    unfold forward
    split
    case h_2 =>
      split
      · exact hpanics
      · exact oneProxy_finish
    all_goals first
      | exact hpanics
      | exact oneProxy_finish
  case h_13 deadline tick hphase =>
    rw [OneProxy, hphase] at h
    exact h.elim
  case h_4 => exact ha
  case h_5 => exact oneProxy_finish
  case h_6 | h_7 | h_8 | h_12 =>
    next proxy hphase =>
      have hpanics := hof hphase
      exact hpanics
  all_goals exact h

/-- **With exit futures that panic on a second poll no relay ever spawns twice.** -/
theorem phase_ne_backoff (inbox : List (WsFrame M)) (acts : List (RelayAction M N))
    (h : Along step SpawnsAsync ({ inbox } : Relay M N) acts) :
    (acts.foldl step ({ inbox } : Relay M N)).OneProxy := by
  have hboot : ({ inbox } : Relay M N).OneProxy := trivial
  exact Along.foldl_invariant (I := OneProxy) (fun _ a h ha => oneProxy_step h a ha) hboot h

end Panics

end Relay
end Pantoken.Desktop
