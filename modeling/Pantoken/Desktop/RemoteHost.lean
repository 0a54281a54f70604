import Pantoken.Desktop.Attempt

/-!
# The attempts of a remote profile

The desktop app keeps one session for a remote profile: the attempt that is current.  The
commands of the client look the session up, start an attempt, put its session in the map
and stop it, and take the lock of the map for each of these by itself; a stop keeps it
until the task of the attempt has ended, or two seconds have passed.  An attempt that was
stopped before its bridge ran is not told.

## Main definitions

* `RemoteHost`, `RemoteHost.step` — the attempts, the session and the commands under way.
* `RemoteHost.shown` — the state shown for the profile.
* `RemoteHost.Truthful` — what a step should do to the attempts and to the shown state.
* `RemoteHost.Keeps` — what a step must not find.

## Main results

* `truthful_iff` — **the steps of a run are truthful exactly when no attempt starts beside
  one that acts, none that failed hears another socket, no ensure finds a failure, and no
  proxy is spawned.**
* `not_truthful` — one run for each of the four.
* `shown_of_ne` — only the current attempt changes the shown state.
-/

namespace Pantoken.Desktop

/-- A command of the client; `resume_connection` is `ensure_remote_host` once more, and
`cancel_connection` is `disconnect_host`. -/
inductive Request
  /-- The profile's target, and the port that is going to be free. -/
  | ensureRemoteHost (target : ExecutionTarget) (port : Nat)
  | acknowledgeRisk (riskId fingerprint : String)
  | disconnectHost
  deriving DecidableEq, Repr

/-- Where a command is. -/
inductive HostCommand
  | asked (r : Request)
  /-- No session was found. -/
  | launch (target : ExecutionTarget) (port : Nat)
  /-- The task of the attempt is spawned. -/
  | insert (i : Nat)
  /-- The session is out of the map, whose lock is held. -/
  | disconnect (i : Nat)
  | cancel (i : Nat)
  | join (i : Nat)
  | returned
  deriving DecidableEq, Repr

/-- The attempt the command is stopping. -/
def HostCommand.stopping : HostCommand → Option Nat
  | .disconnect i | .cancel i | .join i => some i
  | _ => none

/-- All attempts for a profile, the one whose session is in the map, and the commands. -/
structure RemoteHost (M N : Type*) where
  attempts : List (Attempt M N) := []
  session : Option Nat := none
  commands : List HostCommand := []

/-- A command, a step of the command at a position, with whether the wait of a stop has
timed out, or a step of an attempt. -/
inductive HostAction (M N : Type*)
  | issue (r : Request)
  | run (n : Nat) (timedOut : Bool)
  | attempt (i : Nat) (a : AttemptAction M N)

namespace RemoteHost

variable {M N : Type*}

/-- `stop_remote` holds the lock of the map. -/
def locked (s : RemoteHost M N) : Bool := s.commands.any (·.stopping.isSome)

/-- The attempt whose session is in the map. -/
def current (s : RemoteHost M N) : Option (Attempt M N) := s.session.bind (s.attempts[·]?)

/-- The state `host_state` and `list_hosts` show. -/
def shown (s : RemoteHost M N) : ConnectionState := (s.current.map (·.state)).getD .disconnected

/-- `acknowledge_risk` finds the risk. -/
def awaits (s : RemoteHost M N) (riskId fingerprint : String) : Bool :=
  match s.shown with
  | .awaitingAcknowledgement _ pendingRisks =>
    pendingRisks.any fun risk => risk.id = riskId && risk.fingerprint = fingerprint
  | _ => false

def setCommand (s : RemoteHost M N) (n : Nat) (c : HostCommand) : RemoteHost M N :=
  { s with commands := s.commands.set n c }

def modifyAttempt (s : RemoteHost M N) (i : Nat) (f : Attempt M N → Attempt M N) :
    RemoteHost M N := { s with attempts := s.attempts.modify i f }

/-- `begin`, and the task that is spawned. -/
def launch (s : RemoteHost M N) (target : ExecutionTarget) (port : Nat) : RemoteHost M N :=
  { s with attempts := s.attempts ++ [Attempt.start target port] }

/-- The session is taken out of the map. -/
def withdraw (s : RemoteHost M N) : RemoteHost M N := { s with session := none }

/-- The session of an attempt is put in the map, over the one that is there. -/
def publish (s : RemoteHost M N) (i : Nat) : RemoteHost M N :=
  { s.modifyAttempt i ({ · with published := true }) with session := some i }

/-- The task of the attempt has returned. -/
def ended (s : RemoteHost M N) (i : Nat) : Bool :=
  match s.attempts[i]? with
  | none => true
  | some a => a.stage = .done

/-- A step of a command. -/
def runCommand (s : RemoteHost M N) (n : Nat) (timedOut : Bool) : HostCommand → RemoteHost M N
  | .asked (.ensureRemoteHost target port) =>
    if s.locked then s
    else
      match s.session with
      | some _ => s.setCommand n .returned
      | none => s.setCommand n (.launch target port)
  | .launch target port =>
    (s.launch target port).setCommand n (.insert s.attempts.length)
  | .insert i => if s.locked then s else (s.publish i).setCommand n .returned
  | .asked (.acknowledgeRisk riskId fingerprint) =>
    if s.locked then s
    else if s.awaits riskId fingerprint then s.setCommand n (.asked .disconnectHost)
    else s.setCommand n .returned
  | .asked .disconnectHost =>
    if s.locked then s
    else
      match s.session with
      | none => s.setCommand n .returned
      | some i => s.withdraw.setCommand n (.disconnect i)
  | .disconnect i => (s.modifyAttempt i Attempt.disconnect).setCommand n (.cancel i)
  | .cancel i => (s.modifyAttempt i Attempt.cancel).setCommand n (.join i)
  | .join i => if s.ended i || timedOut then s.setCommand n .returned else s
  | .returned => s

/-- One step. -/
def step (s : RemoteHost M N) : HostAction M N → RemoteHost M N
  | .issue r => { s with commands := s.commands ++ [.asked r] }
  | .run n timedOut =>
    match s.commands[n]? with
    | none => s
    | some c => s.runCommand n timedOut c
  | .attempt i a => s.modifyAttempt i (·.step a)

/-- At most one attempt acts. -/
def OneActing (s : RemoteHost M N) : Prop :=
  ∀ (i j : Nat) (a b : Attempt M N), s.attempts[i]? = some a → s.attempts[j]? = some b →
    a.acting = true → b.acting = true → i = j

/-- **A truthful step**: at most one attempt acts after it; an attempt that is not current
does not change the shown state; a terminal state stays terminal, unless a fresh attempt
becomes the current one; the state is ready only while a proxy of the current attempt has
answered the hello; and an ensure that finds a failure starts an attempt. -/
structure Truthful (isHello : N → Bool) (s : RemoteHost M N) (a : HostAction M N) : Prop where
  one : (s.step a).OneActing
  byCurrent : ∀ i act, a = .attempt i act → s.session ≠ some i → (s.step a).shown = s.shown
  stays : s.shown.isTerminal = true → (s.step a).shown.isTerminal = true ∨
    ∃ i, (s.step a).session = some i ∧ s.session ≠ some i
  ready : (s.step a).shown = .ready →
    ∃ att, (s.step a).current = some att ∧ att.greeted isHello = true
  fresh : ∀ n timedOut target port, a = .run n timedOut →
    s.commands[n]? = some (.asked (.ensureRemoteHost target port)) → s.locked = false →
      s.shown.isFailed = true → (s.step a).commands[n]? = some (.launch target port)

/-- No attempt starts beside one that acts, and no ensure finds a failure; and the current
attempt spawns no proxy, and upgrades no socket once its state is terminal. -/
def Keeps (s : RemoteHost M N) : HostAction M N → Prop
  | .issue _ => True
  | .run n _ =>
    match s.commands[n]? with
    | some (.launch _ _) => ∀ a ∈ s.attempts, a.acting = false
    | some (.asked (.ensureRemoteHost _ _)) => s.locked = false → s.shown.isFailed = false
    | _ => True
  | .attempt i act => s.session = some i → ∀ a, s.attempts[i]? = some a →
      ¬ a.Spawns act ∧ (act = .upgrade true → a.state.isTerminal = true → a.sockets = 0)

/-! ### What is kept -/

/-- What a run keeps: the current attempt is published and calm, and one that is not
published is calm and has no socket; a command that is going to publish an attempt is the
only one, and an attempt that is being stopped is not current; and one attempt acts. -/
structure Inv (s : RemoteHost M N) : Prop where
  current : ∀ i, s.session = some i → ∃ a, s.attempts[i]? = some a ∧ a.published = true ∧ a.Calm
  fresh : ∀ (i : Nat) (a : Attempt M N), s.attempts[i]? = some a → a.published = false →
    a.Calm ∧ a.sockets = 0 ∧ a.relays = []
  inserts : ∀ (n i : Nat), s.commands[n]? = some (.insert i) →
    ∃ a, s.attempts[i]? = some a ∧ a.published = false
  unique : ∀ (n m i : Nat), s.commands[n]? = some (.insert i) →
    s.commands[m]? = some (.insert i) → n = m
  stopped : ∀ (n : Nat) (c : HostCommand) (i : Nat), s.commands[n]? = some c →
    c.stopping = some i → s.session ≠ some i ∧ ∃ a, s.attempts[i]? = some a ∧ a.published = true
  one : s.OneActing

section Kept

variable {s : RemoteHost M N}

theorem getElem?_set_some {α : Type*} {l : List α} {n m : Nat} {x y : α}
    (h : (l.set n x)[m]? = some y) : (m = n ∧ y = x) ∨ (m ≠ n ∧ l[m]? = some y) := by
  rw [List.getElem?_set] at h
  split at h
  · next heq =>
    split at h
    · exact .inl ⟨heq.symm, (Option.some.inj h).symm⟩
    · cases h
  · next hne => exact .inr ⟨fun heq => hne heq.symm, h⟩

theorem getElem?_modify_some {α : Type*} {l : List α} {n m : Nat} {f : α → α} {y : α}
    (h : (l.modify n f)[m]? = some y) : ∃ x, l[m]? = some x ∧ y = if n = m then f x else x := by
  rw [List.getElem?_modify] at h
  obtain ⟨x, hx, heq⟩ := Option.map_eq_some_iff.mp h
  exact ⟨x, hx, heq.symm⟩

/-- A command that goes on, and neither publishes nor stops an attempt of its own. -/
theorem Inv.setCommand (h : s.Inv) (n : Nat) {c : HostCommand} (hinsert : ∀ i, c ≠ .insert i)
    (hstop : ∀ i, c.stopping = some i →
      s.session ≠ some i ∧ ∃ a, s.attempts[i]? = some a ∧ a.published = true) :
    (s.setCommand n c).Inv where
  current := h.current
  fresh := h.fresh
  inserts m i hm := by
    rcases getElem?_set_some hm with ⟨-, heq⟩ | ⟨-, hm⟩
    · exact absurd heq.symm (hinsert i)
    · exact h.inserts m i hm
  unique m m' i hm hm' := by
    rcases getElem?_set_some hm with ⟨-, heq⟩ | ⟨-, hm⟩
    · exact absurd heq.symm (hinsert i)
    · rcases getElem?_set_some hm' with ⟨-, heq⟩ | ⟨-, hm'⟩
      · exact absurd heq.symm (hinsert i)
      · exact h.unique m m' i hm hm'
  stopped m c' i hm hc' := by
    rcases getElem?_set_some hm with ⟨-, heq⟩ | ⟨-, hm⟩
    · rw [heq] at hc'
      exact hstop i hc'
    · exact h.stopped m c' i hm hc'
  one := h.one

theorem Inv.setCommand_of_none (h : s.Inv) (n : Nat) {c : HostCommand}
    (hinsert : ∀ i, c ≠ .insert i) (hstop : c.stopping = none) : (s.setCommand n c).Inv :=
  h.setCommand n hinsert fun i hi => by rw [hstop] at hi; cases hi

/-- An attempt changes: it does not act again, and what is to be calm stays so. -/
theorem Inv.modifyAttempt (h : s.Inv) (i : Nat) {f : Attempt M N → Attempt M N}
    (hpublished : ∀ a, (f a).published = a.published)
    (hacting : ∀ a, (f a).acting = true → a.acting = true)
    (hcurrent : s.session = some i → ∀ a, s.attempts[i]? = some a → a.Calm → (f a).Calm)
    (hfresh : ∀ a, s.attempts[i]? = some a → a.published = false →
      a.Calm ∧ a.sockets = 0 ∧ a.relays = [] →
        (f a).Calm ∧ (f a).sockets = 0 ∧ (f a).relays = []) :
    (s.modifyAttempt i f).Inv := by
  have hget : ∀ (j : Nat) (a : Attempt M N), s.attempts[j]? = some a →
      (s.modifyAttempt i f).attempts[j]? = some (if i = j then f a else a) := by
    intro j a ha
    unfold RemoteHost.modifyAttempt
    dsimp only
    rw [List.getElem?_modify, ha]
    split <;> rfl
  have hsome : ∀ (j : Nat) (p : Bool), (∃ a, s.attempts[j]? = some a ∧ a.published = p) →
      ∃ a, (s.modifyAttempt i f).attempts[j]? = some a ∧ a.published = p := by
    rintro j p ⟨a, ha, hp⟩
    refine ⟨_, hget j a ha, ?_⟩
    split
    · rw [hpublished, hp]
    · exact hp
  refine ⟨?_, ?_, fun n j hn => hsome j _ (h.inserts n j hn), h.unique, ?_, ?_⟩
  · intro j hj
    obtain ⟨a, ha, hp, hcalm⟩ := h.current j hj
    refine ⟨_, hget j a ha, ?_⟩
    split
    · next heq =>
      subst heq
      exact ⟨by rw [hpublished, hp], hcurrent hj a ha hcalm⟩
    · exact ⟨hp, hcalm⟩
  · intro j b hb hp
    obtain ⟨a, ha, rfl⟩ := getElem?_modify_some hb
    split at hp
    · next heq =>
      subst heq
      rw [hpublished] at hp
      rw [if_pos rfl]
      exact hfresh a ha hp (h.fresh i a ha hp)
    · next hne =>
      rw [if_neg hne]
      exact h.fresh j a ha hp
  · intro n c j hn hc
    exact ⟨(h.stopped n c j hn hc).1, hsome j _ (h.stopped n c j hn hc).2⟩
  · intro j k b b' hb hb' hact hact'
    obtain ⟨a, ha, rfl⟩ := getElem?_modify_some hb
    obtain ⟨a', ha', rfl⟩ := getElem?_modify_some hb'
    refine h.one j k a a' ha ha' ?_ ?_
    · split at hact
      · exact hacting a hact
      · exact hact
    · split at hact'
      · exact hacting a' hact'
      · exact hact'

/-- An attempt that is not published is, and becomes the current one. -/
theorem Inv.publish (h : s.Inv) {n i : Nat} (hn : s.commands[n]? = some (.insert i)) :
    ((s.publish i).setCommand n .returned).Inv := by
  obtain ⟨a, ha, hp⟩ := h.inserts n i hn
  have hget : ∀ j, (s.publish i).attempts[j]? =
      if i = j then some { a with published := true } else s.attempts[j]? := by
    intro j
    unfold RemoteHost.publish RemoteHost.modifyAttempt
    dsimp only
    rw [List.getElem?_modify]
    split
    · next heq => rw [← heq, ha]; rfl
    · next hne => cases s.attempts[j]? <;> rfl
  have hne : ∀ {j : Nat} {b : Attempt M N}, s.attempts[j]? = some b → b.published = true →
      i ≠ j := by
    rintro j b hb hpb rfl
    rw [ha] at hb
    rw [← Option.some.inj hb, hp] at hpb
    cases hpb
  refine ⟨?_, ?_, ?_, ?_, ?_, ?_⟩
  · intro j hj
    obtain rfl : i = j := Option.some.inj hj
    have hcalm := (h.fresh i a ha hp).1
    refine ⟨{ a with published := true }, (hget i).trans (if_pos rfl), rfl, ?_⟩
    exact ⟨hcalm.proxyless, hcalm.notReady, hcalm.early⟩
  · intro j b hb hpb
    have hb' := (hget j).symm.trans hb
    split at hb'
    · rw [← Option.some.inj hb'] at hpb
      cases hpb
    · exact h.fresh j b hb' hpb
  · intro m j hm
    rcases getElem?_set_some hm with ⟨-, heq⟩ | ⟨hmn, hm⟩
    · cases heq
    · obtain ⟨b, hb, hpb⟩ := h.inserts m j hm
      refine ⟨b, (hget j).trans ?_, hpb⟩
      rw [if_neg, hb]
      rintro rfl
      exact hmn (h.unique m n i hm hn)
  · intro m m' j hm hm'
    rcases getElem?_set_some hm with ⟨-, heq⟩ | ⟨-, hm⟩
    · cases heq
    · rcases getElem?_set_some hm' with ⟨-, heq⟩ | ⟨-, hm'⟩
      · cases heq
      · exact h.unique m m' j hm hm'
  · intro m c j hm hc
    rcases getElem?_set_some hm with ⟨-, heq⟩ | ⟨-, hm⟩
    · rw [heq] at hc
      cases hc
    · obtain ⟨-, b, hb, hpb⟩ := h.stopped m c j hm hc
      refine ⟨fun heq => hne hb hpb (Option.some.inj heq), b, (hget j).trans ?_, hpb⟩
      rw [if_neg (hne hb hpb), hb]
  · have hold : ∀ {j : Nat} {b : Attempt M N}, (s.publish i).attempts[j]? = some b →
        b.acting = true → ∃ b', s.attempts[j]? = some b' ∧ b'.acting = true := by
      intro j b hb hact
      have hb' := (hget j).symm.trans hb
      split at hb'
      · next heq =>
        subst heq
        refine ⟨a, ha, ?_⟩
        rw [← Option.some.inj hb'] at hact
        exact hact
      · exact ⟨b, hb', hact⟩
    intro j k b b' hb hb' hact hact'
    obtain ⟨c, hc, hactc⟩ := hold hb hact
    obtain ⟨c', hc', hactc'⟩ := hold hb' hact'
    exact h.one j k c c' hc hc' hactc hactc'

/-- An attempt starts where none acts. -/
theorem Inv.launch (h : s.Inv) (hidle : ∀ a ∈ s.attempts, a.acting = false) (n : Nat)
    (target : ExecutionTarget) (port : Nat) :
    ((s.launch target port).setCommand n (.insert s.attempts.length)).Inv := by
  have hold : ∀ {j : Nat} {a : Attempt M N}, s.attempts[j]? = some a →
      (s.launch target port).attempts[j]? = some a := by
    intro j a ha
    unfold RemoteHost.launch
    dsimp only
    rw [List.getElem?_append_left (List.getElem?_eq_some_iff.mp ha).1, ha]
  have hnew : ∀ {j : Nat} {a : Attempt M N}, (s.launch target port).attempts[j]? = some a →
      s.attempts[j]? = some a ∨ j = s.attempts.length ∧ a = Attempt.start target port := by
    intro j a ha
    rcases Nat.lt_trichotomy j s.attempts.length with hlt | heq | hgt
    · refine .inl ?_
      unfold RemoteHost.launch at ha
      dsimp only at ha
      rwa [List.getElem?_append_left hlt] at ha
    · refine .inr ⟨heq, ?_⟩
      rw [heq] at ha
      simpa [RemoteHost.launch] using ha.symm
    · simp only [RemoteHost.launch] at ha
      rw [List.getElem?_eq_none (by simp; omega)] at ha
      cases ha
  have hlt : ∀ {m j : Nat}, s.commands[m]? = some (.insert j) → j < s.attempts.length := by
    intro m j hm
    obtain ⟨a, ha, -⟩ := h.inserts m j hm
    exact (List.getElem?_eq_some_iff.mp ha).1
  refine ⟨?_, ?_, ?_, ?_, ?_, ?_⟩
  · intro j hj
    obtain ⟨a, ha, hrest⟩ := h.current j hj
    exact ⟨a, hold ha, hrest⟩
  · intro j a ha hp
    rcases hnew ha with ha | ⟨-, rfl⟩
    · exact h.fresh j a ha hp
    · refine ⟨⟨fun r hr => absurd hr List.not_mem_nil, ?_, fun _ => ⟨rfl, rfl, rfl⟩⟩, rfl, rfl⟩
      exact ConnectionState.noConfusion
  · intro m j hm
    rcases getElem?_set_some hm with ⟨-, heq⟩ | ⟨-, hm⟩
    · cases heq
      exact ⟨Attempt.start target port, by simp [RemoteHost.setCommand, RemoteHost.launch], rfl⟩
    · obtain ⟨a, ha, hp⟩ := h.inserts m j hm
      exact ⟨a, hold ha, hp⟩
  · intro m m' j hm hm'
    rcases getElem?_set_some hm with ⟨hmn, heq⟩ | ⟨-, hm⟩ <;>
      rcases getElem?_set_some hm' with ⟨hmn', heq'⟩ | ⟨-, hm'⟩
    · rw [hmn, hmn']
    · cases heq
      exact absurd (hlt hm') (Nat.lt_irrefl _)
    · cases heq'
      exact absurd (hlt hm) (Nat.lt_irrefl _)
    · exact h.unique m m' j hm hm'
  · intro m c j hm hc
    rcases getElem?_set_some hm with ⟨-, heq⟩ | ⟨-, hm⟩
    · rw [heq] at hc
      cases hc
    · obtain ⟨hne, a, ha, hp⟩ := h.stopped m c j hm hc
      exact ⟨hne, a, hold ha, hp⟩
  · intro j k a b ha hb hact hact'
    rcases hnew ha with ha | ⟨hj, -⟩
    · rw [hidle a (List.mem_of_getElem? ha)] at hact
      cases hact
    · rcases hnew hb with hb | ⟨hk, -⟩
      · rw [hidle b (List.mem_of_getElem? hb)] at hact'
        cases hact'
      · rw [hj, hk]

theorem acting_cancel {a : Attempt M N} (h : a.cancel.acting = true) : a.acting = true := by
  unfold Attempt.acting Attempt.cancel at h
  unfold Attempt.acting
  simp only [Bool.or_eq_true] at h ⊢
  refine h.imp_right fun hany => ?_
  rw [List.any_map, List.any_eq_true] at hany
  obtain ⟨r, hr, hfinished⟩ := hany
  rw [List.any_eq_true]
  refine ⟨r, hr, ?_⟩
  by_contra hnot
  have hr' : r.finished = true := by simpa using hnot
  simp [Relay.finished_step hr'] at hfinished

/-- A stop changes an attempt that is not current any more. -/
theorem Inv.modifyStopped (h : s.Inv) {n i : Nat} {c : HostCommand} (hn : s.commands[n]? = some c)
    (hc : c.stopping = some i) {f : Attempt M N → Attempt M N}
    (hpublished : ∀ a, (f a).published = a.published)
    (hacting : ∀ a, (f a).acting = true → a.acting = true) : (s.modifyAttempt i f).Inv := by
  obtain ⟨hne, b, hb, hpb⟩ := h.stopped n c i hn hc
  refine h.modifyAttempt i hpublished hacting (fun heq => absurd heq hne) fun a ha hp => ?_
  rw [hb] at ha
  rw [← Option.some.inj ha, hpb] at hp
  cases hp

/-- The attempt a command is stopping is as it was, for what the command does next. -/
theorem Inv.stopping_modify (h : s.Inv) {n i : Nat} {c : HostCommand}
    (hn : s.commands[n]? = some c) (hc : c.stopping = some i) {f : Attempt M N → Attempt M N}
    (hpublished : ∀ a, (f a).published = a.published) : (s.modifyAttempt i f).session ≠ some i ∧
      ∃ a, (s.modifyAttempt i f).attempts[i]? = some a ∧ a.published = true := by
  obtain ⟨hne, b, hb, hpb⟩ := h.stopped n c i hn hc
  refine ⟨hne, f b, ?_, (hpublished b).trans hpb⟩
  simp [RemoteHost.modifyAttempt, hb]

theorem inv_run (h : s.Inv) {n : Nat} {timedOut : Bool} {c : HostCommand}
    (hn : s.commands[n]? = some c) (hkeeps : s.Keeps (.run n timedOut)) :
    (s.runCommand n timedOut c).Inv := by
  cases c with
  | asked r =>
    cases r with
    | ensureRemoteHost target port =>
      simp only [runCommand]
      split
      · exact h
      · split
        · exact h.setCommand_of_none n (by simp) rfl
        · exact h.setCommand_of_none n (by simp) rfl
    | acknowledgeRisk riskId fingerprint =>
      simp only [runCommand]
      split
      · exact h
      · split
        · exact h.setCommand_of_none n (by simp) rfl
        · exact h.setCommand_of_none n (by simp) rfl
    | disconnectHost =>
      simp only [runCommand]
      split
      · exact h
      · split
        · exact h.setCommand_of_none n (by simp) rfl
        · next i hsession =>
          obtain ⟨a, ha, hp, hcalm⟩ := h.current i hsession
          have hnone : ∀ j, s.withdraw.session ≠ some j := by
            intro j hj
            cases hj
          have hwithdraw : s.withdraw.Inv :=
            ⟨fun j hj => absurd hj (hnone j), h.fresh, h.inserts, h.unique,
              fun m c j hm hc => ⟨hnone j, (h.stopped m c j hm hc).2⟩, h.one⟩
          refine hwithdraw.setCommand n (by simp) fun j hj => ?_
          obtain rfl : i = j := Option.some.inj hj
          exact ⟨hnone i, a, ha, hp⟩
  | launch target port =>
    simp only [Keeps, hn] at hkeeps
    exact h.launch hkeeps n target port
  | insert i =>
    simp only [runCommand]
    split
    · exact h
    · exact h.publish hn
  | disconnect i =>
    have hkept : (s.modifyAttempt i Attempt.disconnect).Inv :=
      h.modifyStopped hn rfl (fun _ => rfl) fun _ hact => hact
    refine @Inv.setCommand _ _ _ hkept n (.cancel i) (by simp) fun j hj => ?_
    obtain rfl : i = j := Option.some.inj hj
    exact h.stopping_modify hn rfl fun _ => rfl
  | cancel i =>
    have hkept : (s.modifyAttempt i Attempt.cancel).Inv :=
      h.modifyStopped hn rfl (fun _ => rfl) fun _ => acting_cancel
    refine @Inv.setCommand _ _ _ hkept n (.join i) (by simp) fun j hj => ?_
    obtain rfl : i = j := Option.some.inj hj
    exact h.stopping_modify hn rfl fun _ => rfl
  | join i =>
    simp only [runCommand]
    split
    · exact h.setCommand_of_none n (by simp) rfl
    · exact h
  | returned => exact h

/-- A step under the condition keeps what a run keeps. -/
theorem inv_step (h : s.Inv) (a : HostAction M N) (hkeeps : s.Keeps a) : (s.step a).Inv := by
  cases a with
  | issue r =>
    have hget : ∀ {m : Nat} {c : HostCommand}, (s.commands ++ [HostCommand.asked r])[m]? = some c →
        s.commands[m]? = some c ∨ c = .asked r := by
      intro m c hm
      rw [List.getElem?_append] at hm
      split at hm
      · exact .inl hm
      · exact .inr (List.mem_singleton.mp (List.mem_of_getElem? hm))
    refine ⟨h.current, h.fresh, ?_, ?_, ?_, h.one⟩
    · intro m i hm
      rcases hget hm with hm | hm
      · exact h.inserts m i hm
      · cases hm
    · intro m m' i hm hm'
      rcases hget hm with hm | hm
      · rcases hget hm' with hm' | hm'
        · exact h.unique m m' i hm hm'
        · cases hm'
      · cases hm
    · intro m c i hm hc
      rcases hget hm with hm | rfl
      · exact h.stopped m c i hm hc
      · cases hc
  | run n timedOut =>
    unfold step
    dsimp only
    split
    · exact h
    · next c hn => exact inv_run h hn hkeeps
  | attempt i act =>
    refine h.modifyAttempt i (fun _ => Attempt.published_step)
      (fun _ => Attempt.acting_of_acting_step) ?_ ?_
    · intro hsession a ha hcalm
      exact Attempt.calm_step hcalm (hkeeps hsession a ha).1
    · rintro a ha hp ⟨hcalm, hsockets, hrelays⟩
      have hspawns : ¬ a.Spawns act := by
        cases act with
        | relay k act =>
          rintro ⟨r, hr, -⟩
          simp [hrelays] at hr
        | _ => exact id
      refine ⟨Attempt.calm_step hcalm hspawns, ?_⟩
      have hmoves := Attempt.moves_step a act
      generalize a.step act = a' at hmoves ⊢
      cases hmoves with
      | accept ha hstage hpublished =>
        rw [hp] at hpublished
        cases hpublished
      | drop hne => exact absurd hsockets hne
      | upgrade ha hne => exact absurd hsockets hne
      | relay k act r ha hr => simp [hrelays] at hr
      | _ => exact ⟨hsockets, hrelays⟩

/-! ### Truthful steps -/

theorem current_eq {i : Nat} {a : Attempt M N} (hsession : s.session = some i)
    (ha : s.attempts[i]? = some a) : s.current = some a := by
  rw [current, hsession]
  exact ha

theorem shown_eq {i : Nat} {a : Attempt M N} (hsession : s.session = some i)
    (ha : s.attempts[i]? = some a) : s.shown = a.state := by
  rw [shown, current_eq hsession ha]
  rfl

theorem shown_of_session_eq_none (hsession : s.session = none) : s.shown = .disconnected := by
  rw [shown, current, hsession]
  rfl

/-- What the current attempt does is shown. -/
theorem shown_modifyAttempt {i : Nat} {a : Attempt M N} (hsession : s.session = some i)
    (ha : s.attempts[i]? = some a) (f : Attempt M N → Attempt M N) :
    (s.modifyAttempt i f).current = some (f a) ∧ (s.modifyAttempt i f).shown = (f a).state := by
  have hget : (s.modifyAttempt i f).attempts[i]? = some (f a) := by
    simp [RemoteHost.modifyAttempt, ha]
  exact ⟨current_eq hsession hget, shown_eq hsession hget⟩

/-- **Only the current attempt changes the shown state.** -/
theorem shown_of_ne {i : Nat} (h : s.session ≠ some i) (f : Attempt M N → Attempt M N) :
    (s.modifyAttempt i f).shown = s.shown := by
  unfold shown current RemoteHost.modifyAttempt
  cases hsession : s.session with
  | none => rfl
  | some j =>
    have hne : i ≠ j := fun heq => h (by rw [hsession, heq])
    simp [List.getElem?_modify, hne]

/-- The current attempt of a run is not ready. -/
theorem Inv.shown_ne_ready (h : s.Inv) : s.shown ≠ .ready := by
  cases hsession : s.session with
  | none =>
    rw [shown_of_session_eq_none hsession]
    exact ConnectionState.noConfusion
  | some i =>
    obtain ⟨a, ha, -, hcalm⟩ := h.current i hsession
    rw [shown_eq hsession ha]
    exact hcalm.notReady

theorem shown_launch (h : s.Inv) (target : ExecutionTarget) (port : Nat) :
    (s.launch target port).shown = s.shown := by
  cases hsession : s.session with
  | none =>
    rw [shown_of_session_eq_none hsession]
    exact shown_of_session_eq_none hsession
  | some i =>
    obtain ⟨a, ha, -⟩ := h.current i hsession
    rw [shown_eq hsession ha]
    refine shown_eq hsession ?_
    unfold RemoteHost.launch
    dsimp only
    rw [List.getElem?_append_left (List.getElem?_eq_some_iff.mp ha).1, ha]

/-- A command leaves the shown state, takes the session out, or puts a fresh one in. -/
theorem shown_run (h : s.Inv) {n : Nat} (timedOut : Bool) {c : HostCommand}
    (hn : s.commands[n]? = some c) : (s.runCommand n timedOut c).shown = s.shown ∨
      (s.runCommand n timedOut c).shown = .disconnected ∨
      ∃ i, (s.runCommand n timedOut c).session = some i ∧ s.session ≠ some i := by
  cases c with
  | asked r =>
    cases r with
    | ensureRemoteHost target port =>
      simp only [runCommand]
      split
      · exact .inl rfl
      · split <;> exact .inl rfl
    | acknowledgeRisk riskId fingerprint =>
      simp only [runCommand]
      split
      · exact .inl rfl
      · split <;> exact .inl rfl
    | disconnectHost =>
      simp only [runCommand]
      split
      · exact .inl rfl
      · split
        · exact .inl rfl
        · exact .inr (.inl rfl)
  | launch target port => exact .inl (shown_launch h target port)
  | insert i =>
    simp only [runCommand]
    split
    · exact .inl rfl
    · refine .inr (.inr ⟨i, rfl, fun hsession => ?_⟩)
      obtain ⟨a, ha, hp⟩ := h.inserts n i hn
      obtain ⟨b, hb, hpb, -⟩ := h.current i hsession
      rw [ha] at hb
      rw [← Option.some.inj hb, hp] at hpb
      cases hpb
  | disconnect i => exact .inl (shown_of_ne (h.stopped n _ i hn rfl).1 _)
  | cancel i => exact .inl (shown_of_ne (h.stopped n _ i hn rfl).1 _)
  | join i =>
    simp only [runCommand]
    split <;> exact .inl rfl
  | returned => exact .inl rfl

variable {isHello : N → Bool} {a : HostAction M N}

/-- A step under the condition is truthful. -/
theorem Inv.truthful (h : s.Inv) (hkeeps : s.Keeps a) : Truthful isHello s a where
  one := (inv_step h a hkeeps).one
  byCurrent := by
    rintro i act rfl hne
    exact shown_of_ne hne _
  stays := by
    intro hterminal
    cases a with
    | issue r => exact .inl hterminal
    | run n timedOut =>
      unfold step
      dsimp only
      split
      · exact .inl hterminal
      · next c hn =>
        rcases shown_run h timedOut hn with hshown | hshown | hfresh
        · exact .inl (by rw [hshown, hterminal])
        · exact .inl (by rw [hshown]; rfl)
        · exact .inr hfresh
    | attempt i act =>
      refine .inl ?_
      by_cases hsession : s.session = some i
      · obtain ⟨att, hatt, -, hcalm⟩ := h.current i hsession
        obtain ⟨hspawns, hup⟩ := hkeeps hsession att hatt
        rw [shown_eq hsession hatt] at hterminal
        have hstep : (s.step (.attempt i act)).shown = (att.step act).state :=
          (shown_modifyAttempt hsession hatt _).2
        rw [hstep]
        exact Attempt.isTerminal_step hcalm hspawns (fun hact => hup hact hterminal) hterminal
      · have hstep : (s.step (.attempt i act)).shown = s.shown := shown_of_ne hsession _
        rw [hstep, hterminal]
  ready hready := absurd hready (inv_step h a hkeeps).shown_ne_ready
  fresh := by
    rintro n timedOut target port rfl hn hlocked hfailed
    simp only [Keeps, hn] at hkeeps
    rw [hkeeps hlocked] at hfailed
    cases hfailed

/-- An attempt that starts beside one that acts makes two. -/
theorem Truthful.idle {n : Nat} {timedOut : Bool} {target : ExecutionTarget} {port : Nat}
    (hn : s.commands[n]? = some (.launch target port))
    (h : Truthful isHello s (.run n timedOut)) : ∀ a ∈ s.attempts, a.acting = false := by
  intro a ha
  obtain ⟨i, hi⟩ := List.mem_iff_getElem?.mp ha
  have hlt : i < s.attempts.length := (List.getElem?_eq_some_iff.mp hi).1
  have hstep : s.step (.run n timedOut) =
      (s.launch target port).setCommand n (.insert s.attempts.length) := by
    simp only [step, hn, runCommand]
  have hone := h.one
  rw [hstep] at hone
  by_contra hacting
  have hacting' : a.acting = true := by simpa using hacting
  have hold : (s.launch target port).attempts[i]? = some a := by
    simp only [RemoteHost.launch, List.getElem?_append_left hlt, hi]
  have hnew : (s.launch target port).attempts[s.attempts.length]? =
      some (Attempt.start target port) := by simp [RemoteHost.launch]
  have hstart : (Attempt.start target port : Attempt M N).acting = true := by
    cases target <;> rfl
  exact absurd (hone i s.attempts.length _ _ hold hnew hacting' hstart) (Nat.ne_of_lt hlt)

/-- The first proxy of an attempt makes it ready, and has not answered. -/
theorem spawned_of_spawns (isHello : N → Bool) {att : Attempt M N} (hcalm : att.Calm)
    {act : AttemptAction M N} (hspawns : att.Spawns act) :
    (att.step act).state = .ready ∧ (att.step act).greeted isHello = false := by
  cases act with
  | relay k act =>
    obtain ⟨r, hr, hspawned⟩ := hspawns
    cases act with
    | spawned result =>
      cases result with
      | error e => exact hspawned.elim
      | ok spawned =>
        have hphase : r.phase = .spawning := hspawned
        simp only [Attempt.step, hr, Attempt.setRelay, Attempt.foldl_onState, Relay.step, hphase,
          Relay.tell, List.drop_left]
        refine ⟨rfl, ?_⟩
        rw [Attempt.greeted, List.any_eq_false]
        intro r' hr'
        rcases List.mem_or_eq_of_mem_set hr' with hr' | rfl
        · rw [Relay.greeted_of_proxyless (hcalm.proxyless r' hr')]
          exact Bool.false_ne_true
        · simp [Relay.greeted]
    | _ => exact hspawned.elim
  | _ => exact hspawns.elim

/-- A truthful step meets the condition. -/
theorem Inv.keeps (h : s.Inv) (htruthful : Truthful isHello s a) : s.Keeps a := by
  cases a with
  | issue r => trivial
  | run n timedOut =>
    unfold Keeps
    dsimp only
    split
    · next target port hn => exact htruthful.idle hn
    · next target port hn =>
      intro hlocked
      by_contra hfailed
      have hfailed' : s.shown.isFailed = true := by simpa using hfailed
      have hstep := htruthful.fresh n timedOut target port rfl hn hlocked hfailed'
      cases hsession : s.session with
      | none =>
        rw [shown_of_session_eq_none hsession] at hfailed'
        cases hfailed'
      | some i =>
        have hrun : s.step (.run n timedOut) = s.setCommand n .returned := by
          simp only [step, hn, runCommand, hlocked, hsession, Bool.false_eq_true, if_false]
        rw [hrun] at hstep
        simp [RemoteHost.setCommand, (List.getElem?_eq_some_iff.mp hn).1] at hstep
    · trivial
  | attempt i act =>
    intro hsession att hatt
    obtain ⟨att', hatt', -, hcalm⟩ := h.current i hsession
    obtain rfl : att = att' := Option.some.inj (hatt.symm.trans hatt')
    have hstep : (s.step (.attempt i act)).current = some (att.step act) ∧
        (s.step (.attempt i act)).shown = (att.step act).state :=
      shown_modifyAttempt hsession hatt _
    constructor
    · intro hspawns
      obtain ⟨hready, hgreeted⟩ := spawned_of_spawns isHello hcalm hspawns
      obtain ⟨att', hcurrent, hgreeted'⟩ := htruthful.ready (hstep.2.trans hready)
      rw [hstep.1] at hcurrent
      rw [← Option.some.inj hcurrent, hgreeted] at hgreeted'
      cases hgreeted'
    · rintro rfl hterminal
      by_contra hsockets
      have hup : (att.step (.upgrade true)).state = .starting := by
        simp [Attempt.step, hsockets, Attempt.upgraded, Attempt.onState]
      rcases htruthful.stays (by rw [shown_eq hsession hatt, hterminal]) with hstays | ⟨j, hj, hne⟩
      · rw [hstep.2, hup] at hstays
        cases hstays
      · exact hne hj

end Kept

/-- **The steps of a run are truthful exactly when no attempt starts beside one that acts,
no attempt that failed hears another socket, no ensure finds a failure, and the current
attempt spawns no proxy.** -/
theorem truthful_iff (isHello : N → Bool) (acts : List (HostAction M N)) :
    Along step (Truthful isHello) {} acts ↔ Along step Keeps ({} : RemoteHost M N) acts := by
  have hboot : ({} : RemoteHost M N).Inv :=
    ⟨fun i hi => (by cases hi), fun i a ha => (by simp at ha), fun n i hn => (by simp at hn),
      fun n m i hn => (by simp at hn), fun n c i hn => (by simp at hn),
      fun i j a b ha => (by simp at ha)⟩
  exact (along_iff_along (I := Inv) (fun _ a h hkeeps => inv_step h a hkeeps)
    (fun _ _ h => ⟨fun hkeeps => h.truthful hkeeps, fun htruthful => h.keeps htruthful⟩)
    hboot acts).symm

/-- An ensure of a plain host, to the end. -/
def ensured : List (HostAction Nat Nat) :=
  [.issue (.ensureRemoteHost .host 1), .run 0 false, .run 0 false, .run 0 false]

/-- The bridge runs, and a browser's socket is upgraded. -/
def bridged : List (HostAction Nat Nat) :=
  ensured ++ [.attempt 0 .connect, .attempt 0 .provision, .attempt 0 (.reconciled (.ok ())),
    .attempt 0 (.bind true), .attempt 0 .accept, .attempt 0 (.upgrade true)]

/-- While the host is provisioned the user cancels, and connects once more. -/
def cancelledEarly : List (HostAction Nat Nat) :=
  ensured ++ [.attempt 0 .connect, .attempt 0 .provision, .issue .disconnectHost, .run 1 false,
    .run 1 false, .run 1 false, .run 1 true, .issue (.ensureRemoteHost .host 2), .run 2 false]

/-- The proxy cannot be spawned, and the browser connects once more. -/
def connectedAgain : List (HostAction Nat Nat) :=
  bridged ++ [.attempt 0 (.relay 0 (.spawned (.error "no ssh"))), .attempt 0 .accept]

/-- The host cannot be provisioned, and the user tries once more. -/
def triedAgain : List (HostAction Nat Nat) :=
  ensured ++ [.attempt 0 .connect, .attempt 0 .provision,
    .attempt 0 (.reconciled (.error "no space left")), .issue (.ensureRemoteHost .host 2)]

/-- **Two attempts act on the host; a failed attempt starts again; an attempt is ready before
its proxy has answered; and an ensure finds the failure of the one before.** -/
theorem not_truthful :
    ¬ Truthful (· == 0) (cancelledEarly.foldl step {}) (.run 2 false) ∧
      ¬ Truthful (· == 0) (connectedAgain.foldl step {}) (.attempt 0 (.upgrade true)) ∧
      ¬ Truthful (· == 0) (bridged.foldl step {})
        (.attempt 0 (.relay 0 (.spawned (.ok (Relay.failedExit, .panics))))) ∧
      ¬ Truthful (· == 0) (triedAgain.foldl step {}) (.run 1 false) := by
  refine ⟨fun h => ?_, fun h => ?_, fun h => ?_, fun h => ?_⟩
  · exact absurd (h.one 0 1 _ _ rfl rfl rfl rfl) (by decide)
  · rcases h.stays rfl with hstays | ⟨i, hi, hne⟩
    · cases hstays
    · exact hne hi
  · obtain ⟨att, hatt, hgreeted⟩ := h.ready rfl
    cases hatt
    cases hgreeted
  · cases h.fresh 1 false .host 2 rfl rfl rfl rfl

end RemoteHost
end Pantoken.Desktop
