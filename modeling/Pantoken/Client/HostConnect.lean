import Pantoken.Client.HostCalls
import Pantoken.Desktop.Attempt

/-!
# Connecting a remote host

The client connects a host by a command that ensures an attempt, and polls the attempt's
state; it makes a `WsClient` once the poll has returned and the hosts, listed again, have a
url.  The attempt becomes ready once a browser has connected to its bridge.  Both sides are
composed here for one remote profile: the coordinator with the calls of the provider that
are under way, and the profile's attempt.

The commands run on the main thread, one after another.  What the calls for other hosts
answer is left open, and so is which other hosts are listed.

## Main definitions

* `HostConnect`, `HostConnect.step` — the client and the attempt, and one step of either.
* `HostConnect.CanConnect` — without a browser's connection, the client can come to own a
  `WsClient` for the bridge.
* `HostConnect.NoCircularWait` — it can, once the bridge listens, and what is settled is
  connected.
* `HostConnect.Leads` — what a step must find.

## Main results

* `noCircularWait_iff` — **no wait is circular in a run exactly when, whenever the bridge
  starts to listen, the client has its `WsClient` or the answer that makes one is under
  way, and no answer for an earlier attempt makes another.**
* `not_canConnect` — a client that waits for `ready` waits for itself.
-/

namespace Pantoken

open Desktop (Attempt AttemptAction ConnectionState ConnectionFailureState ExecutionTarget)

/-! ### Snapshots -/

namespace Desktop

/-- `connection_state_to_host_string` -/
def ConnectionState.toHostState : ConnectionState → HostConnectionState
  | .disconnected => .disconnected
  | .testingSsh => .testingSsh
  | .preflight _ => .preflight
  | .awaitingAcknowledgement _ _ => .awaitingAcknowledgement
  | .connecting => .connecting
  | .provisioning => .provisioning
  | .starting => .starting
  | .ready => .ready
  | .reconnecting => .reconnecting
  | .failed _ _ => .failed

end Desktop

/-- The url of a bridge. -/
def bridgeUrl (port : Nat) : String := "ws://127.0.0.1:" ++ toString port

/-- The states that are shown with a url. -/
def urlStates : List HostConnectionState :=
  [.testingSsh, .connecting, .provisioning, .starting, .ready, .reconnecting]

/-- `remote_snapshot` of the profile's session, or the descriptor of a profile without one,
as the client reads it. -/
def remoteSnapshot {P Q : Type*} (redactDetail : String → String) (id : String) :
    Option (Attempt P Q) → NativeHostDescriptor
  | none => { id, state := .disconnected }
  | some attempt =>
    { id
      state := attempt.state.toHostState
      wsUrl :=
        if attempt.state.toHostState ∈ urlStates then some (bridgeUrl attempt.port) else none
      failure :=
        match attempt.state with
        | .failed kind detail =>
          { failureLabel := some kind.label
            failureAction := some kind.suggestedAction
            failureDetail := some (redactDetail detail) }
        | _ => {} }

/-! ### The composed machine -/

/-- A call of the provider that is under way: its command has not run, it polls, or its
promise is settled and the call that awaits it has not gone on. -/
inductive CallState
  | called
  | polling
  | settled (answer : ProviderAnswer)
  deriving DecidableEq, Repr

/-- The remote profile, the text of a failure's detail, and the type of a message. -/
structure HostSetup (M : Type*) where
  id : String
  target : ExecutionTarget
  redactDetail : String → String
  type : M → String

/-- The coordinator, the calls it awaits, in their order, and the urls its connections were
made with; and the attempt whose session is in the map. -/
structure HostConnect (M C P Q : Type*) where
  client : HostCoordinator M C := {}
  calls : List CallState := []
  urls : List String := []
  attempt : Option (Attempt P Q) := none

/-- A call of the client; a command of one of its calls, for which a port is free and other
hosts are listed, or its refusal; a poll, or the end of its patience; the answer of a call
for other hosts; an answer that arrives; an acknowledgement; a step of the attempt; and the
host's `WsClient` that reaches the bridge. -/
inductive ConnectAction (M C P Q : Type*)
  | client (a : HostCoordinator.Action M C)
  | invoke (n port : Nat) (before after : List NativeHostDescriptor)
  | refuse (n : Nat) (failure : HostFailure)
  | poll (n : Nat)
  | timeOut (n : Nat)
  | settle (n : Nat) (answer : ProviderAnswer)
  | deliver (n : Nat)
  | acknowledge (riskId fingerprint : String)
  | attempt (a : AttemptAction P Q)
  | connect

namespace HostConnect

variable {M C P Q : Type*} (env : HostSetup M)

/-- A step of the coordinator, with the calls it starts and the urls of the connections it
makes. -/
def advance (s : HostConnect M C P Q) (client : HostCoordinator M C) (calls : List CallState) :
    HostConnect M C P Q :=
  { s with
    client
    calls := calls ++ List.replicate (client.awaits.length - calls.length) .called
    urls := s.urls ++ (client.clients.drop s.urls.length).map fun c =>
      (client.urlOf c.host).getD "" }

def setCall (s : HostConnect M C P Q) (n : Nat) (c : CallState) : HostConnect M C P Q :=
  { s with calls := s.calls.set n c }

/-- `ensure_remote_host` -/
def ensure (s : HostConnect M C P Q) (port : Nat) : HostConnect M C P Q :=
  match s.attempt with
  | some _ => s
  | none => { s with attempt := some { Attempt.start env.target port with published := true } }

/-- What `list_hosts` lists: the profile among other hosts. -/
def listed (s : HostConnect M C P Q) (before after : List NativeHostDescriptor) :
    List NativeHostDescriptor :=
  before.filter (·.id ≠ env.id) ++ remoteSnapshot env.redactDetail env.id s.attempt ::
    after.filter (·.id ≠ env.id)

/-- A round of `pollHostState`; `none` where the poll goes on. -/
def pollHostState (s : HostConnect M C P Q) : Option ProviderAnswer :=
  match s.attempt with
  | none => some (.rejected { failureLabel := some ("host " ++ env.id ++ " not found") })
  | some attempt =>
    match attempt.state.toHostState with
    | .ready | .preflight | .awaitingAcknowledgement => some (.resolved [])
    | .failed =>
      some (.rejected (remoteSnapshot env.redactDetail env.id (some attempt)).failure)
    | .disconnected => some (.rejected { failureLabel := some "Connection cancelled" })
    | _ => none

/-- The command of a call runs. -/
def invoke (s : HostConnect M C P Q) (n port : Nat) (before after : List NativeHostDescriptor) :
    Await → HostConnect M C P Q
  | .listHosts _ => s.setCall n (.settled (.resolved (s.listed env before after)))
  | a => if a.connects env.id then (s.ensure env port).setCall n .polling else s

/-- The session of an attempt that waits for the acknowledgement of the risk is stopped. -/
def acknowledge (s : HostConnect M C P Q) (riskId fingerprint : String) : HostConnect M C P Q :=
  match s.attempt with
  | none => s
  | some attempt =>
    match attempt.state with
    | .awaitingAcknowledgement _ pendingRisks =>
      if pendingRisks.any fun risk => risk.id = riskId && risk.fingerprint = fingerprint then
        { s with attempt := none }
      else s
    | _ => s

/-- The client owns a `WsClient` for the bridge of the attempt. -/
def Owns (s : HostConnect M C P Q) (a : Attempt P Q) : Prop :=
  ∃ k, s.client.clientOf env.id = some k ∧ s.urls[k]? = some (bridgeUrl a.port)

/-- The host's connection is one to the bridge. -/
def ownsBridge (s : HostConnect M C P Q) : Bool :=
  match s.attempt, s.client.clientOf env.id with
  | some a, some k => s.urls[k]? = some (bridgeUrl a.port)
  | _, _ => false

/-- The calls that wait, and how far they are. -/
def pairs (s : HostConnect M C P Q) : List (Await × CallState) := s.client.awaits.zip s.calls

def pending (s : HostConnect M C P Q) (n : Nat) : Option (Await × CallState) := s.pairs[n]?

/-- One step. -/
def step (s : HostConnect M C P Q) : ConnectAction M C P Q → HostConnect M C P Q
  | .client a => if a.keeps env.id then s.advance (s.client.step env.type a) s.calls else s
  | .invoke n port before after =>
    match s.pending n with
    | some (a, .called) => s.invoke env n port before after a
    | _ => s
  | .refuse n failure =>
    match s.pending n with
    | some (a, .called) =>
      if a.connects env.id then s.setCall n (.settled (.rejected failure)) else s
    | _ => s
  | .poll n =>
    match s.pending n, s.pollHostState env with
    | some (_, .polling), some answer => s.setCall n (.settled answer)
    | _, _ => s
  | .timeOut n =>
    match s.pending n with
    | some (_, .polling) =>
      s.setCall n (.settled (.rejected
        { failureLabel := some ("host " ++ env.id ++ " timed out waiting for ready") }))
    | _ => s
  | .settle n answer =>
    match s.pending n with
    | some (.listHosts _, _) => s
    | some (a, .called) => if a.connects env.id then s else s.setCall n (.settled answer)
    | _ => s
  | .deliver n =>
    match s.pending n with
    | some (_, .settled answer) =>
      s.advance (s.client.step env.type (.answer n answer)) (s.calls.eraseIdx n)
    | _ => s
  | .acknowledge riskId fingerprint => s.acknowledge riskId fingerprint
  -- a socket is the host's WsClient
  | .attempt .accept => s
  | .attempt a => { s with attempt := s.attempt.map (·.step a) }
  | .connect =>
    if s.ownsBridge env then { s with attempt := s.attempt.map (·.step .accept) } else s

end HostConnect

/-! ### Circular waits -/

namespace HostConnect

variable {M C P Q : Type*} (env : HostSetup M)

/-- The call is going to make a connection to the url: its poll has returned and the hosts
are to be listed, or they are listed with the url. -/
def Promises (url : String) : Await × CallState → Prop
  | (.connectHost id _ _, .settled (.resolved _)) => id = env.id
  | (a, .called) => a.Connected env.id
  | (a, .settled (.resolved hosts)) =>
    ∃ d ∈ hosts, d.id = env.id ∧ a.Makes env.id d ∧ d.wsUrl = some url
  | _ => False

/-- The call is going to make a connection to another url. -/
def Misleads (url : String) : Await × CallState → Prop
  | (a, .settled (.resolved hosts)) =>
    ∃ d ∈ hosts, d.id = env.id ∧ a.Makes env.id d ∧ ∃ other, d.wsUrl = some other ∧ other ≠ url
  | _ => False

/-- The client owns a `WsClient` for the bridge, or one of its calls is going to make it. -/
def Served (s : HostConnect M C P Q) (a : Attempt P Q) : Prop :=
  s.Owns env a ∨
    s.client.clientOf env.id = none ∧ ∃ p ∈ s.pairs, Promises env (bridgeUrl a.port) p

/-- The bridge listens, and the attempt has not failed. -/
def Listens (s : HostConnect M C P Q) (a : Attempt P Q) : Prop :=
  s.attempt = some a ∧ a.stage = .listening ∧ a.state.isFailed = false

/-- Without a browser's connection to the bridge, the client can come to own a `WsClient`
for it. -/
def CanConnect (s : HostConnect M C P Q) : Prop :=
  ∃ acts : List (ConnectAction M C P Q), (∀ a ∈ acts, a ≠ .connect) ∧
    (acts.foldl (step env) s).ownsBridge env = true

/-- The calls are answered, but for those that poll, and a `WsClient` the client owns for the
bridge has reached it. -/
def Settled (s : HostConnect M C P Q) : Prop :=
  (∀ c ∈ s.calls, c = .polling) ∧
    ∀ a, s.attempt = some a → s.Owns env a → a.sockets ≠ 0 ∨ a.relays ≠ []

/-- **No wait is circular**: while the bridge listens and has not failed, the client can come
to own a `WsClient` for it without a browser's connection; and once everything is settled,
one is connected. -/
structure NoCircularWait (s : HostConnect M C P Q) : Prop where
  canConnect : ∀ a, s.Listens a → s.CanConnect env
  connected : s.Settled env → ∀ a, s.Listens a → s.Owns env a ∧ (a.sockets ≠ 0 ∨ a.relays ≠ [])

/-- When the bridge is bound the client is served; and while it listens to nobody, no
connection is made to another bridge. -/
def Leads (s : HostConnect M C P Q) : ConnectAction M C P Q → Prop
  | .attempt (.bind true) => ∀ a, s.attempt = some a → a.stage = .binding → s.Served env a
  | .deliver n => ∀ a p, s.Listens a → s.client.clientOf env.id = none →
      s.pending n = some p → ¬ Misleads env (bridgeUrl a.port) p
  | _ => True

/-- An answer that arrives: it is of no concern to the host; or the poll of a `connectHost`
has returned, which goes on to list the hosts; or it makes the host's connection. -/
inductive Delivery (s : HostConnect M C P Q) (n : Nat) (p : Await × CallState)
    (client : HostCoordinator M C) : Prop
  | quiet (hclient : client.clientOf env.id = s.client.clientOf env.id)
      (hosts : s.client.clients.map (·.host) <+: client.clients.map (·.host))
      (l : List Await) (hawaits : client.awaits = s.client.awaits.eraseIdx n ++ l)
      (hl : ∀ a ∈ l, ¬ a.Connected env.id)
      (hp : s.client.clientOf env.id = none → ∀ url, ¬ Promises env url p)
  | returned (hclient : client.clientOf env.id = s.client.clientOf env.id)
      (hosts : s.client.clients.map (·.host) <+: client.clients.map (·.host))
      (a : Await) (hawaits : client.awaits = s.client.awaits.eraseIdx n ++ [a])
      (ha : a.Connected env.id) (hp : ∀ url, Promises env url p)
      (hm : ∀ url, ¬ Misleads env url p) (hlist : ∀ next, p.1 ≠ .listHosts next)
  | made (url : String) (hnone : s.client.clientOf env.id = none)
      (hclient : client.clientOf env.id = some s.client.clients.length)
      (hurl : client.urlOf env.id = some url)
      (hosts : s.client.clients.map (·.host) ++ [env.id] <+: client.clients.map (·.host))
      (l : List Await) (hawaits : client.awaits = s.client.awaits.eraseIdx n ++ l)
      (hl : ∀ a ∈ l, ¬ a.Connected env.id)
      (hp : ∀ url', Promises env url' p ↔ url' = url)
      (hm : ∀ url', Misleads env url' p ↔ url' ≠ url) (hlist : ∃ next, p.1 = .listHosts next)

/-- What every run keeps: each call has its state, and each connection its url; a listing
lists the host once; only calls for the host poll; and a browser has reached the bridge
only through a connection the client owns. -/
structure Coherent (s : HostConnect M C P Q) : Prop where
  calls : s.calls.length = s.client.awaits.length
  urls : s.urls.length = s.client.clients.length
  client : ∀ k, s.client.clientOf env.id = some k → k < s.client.clients.length
  listed : ∀ next answer, (Await.listHosts next, CallState.settled answer) ∈ s.pairs →
    ∃ before d after, answer = .resolved (before ++ d :: after) ∧ d.id = env.id ∧
      (∀ d' ∈ before, d'.id ≠ env.id) ∧ ∀ d' ∈ after, d'.id ≠ env.id
  polling : ∀ a, (a, CallState.polling) ∈ s.pairs → a.connects env.id = true
  sound : ∀ a, s.attempt = some a → a.Sound
  reached : ∀ a, s.attempt = some a → a.sockets ≠ 0 ∨ a.relays ≠ [] → s.Owns env a

/-! ### Promises -/

section Calls

variable {env} {s : HostConnect M C P Q}

theorem not_promises_rejected {aw : Await} {failure : HostFailure} {url : String} :
    ¬ Promises env url (aw, .settled (.rejected failure)) := by
  intro h
  cases aw <;> exact h

theorem promises_called_iff {aw : Await} {url : String} :
    Promises env url (aw, .called) ↔ aw.Connected env.id := by
  cases aw <;> rfl

theorem not_promises_called {aw : Await} {url : String} (haw : ∀ next, aw ≠ .listHosts next) :
    ¬ Promises env url (aw, .called) := by
  rw [promises_called_iff]
  intro h
  cases aw with
  | listHosts next => exact haw next rfl
  | _ => exact h

theorem not_promises_polling {aw : Await} {url : String} : ¬ Promises env url (aw, .polling) := by
  intro h
  cases aw <;> exact h

/-- A call for others promises nothing. -/
theorem not_promises_settled {aw : Await} {url : String} {answer : ProviderAnswer}
    (haw : ∀ next, aw ≠ .listHosts next) (hconnects : aw.connects env.id = false) :
    ¬ Promises env url (aw, .settled answer) := by
  cases answer with
  | rejected failure => exact not_promises_rejected
  | resolved hosts =>
    cases aw with
    | listHosts next => exact absurd rfl (haw next)
    | connectHost id priorState next =>
      have hid : id ≠ env.id := of_decide_eq_false hconnects
      exact hid
    | _ =>
      rintro ⟨d, -, -, hmakes, -⟩
      exact hmakes

theorem promises_of_misleads {p : Await × CallState} {url : String} (h : Misleads env url p) :
    ∃ other, Promises env other p := by
  obtain ⟨aw, c⟩ := p
  cases c with
  | settled answer =>
    cases answer with
    | resolved hosts =>
      obtain ⟨d, hd, hid, hmakes, other, hother, -⟩ := h
      refine ⟨other, ?_⟩
      cases aw with
      | listHosts next => exact ⟨d, hd, hid, hmakes, hother⟩
      | _ => exact hmakes.elim
    | rejected failure => exact h.elim
  | _ => exact h.elim

/-! ### Calls -/

theorem owns_iff {a : Attempt P Q} (ha : s.attempt = some a) :
    s.ownsBridge env = true ↔ s.Owns env a := by
  unfold ownsBridge Owns
  rw [ha]
  cases hclient : s.client.clientOf env.id with
  | none => simp
  | some k => simp

theorem zip_eraseIdx {α β : Type*} (l : List α) (m : List β) (n : Nat) :
    (l.eraseIdx n).zip (m.eraseIdx n) = (l.zip m).eraseIdx n := by
  induction l generalizing m n with
  | nil => simp
  | cons a l ih =>
    cases m with
    | nil => simp
    | cons b m =>
      cases n with
      | zero => rfl
      | succ n => simp [ih]

/-- The calls once one of them went on. -/
theorem pairs_setCall (n : Nat) (c : CallState) {p : Await × CallState}
    (hp : p ∈ (s.setCall n c).pairs) :
    p ∈ s.pairs ∨ ∃ a c', s.pending n = some (a, c') ∧ p = (a, c) := by
  obtain ⟨i, hi⟩ := List.mem_iff_getElem?.mp hp
  obtain ⟨ha, hc⟩ := List.getElem?_zip_eq_some.mp hi
  have hc' : (s.calls.set n c)[i]? = some p.2 := hc
  rw [List.getElem?_set] at hc'
  split at hc'
  · next heq =>
    subst heq
    split at hc'
    · next hlt =>
      refine .inr ⟨p.1, s.calls[n], List.getElem?_zip_eq_some.mpr ⟨ha, ?_⟩, ?_⟩
      · exact List.getElem?_eq_getElem hlt
      · rw [Option.some.inj hc']
    · cases hc'
  · exact .inl (List.mem_iff_getElem?.mpr ⟨i, List.getElem?_zip_eq_some.mpr ⟨ha, hc'⟩⟩)

/-- The other calls are where they were. -/
theorem mem_pairs_setCall {n : Nat} {a : Await} {c c' : CallState} {p : Await × CallState}
    (hn : s.pending n = some (a, c')) (hp : p ∈ s.pairs) :
    p ∈ (s.setCall n c).pairs ∨ p = (a, c') ∧ (a, c) ∈ (s.setCall n c).pairs := by
  obtain ⟨i, hi⟩ := List.mem_iff_getElem?.mp hp
  obtain ⟨hai, hci⟩ := List.getElem?_zip_eq_some.mp hi
  by_cases heq : n = i
  · subst heq
    obtain rfl : p = (a, c') := Option.some.inj (hi.symm.trans hn)
    refine .inr ⟨rfl, List.mem_iff_getElem?.mpr ⟨n, List.getElem?_zip_eq_some.mpr ⟨hai, ?_⟩⟩⟩
    exact List.getElem?_set_self (List.getElem?_eq_some_iff.mp hci).1
  · refine .inl (List.mem_iff_getElem?.mpr ⟨i, List.getElem?_zip_eq_some.mpr ⟨hai, ?_⟩⟩)
    exact (List.getElem?_set_ne heq).trans hci

theorem zip_replicate {α β : Type*} (l : List α) (b : β) :
    l.zip (List.replicate l.length b) = l.map (·, b) := by
  induction l with
  | nil => rfl
  | cons a l ih => simp [List.replicate_succ, ih]

/-- The calls once the coordinator went on: it has started some. -/
theorem pairs_advance {client : HostCoordinator M C} {calls : List CallState} {l m : List Await}
    (hawaits : client.awaits = m ++ l) (hcalls : calls.length = m.length) :
    (s.advance client calls).pairs = m.zip calls ++ l.map (·, CallState.called) := by
  have hlength : client.awaits.length - calls.length = l.length := by
    rw [hawaits, List.length_append, hcalls]
    omega
  unfold pairs advance
  dsimp only
  rw [hlength, hawaits, List.zip_append hcalls.symm, zip_replicate]

theorem length_calls_advance {client : HostCoordinator M C} {calls : List CallState}
    (h : calls.length ≤ client.awaits.length) :
    (s.advance client calls).calls.length = client.awaits.length := by
  unfold advance
  simp
  omega

/-- The urls of the connections that are there stay, and each new one has its own. -/
theorem urls_advance (h : s.Coherent env) {client : HostCoordinator M C} (calls : List CallState)
    (hosts : s.client.clients.map (·.host) <+: client.clients.map (·.host)) :
    (s.advance client calls).urls.length = client.clients.length ∧
      (∀ k, k < s.urls.length → (s.advance client calls).urls[k]? = s.urls[k]?) ∧
      ∀ k c, s.urls.length ≤ k → client.clients[k]? = some c →
        (s.advance client calls).urls[k]? = some ((client.urlOf c.host).getD "") := by
  have hle : s.urls.length ≤ client.clients.length := by
    have := hosts.length_le
    simpa [h.urls] using this
  refine ⟨?_, fun k hk => ?_, fun k c hk hc => ?_⟩
  · simp [advance]
    omega
  · exact List.getElem?_append_left hk
  · unfold advance
    dsimp only
    rw [List.getElem?_append_right hk, List.getElem?_map, List.getElem?_drop,
      Nat.add_sub_cancel' hk, hc]
    rfl

theorem Coherent.length_eraseIdx (h : s.Coherent env) (n : Nat) :
    (s.calls.eraseIdx n).length = (s.client.awaits.eraseIdx n).length := by
  rw [List.length_eraseIdx, List.length_eraseIdx, h.calls]

/-- The calls that are left were there. -/
theorem mem_pairs_of_eraseIdx {n : Nat} {p : Await × CallState}
    (hp : p ∈ (s.client.awaits.eraseIdx n).zip (s.calls.eraseIdx n)) : p ∈ s.pairs := by
  rw [zip_eraseIdx] at hp
  exact List.mem_of_mem_eraseIdx hp

/-- What an answer is that lists the host once. -/
theorem delivery_listHosts {n : Nat} {next : AfterRefresh}
    {before after : List NativeHostDescriptor} {d : NativeHostDescriptor} (hd : d.id = env.id)
    (hbefore : ∀ d' ∈ before, d'.id ≠ env.id) (hafter : ∀ d' ∈ after, d'.id ≠ env.id) :
    s.Delivery env n (.listHosts next, .settled (.resolved (before ++ d :: after)))
      (HostCoordinator.answered { s.client with awaits := s.client.awaits.eraseIdx n }
        (.listHosts next) (.resolved (before ++ d :: after))) := by
  simp only [HostCoordinator.answered]
  generalize hs₀ : ({ s.client with awaits := s.client.awaits.eraseIdx n } :
    HostCoordinator M C) = s₀
  obtain ⟨entry, he, hdescriptor, hclient⟩ :=
    HostCoordinator.hostState_refreshed (s := s₀) hd hbefore hafter
  obtain ⟨hclients, hawaits⟩ := HostCoordinator.refreshed_clients (s := s₀) (before ++ d :: after)
  generalize s₀.refreshed (before ++ d :: after) = s₁ at he hclients hawaits
  have hclient₁ : s₁.clientOf env.id = s.client.clientOf env.id := by
    rw [HostCoordinator.clientOf, he]
    exact hclient.trans (by rw [← hs₀]; rfl)
  have hclients₁ : s₁.clients = s.client.clients := by rw [hclients, ← hs₀]
  have hawaits₁ : s₁.awaits = s.client.awaits.eraseIdx n := by rw [hawaits, ← hs₀]
  have honly : ∀ d' ∈ before ++ d :: after, d'.id = env.id → d' = d := by
    intro d' hd' hid
    rcases List.mem_append.mp hd' with hd' | hd'
    · exact absurd hid (hbefore d' hd')
    · rcases List.mem_cons.mp hd' with rfl | hd'
      · rfl
      · exact absurd hid (hafter d' hd')
  by_cases hmakes : (Await.listHosts next).Makes env.id d ∧ s₁.clientOf env.id = none ∧
      ∃ url, d.wsUrl = some url
  · obtain ⟨hmakes, hnone, url, hurl⟩ := hmakes
    obtain ⟨hclient', hurl', hosts, l, hl, hconnected⟩ :=
      HostCoordinator.made_afterRefresh he hdescriptor hmakes hnone hurl
    rw [hclients₁] at hclient' hosts
    rw [hawaits₁] at hl
    refine .made url (hclient₁.symm.trans hnone) hclient' hurl' hosts l hl hconnected ?_ ?_
      ⟨next, rfl⟩
    · intro url'
      constructor
      · rintro ⟨d', hd', hid, -, hurl'⟩
        rw [honly d' hd' hid, hurl] at hurl'
        exact (Option.some.inj hurl').symm
      · rintro rfl
        exact ⟨d, by simp, hd, hmakes, hurl⟩
    · intro url'
      constructor
      · rintro ⟨d', hd', hid, -, other, hother, hne⟩
        rw [honly d' hd' hid, hurl] at hother
        rw [Option.some.inj hother]
        exact hne.symm
      · intro hne
        exact ⟨d, by simp, hd, hmakes, url, hurl, hne.symm⟩
  · obtain ⟨hclient', -, hosts, l, hl, hconnected⟩ :=
      HostCoordinator.quiet_afterRefresh he hdescriptor next fun hm hc => by
        by_contra hurl
        exact hmakes ⟨hm, hc, Option.ne_none_iff_exists'.mp hurl⟩
    rw [hclients₁] at hosts
    rw [hawaits₁] at hl
    refine .quiet (hclient'.trans hclient₁) hosts l hl hconnected fun hnone url hp => hmakes ?_
    obtain ⟨d', hd', hid, hm, hurl⟩ := hp
    rw [honly d' hd' hid] at hm hurl
    exact ⟨hm, hclient₁.trans hnone, url, hurl⟩

/-- What an answer is that lists no hosts. -/
theorem delivery_answered {n : Nat} {a : Await} (hlist : ∀ next, a ≠ .listHosts next)
    (answer : ProviderAnswer) :
    s.Delivery env n (a, .settled answer)
      (HostCoordinator.answered { s.client with awaits := s.client.awaits.eraseIdx n } a
        answer) := by
  by_cases hconnect : ∃ priorState next hosts,
      a = .connectHost env.id priorState next ∧ answer = .resolved hosts
  · obtain ⟨priorState, next, hosts, rfl, rfl⟩ := hconnect
    refine .returned rfl List.prefix_rfl (.listHosts (.connected env.id priorState next)) rfl rfl
      (fun _ => rfl) ?_ hlist
    rintro url ⟨d, -, -, hmakes, -⟩
    exact hmakes
  · have hquiet : HostCoordinator.Quiet env.id
        { s.client with awaits := s.client.awaits.eraseIdx n }
        (HostCoordinator.answered { s.client with awaits := s.client.awaits.eraseIdx n } a
          answer) :=
      HostCoordinator.quiet_answered hlist fun priorState next hosts heq hanswer =>
        hconnect ⟨priorState, next, hosts, heq, hanswer⟩
    obtain ⟨hclient, -, hosts, l, hl, hconnected⟩ := hquiet
    refine .quiet hclient hosts l hl hconnected fun _ url hp => ?_
    cases a with
    | listHosts next => exact hlist next rfl
    | connectHost id priorState next =>
      cases answer with
      | resolved descriptors =>
        have hid : id = env.id := hp
        exact hconnect ⟨priorState, next, descriptors, by rw [hid], rfl⟩
      | rejected failure => exact hp
    | _ =>
      cases answer with
      | resolved hosts =>
        obtain ⟨d, -, -, hm, -⟩ := hp
        exact hm
      | rejected failure => exact hp

/-- What an answer is, when it arrives. -/
theorem delivery (h : s.Coherent env) {n : Nat} {a : Await} {answer : ProviderAnswer}
    (hn : s.pending n = some (a, .settled answer)) :
    s.Delivery env n (a, .settled answer) (s.client.step env.type (.answer n answer)) := by
  have ha : s.client.awaits[n]? = some a := (List.getElem?_zip_eq_some.mp hn).1
  have hstep : s.client.step env.type (.answer n answer) =
      HostCoordinator.answered { s.client with awaits := s.client.awaits.eraseIdx n } a answer := by
    simp only [HostCoordinator.step, ha]
  rw [hstep]
  by_cases hlist : ∃ next, a = .listHosts next
  · obtain ⟨next, rfl⟩ := hlist
    obtain ⟨before, d, after, rfl, hd, hbefore, hafter⟩ :=
      h.listed next answer (List.mem_of_getElem? hn)
    exact delivery_listHosts hd hbefore hafter
  · exact delivery_answered (fun next hnext => hlist ⟨next, hnext⟩) answer

/-- The `WsClient` stays where the coordinator makes and gives up no connection. -/
theorem owns_advance_iff (h : s.Coherent env) {client : HostCoordinator M C}
    (calls : List CallState) (hclient : client.clientOf env.id = s.client.clientOf env.id)
    (hosts : s.client.clients.map (·.host) <+: client.clients.map (·.host)) (a : Attempt P Q) :
    (s.advance client calls).Owns env a ↔ s.Owns env a := by
  unfold Owns
  refine exists_congr fun k => ?_
  have hk : (s.advance client calls).client.clientOf env.id = some k ↔
      s.client.clientOf env.id = some k := by rw [← hclient]; rfl
  rw [hk]
  refine and_congr_right fun hsome => ?_
  rw [(urls_advance h calls hosts).2.1 k (by rw [h.urls]; exact h.client k hsome)]

/-- A `WsClient` that is made has its url. -/
theorem owns_advance_of_made (h : s.Coherent env) {client : HostCoordinator M C}
    (calls : List CallState) {url : String}
    (hclient : client.clientOf env.id = some s.client.clients.length)
    (hurl : client.urlOf env.id = some url)
    (hosts : s.client.clients.map (·.host) ++ [env.id] <+: client.clients.map (·.host))
    (a : Attempt P Q) : (s.advance client calls).Owns env a ↔ url = bridgeUrl a.port := by
  have hhost : (client.clients.map (·.host))[s.client.clients.length]? = some env.id := by
    obtain ⟨rest, hrest⟩ := hosts
    rw [← hrest, List.append_assoc, List.getElem?_append_right (by simp)]
    simp
  obtain ⟨c, hc, hid⟩ := Option.map_eq_some_iff.mp ((List.getElem?_map ..).symm.trans hhost)
  have hnew := (urls_advance h calls ((List.prefix_append _ _).trans hosts)).2.2
    s.client.clients.length c h.urls.le hc
  rw [hid, hurl] at hnew
  constructor
  · rintro ⟨k, hk, hkurl⟩
    obtain rfl : s.client.clients.length = k := Option.some.inj (hclient.symm.trans hk)
    rw [hnew] at hkurl
    exact Option.some.inj hkurl
  · rintro rfl
    exact ⟨_, hclient, hnew⟩

theorem Coherent.advance (h : s.Coherent env) {client : HostCoordinator M C}
    {calls : List CallState} {l m : List Await} (hawaits : client.awaits = m ++ l)
    (hcalls : calls.length = m.length) (hsub : ∀ p ∈ m.zip calls, p ∈ s.pairs)
    (hosts : s.client.clients.map (·.host) <+: client.clients.map (·.host))
    (hclient : client.clientOf env.id = s.client.clientOf env.id ∨
      s.client.clientOf env.id = none ∧ client.clientOf env.id = some s.client.clients.length ∧
        s.client.clients.length < client.clients.length) :
    (s.advance client calls).Coherent env := by
  have hpairs := pairs_advance (s := s) hawaits hcalls
  have hle : s.client.clients.length ≤ client.clients.length := by simpa using hosts.length_le
  -- a call that started is only called
  have hold : ∀ {a : Await} {c : CallState}, c ≠ .called → (a, c) ∈ (s.advance client calls).pairs →
      (a, c) ∈ s.pairs := by
    intro a c hc hp
    rw [hpairs] at hp
    rcases List.mem_append.mp hp with hp | hp
    · exact hsub _ hp
    · obtain ⟨a', -, heq⟩ := List.mem_map.mp hp
      rw [Prod.mk.injEq] at heq
      exact absurd heq.2.symm hc
  refine ⟨?_, (urls_advance h calls hosts).1, ?_, ?_, ?_, h.sound, ?_⟩
  · exact length_calls_advance (by rw [hawaits, hcalls, List.length_append]; omega)
  · intro k hk
    rcases hclient with hsame | ⟨-, hmade, hlt⟩
    · exact (h.client k (hsame.symm.trans hk)).trans_le hle
    · obtain rfl : s.client.clients.length = k := Option.some.inj (hmade.symm.trans hk)
      exact hlt
  · intro next answer hp
    exact h.listed next answer (hold (by simp) hp)
  · intro a hp
    exact h.polling a (hold (by simp) hp)
  · intro a ha hreached
    have howns := h.reached a ha hreached
    rcases hclient with hsame | ⟨hnone, -⟩
    · exact (owns_advance_iff h calls hsame hosts a).mpr howns
    · obtain ⟨k, hk, -⟩ := howns
      rw [hnone] at hk
      cases hk

theorem Coherent.setCall (h : s.Coherent env) {n : Nat} {a : Await} {c c' : CallState}
    (hn : s.pending n = some (a, c'))
    (hlisted : ∀ next answer, a = .listHosts next → c = .settled answer →
      ∃ before d after, answer = .resolved (before ++ d :: after) ∧ d.id = env.id ∧
        (∀ d' ∈ before, d'.id ≠ env.id) ∧ ∀ d' ∈ after, d'.id ≠ env.id)
    (hpolling : c = .polling → a.connects env.id = true) : (s.setCall n c).Coherent env := by
  refine ⟨?_, h.urls, h.client, ?_, ?_, h.sound, h.reached⟩
  · exact (List.length_set ..).trans h.calls
  · intro next answer hp
    rcases pairs_setCall n c hp with hp | ⟨a', c'', hn', heq⟩
    · exact h.listed next answer hp
    · rw [hn, Option.some.injEq, Prod.mk.injEq] at hn'
      rw [Prod.mk.injEq] at heq
      exact hlisted next answer (hn'.1.trans heq.1.symm) heq.2.symm
  · intro b hp
    rcases pairs_setCall n c hp with hp | ⟨a', c'', hn', heq⟩
    · exact h.polling b hp
    · rw [hn, Option.some.injEq, Prod.mk.injEq] at hn'
      rw [Prod.mk.injEq] at heq
      rw [heq.1, ← hn'.1]
      exact hpolling heq.2.symm

/-- A call for the host whose promise is rejected, or one for others that is answered. -/
theorem Coherent.settle (h : s.Coherent env) {n : Nat} {a : Await} {c : CallState}
    (hn : s.pending n = some (a, c)) (ha : ∀ next, a ≠ .listHosts next) (answer : ProviderAnswer) :
    (s.setCall n (.settled answer)).Coherent env :=
  h.setCall hn (fun next _ heq => absurd heq (ha next)) fun heq => by cases heq

theorem Await.ne_listHosts_of_connects {a : Await} {id : String} (ha : a.connects id = true)
    (next : AfterRefresh) : a ≠ .listHosts next := by
  rintro rfl
  cases ha

/-- An attempt changes; a browser that reaches it has a `WsClient`. -/
theorem Coherent.withAttempt (h : s.Coherent env) {attempt : Option (Attempt P Q)}
    (hsound : ∀ a, attempt = some a → a.Sound)
    (hreached : ∀ a, attempt = some a → a.sockets ≠ 0 ∨ a.relays ≠ [] → s.Owns env a) :
    Coherent env { s with attempt } :=
  ⟨h.calls, h.urls, h.client, h.listed, h.polling, hsound, hreached⟩

theorem Coherent.deliver (h : s.Coherent env) {n : Nat} {p : Await × CallState}
    {client : HostCoordinator M C} (hdelivery : s.Delivery env n p client) :
    (s.advance client (s.calls.eraseIdx n)).Coherent env := by
  have hcalls := h.length_eraseIdx n
  have hsub : ∀ q ∈ (s.client.awaits.eraseIdx n).zip (s.calls.eraseIdx n), q ∈ s.pairs :=
    fun q hq => mem_pairs_of_eraseIdx hq
  cases hdelivery with
  | quiet hclient hosts l hawaits hl hp =>
    exact h.advance hawaits hcalls hsub hosts (.inl hclient)
  | returned hclient hosts a hawaits ha hp hm hlist =>
    exact h.advance hawaits hcalls hsub hosts (.inl hclient)
  | made url hnone hclient hurl hosts l hawaits hl hp hm hlist =>
    refine h.advance hawaits hcalls hsub ((List.prefix_append _ _).trans hosts)
      (.inr ⟨hnone, hclient, ?_⟩)
    have hlt : s.client.clients.length + 1 ≤ client.clients.length := by
      simpa using hosts.length_le
    exact hlt

/-! ### Steps -/

/-- What the client does of its own accord starts calls. -/
theorem coherent_client (h : s.Coherent env) {client : HostCoordinator M C}
    (hquiet : HostCoordinator.Quiet env.id s.client client) :
    (s.advance client s.calls).Coherent env := by
  obtain ⟨hclient, -, hosts, l, hawaits, -⟩ := hquiet
  exact h.advance hawaits h.calls (fun _ hp => hp) hosts (.inl hclient)

theorem listed_spec (env : HostSetup M) (s : HostConnect M C P Q)
    (before after : List NativeHostDescriptor) :
    ∃ before' d after', s.listed env before after = before' ++ d :: after' ∧ d.id = env.id ∧
      (∀ d' ∈ before', d'.id ≠ env.id) ∧ ∀ d' ∈ after', d'.id ≠ env.id := by
  refine ⟨_, _, _, rfl, ?_, ?_, ?_⟩
  · cases s.attempt <;> rfl
  · intro d' hd'
    exact of_decide_eq_true (List.mem_filter.mp hd').2
  · intro d' hd'
    exact of_decide_eq_true (List.mem_filter.mp hd').2

/-- The profile is listed once. -/
theorem eq_of_mem_listed {s : HostConnect M C P Q} {before after : List NativeHostDescriptor}
    {d : NativeHostDescriptor} (hd : d ∈ s.listed env before after) (hid : d.id = env.id) :
    d = remoteSnapshot env.redactDetail env.id s.attempt := by
  rcases List.mem_append.mp hd with hd | hd
  · exact absurd hid (of_decide_eq_true (List.mem_filter.mp hd).2)
  · rcases List.mem_cons.mp hd with heq | hd
    · exact heq
    · exact absurd hid (of_decide_eq_true (List.mem_filter.mp hd).2)

theorem coherent_ensure (h : s.Coherent env) (port : Nat) : (s.ensure env port).Coherent env := by
  unfold ensure
  split
  · exact h
  · refine h.withAttempt ?_ ?_
    · intro a ha
      rw [← Option.some.inj ha]
      exact Attempt.sound_start env.target port
    · rintro a ha (hsockets | hrelays)
      · rw [← Option.some.inj ha] at hsockets
        exact absurd rfl hsockets
      · rw [← Option.some.inj ha] at hrelays
        exact absurd rfl hrelays

/-- What a step can do: nothing; calls that the client starts of its own accord; a listing;
an attempt that is ensured and polled; a call that is settled; an answer that arrives; an
attempt that is stopped, or makes a step. -/
inductive Moves (env : HostSetup M) (s : HostConnect M C P Q) (act : ConnectAction M C P Q) :
    HostConnect M C P Q → Prop
  | idle : Moves env s act s
  | client (client : HostCoordinator M C)
      (hquiet : HostCoordinator.Quiet env.id s.client client) :
      Moves env s act (s.advance client s.calls)
  | list (n : Nat) (next : AfterRefresh) (before after : List NativeHostDescriptor)
      (hn : s.pending n = some (.listHosts next, .called)) :
      Moves env s act (s.setCall n (.settled (.resolved (s.listed env before after))))
  | ensure (n port : Nat) (a : Await) (hn : s.pending n = some (a, .called))
      (ha : a.connects env.id = true) : Moves env s act ((s.ensure env port).setCall n .polling)
  | settle (n : Nat) (a : Await) (c : CallState) (answer : ProviderAnswer)
      (hn : s.pending n = some (a, c)) (hlist : ∀ next, a ≠ .listHosts next)
      (hold : ∀ url, ¬ Promises env url (a, c))
      (hnew : s.pollHostState env = some answer ∨
        ∀ url, ¬ Promises env url (a, .settled answer)) :
      Moves env s act (s.setCall n (.settled answer))
  | deliver (n : Nat) (a : Await) (answer : ProviderAnswer) (hact : act = .deliver n)
      (hn : s.pending n = some (a, .settled answer)) :
      Moves env s act
        (s.advance (s.client.step env.type (.answer n answer)) (s.calls.eraseIdx n))
  | stop (a : Attempt P Q) (phase : Desktop.PreflightPhase) (risks : List Desktop.PendingRisk)
      (ha : s.attempt = some a) (hstate : a.state = .awaitingAcknowledgement phase risks) :
      Moves env s act { s with attempt := none }
  | attempt (b : AttemptAction P Q)
      (hact : act = .attempt b ∧ b ≠ .accept ∨
        act = .connect ∧ b = .accept ∧ s.ownsBridge env = true) :
      Moves env s act { s with attempt := s.attempt.map (·.step b) }

theorem moves_step (h : s.Coherent env) (act : ConnectAction M C P Q) :
    Moves env s act (s.step env act) := by
  unfold step
  split
  · next a =>
    split
    · next ha => exact .client _ (HostCoordinator.quiet_step env.type ha)
    · exact .idle
  · next n port before after =>
    split
    · next a hn =>
      unfold invoke
      split
      · next next => exact .list n next before after hn
      · split
        · next ha => exact .ensure n port a hn ha
        · exact .idle
    · exact .idle
  · next n failure =>
    split
    · next a hn =>
      split
      · next ha =>
        have hlist := Await.ne_listHosts_of_connects ha
        exact .settle n a _ _ hn hlist (fun _ => not_promises_called hlist)
          (.inr fun _ => not_promises_rejected)
      · exact .idle
    · exact .idle
  · next n =>
    split
    · next a answer hn hanswer =>
      have ha := h.polling a (List.mem_of_getElem? hn)
      exact .settle n a _ _ hn (Await.ne_listHosts_of_connects ha) (fun _ => not_promises_polling)
        (.inl hanswer)
    · exact .idle
  · next n =>
    split
    · next a hn =>
      have ha := h.polling a (List.mem_of_getElem? hn)
      exact .settle n a _ _ hn (Await.ne_listHosts_of_connects ha) (fun _ => not_promises_polling)
        (.inr fun _ => not_promises_rejected)
    · exact .idle
  · next n answer =>
    split
    · exact .idle
    · next a hlist hn =>
      split
      · exact .idle
      · next hconnects =>
        have hlist' : ∀ next, a ≠ .listHosts next := fun next heq => hlist next heq
        exact .settle n a _ _ hn hlist' (fun _ => not_promises_called hlist')
          (.inr fun _ => not_promises_settled hlist' (by simpa using hconnects))
    · exact .idle
  · next n =>
    split
    · next a answer hn => exact .deliver n a answer rfl hn
    · exact .idle
  · unfold acknowledge
    split
    · exact .idle
    · next a ha =>
      split
      · next phase risks hstate =>
        split
        · exact .stop a phase risks ha hstate
        · exact .idle
      · exact .idle
  · exact .idle
  · next b hb => exact .attempt b (.inl ⟨rfl, hb⟩)
  · split
    · next howns => exact .attempt .accept (.inr ⟨rfl, rfl, howns⟩)
    · exact .idle

@[simp] theorem pending_ensure (port n : Nat) : (s.ensure env port).pending n = s.pending n := by
  unfold ensure
  split <;> rfl

theorem coherent_step (h : s.Coherent env) (act : ConnectAction M C P Q) :
    (s.step env act).Coherent env := by
  have hmoves := moves_step h act
  generalize s.step env act = s' at hmoves
  cases hmoves with
  | idle => exact h
  | client client hquiet => exact coherent_client h hquiet
  | list n next before after hn =>
    obtain ⟨before', d, after', hlisted, hspec⟩ := listed_spec env s before after
    refine h.setCall hn (fun _ answer _ hanswer => ?_) fun heq => by cases heq
    refine ⟨before', d, after', ?_, hspec⟩
    rw [← hlisted]
    exact (CallState.settled.inj hanswer).symm
  | ensure n port a hn ha =>
    refine (coherent_ensure h port).setCall ((pending_ensure port n).trans hn) ?_ fun _ => ha
    exact fun _ _ _ heq => by cases heq
  | settle n a c answer hn hlist hold hnew => exact h.settle hn hlist answer
  | deliver n a answer hact hn => exact h.deliver (delivery h hn)
  | stop a phase risks ha hstate =>
    exact h.withAttempt (fun a ha => by cases ha) fun a ha => by cases ha
  | attempt b hact =>
    refine h.withAttempt ?_ ?_
    · intro a' ha'
      obtain ⟨a, ha, rfl⟩ := Option.map_eq_some_iff.mp ha'
      exact Attempt.sound_step (h.sound a ha) b
    · intro a' ha' hreached
      obtain ⟨a, ha, rfl⟩ := Option.map_eq_some_iff.mp ha'
      have howns : s.Owns env a := by
        rcases hact with ⟨-, haccept⟩ | ⟨-, -, howns⟩
        · exact h.reached a ha (Attempt.reached_of_step haccept hreached)
        · exact (owns_iff ha).mp howns
      obtain ⟨k, hk, hurl⟩ := howns
      exact ⟨k, hk, by rw [hurl, Attempt.port_step]⟩

/-! ### Who is served -/

/-- A bridge that listens and that the client does not own is shown as starting. -/
theorem Coherent.unreached (h : s.Coherent env) {a : Attempt P Q} (ha : s.attempt = some a)
    (hstage : a.stage = .binding ∨ a.stage = .listening) (howns : ¬ s.Owns env a) :
    a.sockets = 0 ∧ a.relays = [] ∧ a.state = .starting := by
  have hnone := not_or.mp fun hreached => howns (h.reached a ha hreached)
  have hrelays : a.relays = [] := not_not.mp hnone.2
  exact ⟨not_not.mp hnone.1, hrelays, (h.sound a ha).starting hstage hrelays⟩

theorem not_owns_of_none {a : Attempt P Q} (hnone : s.client.clientOf env.id = none) :
    ¬ s.Owns env a := by
  rintro ⟨k, hk, -⟩
  rw [hnone] at hk
  cases hk

/-- While the bridge starts, a listing makes a connection to it for a `connectHost`. -/
theorem promises_listed {a : Attempt P Q} (ha : s.attempt = some a) (hstate : a.state = .starting)
    (next : AfterRefresh) (before after : List NativeHostDescriptor) :
    Promises env (bridgeUrl a.port)
        (.listHosts next, .settled (.resolved (s.listed env before after))) ↔
      (Await.listHosts next).Connected env.id := by
  have hsnapshot : remoteSnapshot env.redactDetail env.id s.attempt =
      { id := env.id, state := .starting, wsUrl := some (bridgeUrl a.port) } := by
    rw [ha]
    simp [remoteSnapshot, hstate, ConnectionState.toHostState, urlStates]
  constructor
  · rintro ⟨d, hd, hid, hmakes, -⟩
    rw [eq_of_mem_listed hd hid, hsnapshot] at hmakes
    cases next with
    | connected id priorState next => exact hmakes.1
    | resumed id => cases hmakes.2
    | _ => exact hmakes
  · intro hconnected
    refine ⟨_, List.mem_append_right _ List.mem_cons_self, by rw [hsnapshot], ?_,
      by rw [hsnapshot]⟩
    rw [hsnapshot]
    cases next with
    | connected id priorState next => exact ⟨hconnected, by simp [nonTerminalConnectStates]⟩
    | _ => exact hconnected.elim

theorem served_setCall_iff {n : Nat} {aw : Await} {c c' : CallState} {a : Attempt P Q}
    (hn : s.pending n = some (aw, c'))
    (hiff : s.client.clientOf env.id = none →
      (Promises env (bridgeUrl a.port) (aw, c) ↔ Promises env (bridgeUrl a.port) (aw, c'))) :
    (s.setCall n c).Served env a ↔ s.Served env a := by
  refine or_congr Iff.rfl (and_congr_right fun hnone => ?_)
  constructor
  · rintro ⟨p, hp, hpromises⟩
    rcases pairs_setCall n c hp with hp | ⟨aw', c'', hn', rfl⟩
    · exact ⟨p, hp, hpromises⟩
    · rw [hn, Option.some.injEq, Prod.mk.injEq] at hn'
      rw [← hn'.1] at hpromises
      exact ⟨_, List.mem_of_getElem? hn, (hiff hnone).mp hpromises⟩
  · rintro ⟨p, hp, hpromises⟩
    rcases mem_pairs_setCall (c := c) hn hp with hkept | ⟨rfl, hset⟩
    · exact ⟨p, hkept, hpromises⟩
    · exact ⟨_, hset, (hiff hnone).mpr hpromises⟩

/-- The calls the client starts by itself serve nobody. -/
theorem served_client_iff (h : s.Coherent env) {client : HostCoordinator M C}
    (hquiet : HostCoordinator.Quiet env.id s.client client) (a : Attempt P Q) :
    (s.advance client s.calls).Served env a ↔ s.Served env a := by
  obtain ⟨hclient, -, hosts, l, hawaits, hl⟩ := hquiet
  refine or_congr (owns_advance_iff h _ hclient hosts a) ?_
  have hnone : (s.advance client s.calls).client.clientOf env.id = none ↔
      s.client.clientOf env.id = none := by rw [← hclient]; rfl
  rw [hnone, pairs_advance hawaits h.calls]
  refine and_congr_right fun _ => ⟨?_, ?_⟩
  · rintro ⟨p, hp, hpromises⟩
    rcases List.mem_append.mp hp with hp | hp
    · exact ⟨p, hp, hpromises⟩
    · obtain ⟨aw, haw, rfl⟩ := List.mem_map.mp hp
      exact absurd (promises_called_iff.mp hpromises) (hl aw haw)
  · rintro ⟨p, hp, hpromises⟩
    exact ⟨p, List.mem_append_left _ hp, hpromises⟩

/-- An answer leaves the bridge served, unless it makes a connection to another. -/
theorem served_deliver (h : s.Coherent env) {n : Nat} {p : Await × CallState}
    {client : HostCoordinator M C} (hn : s.pending n = some p)
    (hdelivery : s.Delivery env n p client) {a : Attempt P Q} (hserved : s.Served env a)
    (hleads : s.client.clientOf env.id = none → ¬ Misleads env (bridgeUrl a.port) p) :
    (s.advance client (s.calls.eraseIdx n)).Served env a := by
  have hcalls := h.length_eraseIdx n
  -- a promise that is not the answer's is still one
  have hkept : ∀ {l : List Await}, client.awaits = s.client.awaits.eraseIdx n ++ l →
      ∀ q ∈ s.pairs, q ≠ p → q ∈ (s.advance client (s.calls.eraseIdx n)).pairs := by
    intro l hawaits q hq hne
    rw [pairs_advance hawaits hcalls, zip_eraseIdx]
    obtain ⟨i, hi⟩ := List.mem_iff_getElem?.mp hq
    refine List.mem_append_left _ (List.mem_eraseIdx_iff_getElem?.mpr ⟨i, ?_, hi⟩)
    rintro rfl
    exact hne (Option.some.inj (hi.symm.trans hn))
  cases hdelivery with
  | quiet hclient hosts l hawaits hl hp =>
    rcases hserved with howns | ⟨hnone, q, hq, hpromises⟩
    · exact .inl ((owns_advance_iff h _ hclient hosts a).mpr howns)
    · refine .inr ⟨hclient.trans hnone, q, hkept hawaits q hq ?_, hpromises⟩
      rintro rfl
      exact hp hnone _ hpromises
  | returned hclient hosts aw hawaits haw hp hm hlist =>
    rcases hserved with howns | ⟨hnone, -⟩
    · exact .inl ((owns_advance_iff h _ hclient hosts a).mpr howns)
    · refine .inr ⟨hclient.trans hnone, (aw, .called), ?_, ?_⟩
      · rw [pairs_advance hawaits hcalls]
        simp
      · exact promises_called_iff.mpr haw
  | made url hnone hclient hurl hosts l hawaits hl hp hm hlist =>
    refine .inl ((owns_advance_of_made h _ hclient hurl hosts a).mpr ?_)
    by_contra hne
    exact hleads hnone ((hm _).mpr fun heq => hne heq.symm)

/-- An answer serves nobody who was not served, and the one that misleads serves nobody. -/
theorem not_served_deliver (h : s.Coherent env) {n : Nat} {p : Await × CallState}
    {client : HostCoordinator M C} (hn : s.pending n = some p)
    (hdelivery : s.Delivery env n p client) {a : Attempt P Q}
    (hnot : ¬ s.Served env a ∨
      s.client.clientOf env.id = none ∧ Misleads env (bridgeUrl a.port) p) :
    ¬ (s.advance client (s.calls.eraseIdx n)).Served env a := by
  have hcalls := h.length_eraseIdx n
  cases hdelivery with
  | quiet hclient hosts l hawaits hl hp =>
    rcases hnot with hnot | ⟨hnone, hmisleads⟩
    · rintro (howns | ⟨hnone, q, hq, hpromises⟩)
      · exact hnot (.inl ((owns_advance_iff h _ hclient hosts a).mp howns))
      · rw [pairs_advance hawaits hcalls, zip_eraseIdx] at hq
        rcases List.mem_append.mp hq with hq | hq
        · exact hnot (.inr ⟨hclient.symm.trans hnone, q, List.mem_of_mem_eraseIdx hq, hpromises⟩)
        · obtain ⟨aw, haw, rfl⟩ := List.mem_map.mp hq
          exact hl aw haw (promises_called_iff.mp hpromises)
    · obtain ⟨url, hpromises⟩ := promises_of_misleads hmisleads
      exact absurd hpromises (hp hnone url)
  | returned hclient hosts aw hawaits haw hp hm hlist =>
    rcases hnot with hnot | ⟨hnone, hmisleads⟩
    · rintro (howns | ⟨hnone, -⟩)
      · exact hnot (.inl ((owns_advance_iff h _ hclient hosts a).mp howns))
      · exact hnot (.inr ⟨hclient.symm.trans hnone, p, List.mem_of_getElem? hn, hp _⟩)
    · exact absurd hmisleads (hm _)
  | made url hnone hclient hurl hosts l hawaits hl hp hm hlist =>
    have hne : bridgeUrl a.port ≠ url := by
      rcases hnot with hnot | ⟨-, hmisleads⟩
      · rintro rfl
        exact hnot (.inr ⟨hnone, p, List.mem_of_getElem? hn, (hp _).mpr rfl⟩)
      · exact (hm _).mp hmisleads
    rintro (howns | ⟨hnone', -⟩)
    · exact hne ((owns_advance_of_made h _ hclient hurl hosts a).mp howns).symm
    · rw [show (s.advance client (s.calls.eraseIdx n)).client.clientOf env.id =
        client.clientOf env.id from rfl, hclient] at hnone'
      cases hnone'

/-- But for answers, a step serves nobody who was not served, and leaves no one unserved. -/
theorem served_step_iff (h : s.Coherent env) {a : Attempt P Q} (ha : s.attempt = some a)
    (hstage : a.stage = .listening) {act : ConnectAction M C P Q}
    (hdeliver : ∀ n, act ≠ .deliver n) : (s.step env act).Served env a ↔ s.Served env a := by
  have hmoves := moves_step h act
  generalize s.step env act = s' at hmoves
  have hstate (hnone : s.client.clientOf env.id = none) : a.state = .starting :=
    (h.unreached ha (.inr hstage) (not_owns_of_none hnone)).2.2
  cases hmoves with
  | idle => rfl
  | client client hquiet => exact served_client_iff h hquiet a
  | list n next before after hn =>
    refine served_setCall_iff hn fun hnone => ?_
    rw [promises_called_iff]
    exact promises_listed ha (hstate hnone) next before after
  | ensure n port aw hn haw =>
    have hensure : s.ensure env port = s := by rw [ensure, ha]
    rw [hensure]
    exact served_setCall_iff hn fun _ => iff_of_false not_promises_polling
      (not_promises_called (Await.ne_listHosts_of_connects haw))
  | settle n aw c answer hn hlist hold hnew =>
    refine served_setCall_iff hn fun hnone => iff_of_false ?_ (hold _)
    rcases hnew with hanswer | hnew
    · simp [pollHostState, ha, hstate hnone, ConnectionState.toHostState] at hanswer
    · exact hnew _
  | deliver n aw answer hact hn => exact absurd hact (hdeliver n)
  | stop a phase risks ha hstate => rfl
  | attempt b hact => rfl

theorem served_congr {a a' : Attempt P Q} (hport : a'.port = a.port) :
    s.Served env a' ↔ s.Served env a := by
  unfold Served Owns
  rw [hport]

/-- A step leaves the attempt, ends one that waits for an acknowledgement, begins one where
there is none, or is a step of it. -/
theorem attempt_step (h : s.Coherent env) (act : ConnectAction M C P Q) :
    (s.step env act).attempt = s.attempt ∨
      (∃ a phase pendingRisks, s.attempt = some a ∧
        a.state = .awaitingAcknowledgement phase pendingRisks ∧ (s.step env act).attempt = none) ∨
      (s.attempt = none ∧ ∃ port, (s.step env act).attempt =
        some { Attempt.start env.target port with published := true }) ∨
      ∃ b, (act = .attempt b ∧ b ≠ .accept ∨
          act = .connect ∧ b = .accept ∧ s.ownsBridge env = true) ∧
        (s.step env act).attempt = s.attempt.map (·.step b) := by
  have hmoves := moves_step h act
  generalize s.step env act = s' at hmoves
  cases hmoves with
  | stop a phase risks ha hstate => exact .inr (.inl ⟨a, phase, risks, ha, hstate, rfl⟩)
  | attempt b hact => exact .inr (.inr (.inr ⟨b, hact, rfl⟩))
  | ensure n port aw hn haw =>
    cases hattempt : s.attempt with
    | none => exact .inr (.inr (.inl ⟨rfl, port, by simp [setCall, HostConnect.ensure, hattempt]⟩))
    | some a => exact .inl (by simp [setCall, HostConnect.ensure, hattempt])
  | _ => exact .inl rfl

/-- A bridge that listens after a step did before, or was bound by it. -/
theorem attempt_of_step (h : s.Coherent env) {act : ConnectAction M C P Q} {a' : Attempt P Q}
    (ha' : (s.step env act).attempt = some a') (hstage : a'.stage = .listening) :
    ∃ a, s.attempt = some a ∧ a'.port = a.port ∧
      (a.stage = .listening ∨ act = .attempt (.bind true) ∧ a.stage = .binding) := by
  rcases attempt_step h act with heq | ⟨a, phase, risks, ha, hstate, heq⟩ | ⟨-, port, heq⟩ |
    ⟨b, hact, heq⟩
  · exact ⟨a', heq.symm.trans ha', rfl, .inl hstage⟩
  · rw [heq] at ha'
    cases ha'
  · rw [heq, Option.some.injEq] at ha'
    rw [← ha'] at hstage
    cases htarget : env.target <;> simp [Attempt.start, htarget] at hstage
  · obtain ⟨a, ha, rfl⟩ := Option.map_eq_some_iff.mp (heq.symm.trans ha')
    refine ⟨a, ha, Attempt.port_step, ?_⟩
    rcases Attempt.listening_of_step hstage with hlistening | ⟨rfl, hbinding⟩
    · exact .inl hlistening
    · rcases hact with ⟨hact, -⟩ | ⟨-, hb, -⟩
      · exact .inr ⟨hact, hbinding⟩
      · cases hb

/-- **A step that leads leaves no bridge unserved.** -/
theorem served_step (h : s.Coherent env)
    (hserved : ∀ a, s.attempt = some a → a.stage = .listening → s.Served env a)
    {act : ConnectAction M C P Q} (hleads : s.Leads env act) :
    ∀ a, (s.step env act).attempt = some a → a.stage = .listening →
      (s.step env act).Served env a := by
  intro a' ha' hstage'
  obtain ⟨a, ha, hport, hstage⟩ := attempt_of_step h ha' hstage'
  rw [served_congr hport]
  rcases hstage with hstage | ⟨rfl, hstage⟩
  · by_cases hdeliver : ∃ n, act = .deliver n
    · obtain ⟨n, rfl⟩ := hdeliver
      simp only [step]
      split
      · next aw answer hn =>
        refine served_deliver h hn (delivery h hn) (hserved a ha hstage) fun hnone => ?_
        have hstate := (h.unreached ha (.inr hstage) (not_owns_of_none hnone)).2.2
        exact hleads a _ ⟨ha, hstage, by rw [hstate]; rfl⟩ hnone hn
      · exact hserved a ha hstage
    · exact (served_step_iff h ha hstage fun n hact => hdeliver ⟨n, hact⟩).mpr
        (hserved a ha hstage)
  · exact hleads a ha hstage

/-- **A client that waits in vain goes on to**: while the bridge listens and no browser
connects, no step serves it. -/
theorem stuck_step (h : s.Coherent env) {a : Attempt P Q} (ha : s.attempt = some a)
    (hstage : a.stage = .listening) (hnot : ¬ s.Served env a) {act : ConnectAction M C P Q}
    (hact : act ≠ .connect) :
    (s.step env act).attempt = some a ∧ ¬ (s.step env act).Served env a := by
  have howns : ¬ s.Owns env a := fun howns => hnot (.inl howns)
  obtain ⟨hsockets, hrelays, hstate⟩ := h.unreached ha (.inr hstage) howns
  constructor
  · rcases attempt_step h act with heq | ⟨a', phase, risks, ha', hstate', heq⟩ |
      ⟨hnone, port, heq⟩ | ⟨b, hb, heq⟩
    · exact heq.trans ha
    · obtain rfl : a = a' := Option.some.inj (ha.symm.trans ha')
      rw [hstate] at hstate'
      cases hstate'
    · rw [ha] at hnone
      cases hnone
    · rcases hb with ⟨-, haccept⟩ | ⟨hconnect, -⟩
      · rw [heq, ha, Option.map_some,
          (h.sound a ha).step_of_unreached hstage hsockets hrelays haccept]
      · exact absurd hconnect hact
  · by_cases hdeliver : ∃ n, act = .deliver n
    · obtain ⟨n, rfl⟩ := hdeliver
      simp only [step]
      split
      · next aw answer hn => exact not_served_deliver h hn (delivery h hn) (.inl hnot)
      · exact hnot
    · rw [served_step_iff h ha hstage fun n hn => hdeliver ⟨n, hn⟩]
      exact hnot

/-- **A client that waits for `ready` waits for itself**: it never comes to own a `WsClient`
for the bridge. -/
theorem not_canConnect (h : s.Coherent env) {a : Attempt P Q} (ha : s.attempt = some a)
    (hstage : a.stage = .listening) (hnot : ¬ s.Served env a) : ¬ s.CanConnect env := by
  rintro ⟨acts, hacts, howns⟩
  have hstuck : ∀ (acts : List (ConnectAction M C P Q)) (s : HostConnect M C P Q),
      s.Coherent env → s.attempt = some a → ¬ s.Served env a → (∀ act ∈ acts, act ≠ .connect) →
        ¬ (acts.foldl (step env) s).ownsBridge env = true := by
    intro acts
    induction acts with
    | nil =>
      intro s h ha hnot _ howns
      exact hnot (.inl ((owns_iff ha).mp howns))
    | cons act acts ih =>
      intro s h ha hnot hacts
      obtain ⟨ha', hnot'⟩ := stuck_step h ha hstage hnot (hacts act List.mem_cons_self)
      exact ih _ (coherent_step h act) ha' hnot' fun act' hact' =>
        hacts act' (List.mem_cons_of_mem _ hact')
  exact hstuck acts s h ha hnot hacts howns

/-! ### Who is served can connect -/

theorem attempt_deliver (s : HostConnect M C P Q) (n : Nat) :
    (s.step env (.deliver n)).attempt = s.attempt := by
  simp only [step]
  split <;> rfl

/-- An answer that promises the url makes the connection. -/
theorem owns_of_promise (h : s.Coherent env) {a : Attempt P Q} (ha : s.attempt = some a)
    (hnone : s.client.clientOf env.id = none) {n : Nat} {next : AfterRefresh}
    {answer : ProviderAnswer} (hn : s.pending n = some (.listHosts next, .settled answer))
    (hpromises : Promises env (bridgeUrl a.port) (.listHosts next, .settled answer)) :
    (s.step env (.deliver n)).ownsBridge env = true := by
  have hdelivery := delivery h hn
  refine (owns_iff ((attempt_deliver s n).trans ha)).mpr ?_
  simp only [step, hn]
  generalize s.client.step env.type (.answer n answer) = client at hdelivery ⊢
  cases hdelivery with
  | quiet hclient hosts l hawaits hl hp => exact absurd hpromises (hp hnone _)
  | returned hclient hosts aw hawaits haw hp hm hlist => exact absurd rfl (hlist next)
  | made url hnone' hclient hurl hosts l hawaits hl hp hm hlist =>
    exact (owns_advance_of_made h _ hclient hurl hosts a).mpr ((hp _).mp hpromises).symm

/-- The hosts are listed, and the answer arrives. -/
theorem owns_of_listing (h : s.Coherent env) {a : Attempt P Q} (ha : s.attempt = some a)
    (hstage : a.stage = .listening) (hnone : s.client.clientOf env.id = none) {n : Nat}
    {next : AfterRefresh} (hn : s.pending n = some (.listHosts next, .called))
    (hconnected : (Await.listHosts next).Connected env.id) :
    ((s.step env (.invoke n 0 [] [])).step env (.deliver n)).ownsBridge env = true := by
  have hstate := (h.unreached ha (.inr hstage) (not_owns_of_none hnone)).2.2
  have hstep : s.step env (.invoke n 0 [] []) =
      s.setCall n (.settled (.resolved (s.listed env [] []))) := by
    simp only [step, hn, invoke]
  have hn' : (s.setCall n (.settled (.resolved (s.listed env [] [])))).pending n =
      some (.listHosts next, .settled (.resolved (s.listed env [] []))) := by
    obtain ⟨haw, hc⟩ := List.getElem?_zip_eq_some.mp hn
    refine List.getElem?_zip_eq_some.mpr ⟨haw, ?_⟩
    exact List.getElem?_set_self (List.getElem?_eq_some_iff.mp hc).1
  have hcoherent := coherent_step h (.invoke n 0 [] [])
  rw [hstep] at hcoherent ⊢
  exact owns_of_promise hcoherent ha hnone hn'
    ((promises_listed ha hstate next [] []).mpr hconnected)

/-- The poll of a `connectHost` has returned: it goes on to list the hosts. -/
theorem listing_of_returned (h : s.Coherent env) (hnone : s.client.clientOf env.id = none)
    {n : Nat} {priorState : HostConnectionState} {next : AfterConnect}
    {hosts : List NativeHostDescriptor}
    (hn : s.pending n = some (.connectHost env.id priorState next, .settled (.resolved hosts))) :
    (s.step env (.deliver n)).client.clientOf env.id = none ∧
      ∃ m next', (s.step env (.deliver n)).pending m = some (.listHosts next', .called) ∧
        (Await.listHosts next').Connected env.id := by
  have hcalls := h.length_eraseIdx n
  have hdelivery := delivery h hn
  simp only [step, hn]
  generalize s.client.step env.type (.answer n (.resolved hosts)) = client at hdelivery ⊢
  cases hdelivery with
  | quiet hclient hosts l hawaits hl hp => exact absurd rfl (hp hnone "")
  | returned hclient hosts aw hawaits haw hp hm hlist =>
    refine ⟨hclient.trans hnone, ?_⟩
    have hmem : (aw, CallState.called) ∈ (s.advance client (s.calls.eraseIdx n)).pairs := by
      rw [pairs_advance hawaits hcalls]
      simp
    obtain ⟨m, hm⟩ := List.mem_iff_getElem?.mp hmem
    cases aw with
    | listHosts next' => exact ⟨m, next', hm, haw⟩
    | _ => exact haw.elim
  | made url hnone hclient hurl hosts l hawaits hl hp hm hlist =>
    obtain ⟨next', hnext⟩ := hlist
    cases hnext

/-- **The client can connect to a bridge by which it is served.** -/
theorem canConnect_of_served (h : s.Coherent env) {a : Attempt P Q} (ha : s.attempt = some a)
    (hstage : a.stage = .listening) (hserved : s.Served env a) : s.CanConnect env := by
  rcases hserved with howns | ⟨hnone, ⟨aw, c⟩, hp, hpromises⟩
  · exact ⟨[], fun act hact => absurd hact List.not_mem_nil, (owns_iff ha).mpr howns⟩
  obtain ⟨n, hn⟩ := List.mem_iff_getElem?.mp hp
  cases c with
  | called =>
    cases aw with
    | listHosts next =>
      exact ⟨[.invoke n 0 [] [], .deliver n], by simp,
        owns_of_listing h ha hstage hnone hn hpromises⟩
    | _ => exact hpromises.elim
  | polling => exact absurd hpromises not_promises_polling
  | settled answer =>
    cases answer with
    | rejected failure => exact absurd hpromises not_promises_rejected
    | resolved hosts =>
      cases aw with
      | listHosts next =>
        exact ⟨[.deliver n], by simp, owns_of_promise h ha hnone hn hpromises⟩
      | connectHost id priorState next =>
        obtain rfl : id = env.id := hpromises
        obtain ⟨hnone', m, next', hm, hconnected⟩ := listing_of_returned h hnone hn
        exact ⟨[.deliver n, .invoke m 0 [] [], .deliver m], by simp,
          owns_of_listing (coherent_step h _) ((attempt_deliver s n).trans ha) hstage hnone' hm
            hconnected⟩
      | _ =>
        obtain ⟨d, -, -, hmakes, -⟩ := hpromises
        exact hmakes.elim

/-! ### Runs -/

/-- A bridge that listens is served. -/
def Led (env : HostSetup M) (s : HostConnect M C P Q) : Prop :=
  s.Coherent env ∧ ∀ a, s.attempt = some a → a.stage = .listening → s.Served env a

theorem Led.noCircularWait (h : s.Led env) : s.NoCircularWait env where
  canConnect a ha := canConnect_of_served h.1 ha.1 ha.2.1 (h.2 a ha.1 ha.2.1)
  connected hsettled a ha := by
    have howns : s.Owns env a := by
      rcases h.2 a ha.1 ha.2.1 with howns | ⟨-, ⟨aw, c⟩, hp, hpromises⟩
      · exact howns
      · rw [hsettled.1 c (List.of_mem_zip hp).2] at hpromises
        exact absurd hpromises not_promises_polling
    exact ⟨howns, hsettled.2 a ha.1 howns⟩

/-- A step after which no wait is circular leads. -/
theorem Led.leads (h : s.Led env) {act : ConnectAction M C P Q}
    (hwait : (s.step env act).NoCircularWait env) : s.Leads env act := by
  have hcoherent := coherent_step h.1 act
  unfold Leads
  split
  · intro a ha hstage
    by_contra hnot
    have hstep : (s.step env (.attempt (.bind true))).attempt =
        some { a with stage := .listening } := by
      simp [step, ha, Attempt.step, hstage]
    have howns : ¬ s.Owns env a := fun howns => hnot (.inl howns)
    have hstate := (h.1.unreached ha (.inl hstage) howns).2.2
    refine not_canConnect hcoherent hstep rfl hnot (hwait.canConnect _ ⟨hstep, rfl, ?_⟩)
    rw [show ({ a with stage := .listening } : Attempt P Q).state = a.state from rfl, hstate]
    rfl
  · next n =>
    rintro a p hlistens hnone hn hmisleads
    have ha : (s.step env (.deliver n)).attempt = some a := (attempt_deliver s n).trans hlistens.1
    refine not_canConnect hcoherent ha hlistens.2.1 ?_
      (hwait.canConnect a ⟨ha, hlistens.2.1, hlistens.2.2⟩)
    obtain ⟨aw, c⟩ := p
    cases c with
    | settled answer =>
      simp only [step, hn]
      exact not_served_deliver h.1 hn (delivery h.1 hn) (.inr ⟨hnone, hmisleads⟩)
    | _ => exact hmisleads.elim
  · trivial

end Calls

theorem coherent_new : ({} : HostConnect M C P Q).Coherent env := by
  refine ⟨rfl, rfl, fun k hk => ?_, fun next answer hp => ?_, fun a hp => ?_, fun a ha => ?_,
    fun a ha => ?_⟩
  · cases hk
  · cases hp
  · cases hp
  · cases ha
  · cases ha

/-- **No wait is circular in a run exactly when, whenever the bridge comes to listen, the
client owns its `WsClient` or one of its calls is going to make it, and while it listens to
nobody no connection is made to another bridge.** -/
theorem noCircularWait_iff (acts : List (ConnectAction M C P Q)) :
    (∀ pre, pre <+: acts →
      (pre.foldl (step env) ({} : HostConnect M C P Q)).NoCircularWait env) ↔
        Along (step env) (Leads env) ({} : HostConnect M C P Q) acts := by
  refine (along_iff_forall_part_of (I := Led env) ?_ ?_ ?_ ?_ acts).symm
  · intro s act h hleads
    exact ⟨coherent_step h.1 act, served_step h.1 h.2 hleads⟩
  · intro s h
    exact h.noCircularWait
  · intro s act h hwait
    exact h.leads hwait
  · exact ⟨coherent_new env, fun a ha => by cases ha⟩

/-- A plain host in the user's list. -/
def plainBox : HostSetup String :=
  { id := "box", target := .host, redactDetail := id, type := id }

/-- The user selects the host; the attempt's preflight and provisioning succeed, its bridge
listens, and the client polls. -/
def boxSelected : List (ConnectAction String String Nat Nat) :=
  [.client .init, .invoke 0 0 [] [], .deliver 0, .client (.selectHost "box"),
    .invoke 1 4000 [] [], .attempt .connect, .attempt .provision,
    .attempt (.reconciled (.ok ())), .attempt (.bind true), .poll 1]

/-- **The client of a plain host waits for `ready`, which only its own connection brings
about.** -/
theorem not_noCircularWait : ¬ (boxSelected.foldl (step plainBox) {}).NoCircularWait plainBox := by
  intro h
  have hcoherent : (boxSelected.foldl (step plainBox) {}).Coherent plainBox :=
    foldl_invariant (I := Coherent plainBox) (fun _ act hs => coherent_step hs act)
      (coherent_new plainBox) boxSelected
  have hlistens : (boxSelected.foldl (step plainBox) {}).Listens
      { target := .host, port := 4000, stage := .listening, state := .starting,
        published := true } := ⟨rfl, rfl, rfl⟩
  refine not_canConnect hcoherent hlistens.1 rfl ?_ (h.canConnect _ hlistens)
  rintro (⟨k, hk, -⟩ | ⟨-, p, hp, hpromises⟩)
  · have hnone : (boxSelected.foldl (step plainBox) {}).client.clientOf "box" = none := rfl
    rw [show plainBox.id = "box" from rfl, hnone] at hk
    cases hk
  · have hpairs : (boxSelected.foldl (step plainBox) {}).pairs =
        [(.listProfiles, .called), (.connectHost "box" .disconnected (.switch "box"), .polling)] :=
      rfl
    rw [hpairs] at hp
    rcases List.mem_cons.mp hp with rfl | hp
    · exact hpromises
    · rw [List.mem_singleton.mp hp] at hpromises
      exact hpromises

/-- A Docker host whose poll returns in preflight; its bridge listens before the hosts are
listed. -/
def dockerSelected : List (ConnectAction String String Nat Nat) :=
  [.client .init, .invoke 0 0 [] [], .deliver 0, .client (.selectHost "box"),
    .invoke 1 4000 [] [], .attempt .phase, .poll 1, .deliver 1] ++
  List.replicate 4 (.attempt .phase) ++
  [.attempt (.preflighted .ready), .attempt .connect, .attempt .provision,
    .attempt (.reconciled (.ok ())), .attempt (.bind true), .invoke 1 0 [] [], .deliver 1]

example : ownsBridge { plainBox with target := .dockerContainer }
    (dockerSelected.foldl (step { plainBox with target := .dockerContainer }) {}) = true := by
  decide

end HostConnect
end Pantoken
