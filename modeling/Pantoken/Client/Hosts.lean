import Pantoken.Lib.PMap
import Pantoken.Lib.Run

/-!
# The host coordinator

The desktop client knows several computers.  The coordinator owns one connection for each
remote host it connected, keeps the host the user selected, and is the boundary between
the connections and the visible store.  The store has a connection of its own besides, the
compatibility singleton, which is the one of the local host.

A call of the coordinator runs up to its next `await`; what it does when the provider
answers is kept in `awaits`, and the answers come in any order.

## Main definitions

* `HostCoordinator` — the coordinator, the connections, and what was routed so far.
* `HostCoordinator.step` — one call, answer of the provider, message or command.
* `HostCoordinator.Isolated` — whatever the store processed came from the host selected
  then, and whatever it sent went there.
* `HostCoordinator.KeepsApart` — the store hears and uses its own connection only while the
  local host is selected.

## Main results

* `owned_run` — a connection and a cached message belong to the host they are kept for.
* `isolated_iff` — **a run is isolated exactly when its steps keep the hosts apart**.
* `local_message_folded_into_remote` — a local message is processed under a remote host.
-/

namespace Pantoken

/-! ### Hosts -/

inductive HostConnectionState
  | disconnected | testingSsh | preflight | awaitingAcknowledgement | connecting | provisioning
  | starting | ready | reconnecting | failed
  deriving DecidableEq, Repr

/-- Why a host could not be connected, for the summary. -/
structure HostFailure where
  failureLabel : Option String := none
  failureAction : Option String := none
  failureDetail : Option String := none
  deriving DecidableEq, Repr

structure NativeHostDescriptor where
  id : String
  state : HostConnectionState
  wsUrl : Option String := none
  failure : HostFailure := {}
  deriving DecidableEq, Repr

/-- A server message with the host whose connection it came in on. -/
structure Delivered (M : Type*) where
  origin : String
  msg : M
  deriving DecidableEq, Repr

structure HostEntry (M : Type*) where
  descriptor : NativeHostDescriptor
  client : Option Nat := none
  cachedBootstrap : PMap String (Delivered M) := PMap.empty

/-- `BOOTSTRAP_TYPES`. -/
def bootstrapTypes : List String :=
  ["hello", "sessionList", "sessionStatus", "seed", "modelList", "modelDefaults", "commandList",
    "facetList", "fileIndex", "atRefs", "jobsList"]

/-- The order in which `orderBootstrapMessages` replays them. -/
def bootstrapOrder : List String :=
  ["hello", "sessionList", "sessionStatus", "modelList", "modelDefaults", "commandList",
    "facetList", "fileIndex", "atRefs", "jobsList", "seed"]

/-- `NON_TERMINAL_CONNECT_STATES`. -/
def nonTerminalConnectStates : List HostConnectionState := [.preflight, .awaitingAcknowledgement]

/-- `CONNECTING_STATES`. -/
def connectingStates : List HostConnectionState :=
  [.testingSsh, .connecting, .provisioning, .starting, .preflight, .awaitingAcknowledgement]

/-- A connection the coordinator made: its host, whether it is open, and whether the
coordinator still listens to it. -/
structure HostClient where
  host : String
  isOpen : Bool := false
  listening : Bool := true
  deriving DecidableEq, Repr

/-- What a call does once the host is connected: nothing, the rest of `selectHost`, or the
`selectHost` of `reconnectHost`. -/
inductive AfterConnect
  | done
  | switch (id : String)
  | select (id : String)
  deriving DecidableEq, Repr

/-- What a call does once the hosts are refreshed. -/
inductive AfterRefresh
  | done
  | connected (id : String) (priorState : HostConnectionState) (next : AfterConnect)
  | disconnected (id : String) (reconnect : Bool)
  | resumed (id : String)
  | initialised
  deriving DecidableEq, Repr

/-- An answer of the provider a call waits for. -/
inductive Await
  | connectHost (id : String) (priorState : HostConnectionState) (next : AfterConnect)
  | disconnectHost (id : String) (reconnect : Bool)
  | resumeConnection (id : String)
  | deleteProfile
  | listHosts (next : AfterRefresh)
  | listProfiles
  deriving DecidableEq, Repr

/-- The provider resolves, with the hosts where it was asked for them, or rejects. -/
inductive ProviderAnswer
  | resolved (hosts : List NativeHostDescriptor)
  | rejected (failure : HostFailure)
  deriving DecidableEq, Repr

/-- A message the store processed, and the host selected then. -/
structure Folded (M : Type*) where
  selected : Option String
  delivered : Delivered M
  deriving DecidableEq, Repr

/-- What was sent to a server: the store's commands, and the seed the coordinator asks
for. -/
inductive Command (C : Type*)
  | store (cmd : C)
  | requestSeed
  deriving DecidableEq, Repr

/-- A command, the host selected when it was sent, and the host whose connection it went to. -/
structure Routed (C : Type*) where
  selected : Option String
  connection : String
  command : Command C
  deriving DecidableEq, Repr

/-- The coordinator, with the connections, the calls under way, and what the store processed
and sent. -/
structure HostCoordinator (M C : Type*) where
  hosts : List NativeHostDescriptor := []
  hostState : PMap String (HostEntry M) := PMap.empty
  selectedHostId : Option String := none
  clients : List HostClient := []
  /-- whether the store's own connection is open -/
  singletonOpen : Bool := false
  /-- whether `store.start()` ran, so that the store listens to its own connection -/
  storeStarted : Bool := false
  awaits : List Await := []
  folded : List (Folded M) := []
  commands : List (Routed C) := []

namespace HostCoordinator

variable {M C : Type*}

def setEntry (s : HostCoordinator M C) (id : String) (entry : HostEntry M) : HostCoordinator M C :=
  { s with hostState := s.hostState.insert id entry }

@[simp] theorem setEntry_self (s : HostCoordinator M C) (id : String) (entry : HostEntry M) :
    (s.setEntry id entry).hostState id = some entry := PMap.insert_self _ _ _

@[simp] theorem setEntry_of_ne (s : HostCoordinator M C) {id id' : String} (entry : HostEntry M)
    (h : id' ≠ id) : (s.setEntry id entry).hostState id' = s.hostState id' :=
  PMap.insert_of_ne _ _ h

def setDescriptor (s : HostCoordinator M C) (id : String) (f : NativeHostDescriptor →
    NativeHostDescriptor) : HostCoordinator M C :=
  match s.hostState id with
  | none => s
  | some entry => s.setEntry id { entry with descriptor := f entry.descriptor }

def await (s : HostCoordinator M C) (a : Await) : HostCoordinator M C :=
  { s with awaits := s.awaits ++ [a] }

/-- `store.onServer(msg)`. -/
def onServer (s : HostCoordinator M C) (d : Delivered M) : HostCoordinator M C :=
  { s with folded := s.folded ++ [⟨s.selectedHostId, d⟩] }

/-- `store.hydrateFromBootstrap(messages)`. -/
def hydrateFromBootstrap (s : HostCoordinator M C) (messages : List (Delivered M)) :
    HostCoordinator M C := messages.foldl onServer s

def orderBootstrapMessages (cache : PMap String (Delivered M)) : List (Delivered M) :=
  bootstrapOrder.filterMap cache

/-- `entry.client.send(..)`, which a connection that is not open refuses. -/
def clientSend (s : HostCoordinator M C) (client : Nat) (command : Command C) :
    HostCoordinator M C :=
  match s.clients[client]? with
  | none => s
  | some c =>
    if c.isOpen then
      { s with commands := s.commands ++ [⟨s.selectedHostId, c.host, command⟩] }
    else s

/-! ### The calls -/

/-- A host the provider listed is added, or has its descriptor updated. -/
def putDescriptor (s : HostCoordinator M C) (desc : NativeHostDescriptor) : HostCoordinator M C :=
  match s.hostState desc.id with
  | none => s.setEntry desc.id { descriptor := desc }
  | some entry => s.setEntry desc.id { entry with descriptor := desc }

/-- `refreshHosts`, once the provider listed the hosts. -/
def refreshed (s : HostCoordinator M C) (descriptors : List NativeHostDescriptor) :
    HostCoordinator M C := descriptors.foldl putDescriptor { s with hosts := descriptors }

def ensureWsClient (s : HostCoordinator M C) (id : String) : HostCoordinator M C :=
  match s.hostState id with
  | none => s
  | some entry =>
    if entry.client.isSome = true ∨ entry.descriptor.wsUrl = none then s
    else
      { s.setEntry id { entry with client := some s.clients.length } with
        clients := s.clients ++ [{ host := id }] }

/-- The part of `connectHost` before its first `await`, for a host without a connection. -/
def startConnect (s : HostCoordinator M C) (id : String) (next : AfterConnect) :
    HostCoordinator M C :=
  match s.hostState id with
  | none => s
  | some entry =>
    (s.setDescriptor id ({ · with state := .connecting })).await
      (.connectHost id entry.descriptor.state next)

/-- The part of `selectHost` that switches the visible store. -/
def switchTo (s : HostCoordinator M C) (id : String) : HostCoordinator M C :=
  match s.hostState id with
  | none => s
  | some entry =>
    let s := { s with selectedHostId := some id }
    let s := s.hydrateFromBootstrap (orderBootstrapMessages entry.cachedBootstrap)
    match entry.client with
    | none => s
    | some client => s.clientSend client .requestSeed

def selectHost (s : HostCoordinator M C) (id : String) : HostCoordinator M C :=
  match s.hostState id with
  | none => s
  | some entry =>
    if id ≠ "local" ∧ entry.client = none then s.startConnect id (.switch id) else s.switchTo id

/-- What runs after a `connectHost` that returned ok. -/
def afterConnect (s : HostCoordinator M C) : AfterConnect → HostCoordinator M C
  | .done => s
  | .switch id => s.switchTo id
  | .select id => s.selectHost id

def connectHost (s : HostCoordinator M C) (id : String) (next : AfterConnect) :
    HostCoordinator M C :=
  match s.hostState id with
  | none => s
  | some entry =>
    if entry.client.isSome then s.afterConnect next else s.startConnect id next

def disconnectHost (s : HostCoordinator M C) (id : String) (reconnect : Bool) :
    HostCoordinator M C :=
  match s.hostState id with
  | none => if reconnect then s.connectHost id (.select id) else s
  | some entry =>
    let s := match entry.client with
      | none => s
      | some client =>
        { s with clients := s.clients.modify client ({ · with listening := false }) }
    (s.setEntry id { entry with client := none }).await (.disconnectHost id reconnect)

/-- The provider rejected the connection: the failure it reported with the hosts stays, and
an intermediate state is kept. -/
def connectRejected (s : HostCoordinator M C) (id : String) (priorState : HostConnectionState)
    (failure : HostFailure) : HostCoordinator M C :=
  let failure := { failure with
    failureLabel := some (failure.failureLabel.getD "Connection failed") }
  s.setDescriptor id fun current =>
    if current.state = .failed then current
    else if current.state ∈ connectingStates then { current with failure }
    else { current with state := priorState, failure }

/-- The rest of `connectHost`, once the hosts are refreshed. -/
def connected (s : HostCoordinator M C) (id : String) (priorState : HostConnectionState)
    (next : AfterConnect) : HostCoordinator M C :=
  match s.hostState id with
  | none => s
  | some updated =>
    if updated.descriptor.state ∈ nonTerminalConnectStates then s.afterConnect next
    else if updated.descriptor.wsUrl = none then
      s.setDescriptor id fun d => { d with
        state := priorState
        failure := { updated.descriptor.failure with
          failureLabel := some (updated.descriptor.failure.failureLabel.getD
            "Computer did not provide a connection") } }
    else (s.ensureWsClient id).afterConnect next

/-- The rest of `resumeConnection`, once the hosts are refreshed. -/
def resumed (s : HostCoordinator M C) (id : String) : HostCoordinator M C :=
  match s.hostState id with
  | none => s
  | some entry => if entry.descriptor.state = .ready then s.ensureWsClient id else s

/-- The rest of `init`, and the `store.start()` that waits for it. -/
def started (s : HostCoordinator M C) : HostCoordinator M C :=
  let s := if s.hosts.any (·.id = "local") then s.selectHost "local" else s
  { s with storeStarted := true }

def afterRefresh (s : HostCoordinator M C) : AfterRefresh → HostCoordinator M C
  | .done => s
  | .connected id priorState next => s.connected id priorState next
  | .disconnected id reconnect => if reconnect then s.connectHost id (.select id) else s
  | .resumed id => s.resumed id
  | .initialised => s.await .listProfiles

/-- The provider answers.  A rejection that nothing catches ends the call. -/
def answered (s : HostCoordinator M C) : Await → ProviderAnswer → HostCoordinator M C
  | .connectHost id priorState next, .resolved _ =>
    s.await (.listHosts (.connected id priorState next))
  | .connectHost id priorState _, .rejected failure => s.connectRejected id priorState failure
  | .disconnectHost id reconnect, .resolved _ =>
    s.await (.listHosts (.disconnected id reconnect))
  | .resumeConnection id, .resolved _ => s.await (.listHosts (.resumed id))
  | .deleteProfile, .resolved _ => s.await (.listHosts .done)
  | .listHosts next, .resolved descriptors => (s.refreshed descriptors).afterRefresh next
  | .listProfiles, .resolved _ => s.started
  | _, .rejected _ => s

/-! ### Messages -/

section Messages

variable (type : M → String)

def cacheBootstrapMessage (s : HostCoordinator M C) (id : String) (d : Delivered M) :
    HostCoordinator M C :=
  match s.hostState id with
  | none => s
  | some entry =>
    if type d.msg ∈ bootstrapTypes then
      s.setEntry id
        { entry with cachedBootstrap := entry.cachedBootstrap.insert (type d.msg) d }
    else s

/-- A message of the store's own connection goes to the coordinator, which only keeps it,
and then to the store. -/
def onLocalMessage (s : HostCoordinator M C) (msg : M) : HostCoordinator M C :=
  let s := s.cacheBootstrapMessage type "local" ⟨"local", msg⟩
  if s.storeStarted then s.onServer ⟨"local", msg⟩ else s

def onHostMessage (s : HostCoordinator M C) (hostId : String) (msg : M) : HostCoordinator M C :=
  match s.hostState hostId with
  | none => s
  | some _ =>
    let s := s.cacheBootstrapMessage type hostId ⟨hostId, msg⟩
    if s.selectedHostId = some hostId then s.onServer ⟨hostId, msg⟩ else s

end Messages

/-! ### Steps -/

/-- A call, an answer to the call that waits at a position, a message, or a command. -/
inductive Action (M C : Type*)
  | init
  | refreshHosts
  | selectHost (id : String)
  | connectHost (id : String)
  | disconnectHost (id : String)
  | reconnectHost (id : String)
  | resumeConnection (id : String)
  | deleteProfile (id : String)
  | answer (n : Nat) (answer : ProviderAnswer)
  | clientOpen (client : Nat) (isOpen : Bool)
  | clientMessage (client : Nat) (msg : M)
  | receiveHostMessage (id : String) (msg : M)
  | singletonOpen (isOpen : Bool)
  | localMessage (msg : M)
  | send (cmd : C)
  deriving DecidableEq, Repr

/-- `send(..)` of the store goes to its own connection. -/
def send (s : HostCoordinator M C) (cmd : C) : HostCoordinator M C :=
  if s.singletonOpen then
    { s with commands := s.commands ++ [⟨s.selectedHostId, "local", .store cmd⟩] }
  else s

def step (type : M → String) (s : HostCoordinator M C) : Action M C → HostCoordinator M C
  | .init => s.await (.listHosts .initialised)
  | .refreshHosts => s.await (.listHosts .done)
  | .selectHost id => s.selectHost id
  | .connectHost id => s.connectHost id .done
  | .disconnectHost id => s.disconnectHost id false
  | .reconnectHost id => s.disconnectHost id true
  | .resumeConnection id => s.await (.resumeConnection id)
  | .deleteProfile id =>
    (if s.selectedHostId = some id then s.selectHost "local" else s).await .deleteProfile
  | .answer n answer =>
    match s.awaits[n]? with
    | none => s
    | some a => answered { s with awaits := s.awaits.eraseIdx n } a answer
  | .clientOpen client isOpen => { s with clients := s.clients.modify client ({ · with isOpen }) }
  | .clientMessage client msg =>
    match s.clients[client]? with
    | none => s
    | some c => if c.listening then s.onHostMessage type c.host msg else s
  | .receiveHostMessage id msg => s.onHostMessage type id msg
  | .singletonOpen singletonOpen => { s with singletonOpen }
  | .localMessage msg => s.onLocalMessage type msg
  | .send cmd => s.send cmd

/-! ### Isolation -/

/-- What the store processed came from the host selected then, and what was sent went to
it. -/
def Isolated (s : HostCoordinator M C) : Prop :=
  (∀ f ∈ s.folded, f.selected = some f.delivered.origin) ∧
  ∀ r ∈ s.commands, r.selected = some r.connection

/-- The store's own connection speaks and is spoken to only while the local host is
selected. -/
def KeepsApart (s : HostCoordinator M C) : Action M C → Prop
  | .localMessage _ => s.storeStarted = true → s.selectedHostId = some "local"
  | .send _ => s.singletonOpen = true → s.selectedHostId = some "local"
  | _ => True

/-! ### What belongs to a host -/

/-- The connection and the cached messages of a host are its own. -/
structure Owned (s : HostCoordinator M C) : Prop where
  client : ∀ (id : String) (entry : HostEntry M) (client : Nat), s.hostState id = some entry →
    entry.client = some client → ∃ c, s.clients[client]? = some c ∧ c.host = id
  cached : ∀ (id : String) (entry : HostEntry M) (t : String) (d : Delivered M),
    s.hostState id = some entry → entry.cachedBootstrap t = some d → d.origin = id

/-- `s'` comes from `s` by routing nothing to the wrong host. -/
structure Routes (s s' : HostCoordinator M C) : Prop where
  owned : s.Owned → s'.Owned
  isolated : s.Owned → (s'.Isolated ↔ s.Isolated)

section Routes

variable {s s' s'' : HostCoordinator M C} {id : String}

theorem Routes.refl (s : HostCoordinator M C) : Routes s s := ⟨fun h => h, fun _ => Iff.rfl⟩

theorem Routes.trans (h : Routes s s') (h' : Routes s' s'') : Routes s s'' :=
  ⟨fun ho => h'.owned (h.owned ho),
    fun ho => (h'.isolated (h.owned ho)).trans (h.isolated ho)⟩

/-- A step that routes nothing and keeps hosts and connections. -/
theorem Routes.of_eq (hstate : s'.hostState = s.hostState) (hclients : s'.clients = s.clients)
    (hfolded : s'.folded = s.folded) (hcommands : s'.commands = s.commands) : Routes s s' where
  owned h := by
    constructor
    · rw [hstate, hclients]
      exact h.client
    · rw [hstate]
      exact h.cached
  isolated _ := by rw [Isolated, Isolated, hfolded, hcommands]

/-- The entry of a host may change in what no other host is concerned with. -/
theorem Routes.setEntry (entry : HostEntry M)
    (hclient : s.Owned → ∀ client, entry.client = some client →
      ∃ c, s.clients[client]? = some c ∧ c.host = id)
    (hcached : s.Owned → ∀ t d, entry.cachedBootstrap t = some d → d.origin = id) :
    Routes s (s.setEntry id entry) where
  owned h := by
    constructor
    · intro id' entry' client he hc
      by_cases hid : id' = id
      · subst hid
        rw [setEntry_self, Option.some.injEq] at he
        exact hclient h client (he ▸ hc)
      · rw [setEntry_of_ne _ _ hid] at he
        exact h.client id' entry' client he hc
    · intro id' entry' t d he hd
      by_cases hid : id' = id
      · subst hid
        rw [setEntry_self, Option.some.injEq] at he
        exact hcached h t d (he ▸ hd)
      · rw [setEntry_of_ne _ _ hid] at he
        exact h.cached id' entry' t d he hd
  isolated _ := Iff.rfl

/-- A new descriptor is of no concern to the routing. -/
theorem Routes.withDescriptor {entry : HostEntry M} (he : s.hostState id = some entry)
    (descriptor : NativeHostDescriptor) :
    Routes s (s.setEntry id { entry with descriptor }) := by
  apply Routes.setEntry
  · intro h client hc
    exact h.client id entry client he hc
  · intro h t d hd
    exact h.cached id entry t d he hd

theorem routes_setDescriptor (f : NativeHostDescriptor → NativeHostDescriptor) :
    Routes s (s.setDescriptor id f) := by
  unfold setDescriptor
  split
  · exact Routes.refl s
  · rename_i entry he
    exact Routes.withDescriptor he _

theorem routes_await (a : Await) : Routes s (s.await a) := Routes.of_eq rfl rfl rfl rfl

theorem routes_putDescriptor (desc : NativeHostDescriptor) : Routes s (s.putDescriptor desc) := by
  unfold putDescriptor
  split
  · apply Routes.setEntry
    · intro _ client hc
      cases hc
    · intro _ t d hd
      cases hd
  · rename_i entry he
    exact Routes.withDescriptor he _

theorem routes_refreshed (descriptors : List NativeHostDescriptor) :
    Routes s (s.refreshed descriptors) := by
  have hall : ∀ (ds : List NativeHostDescriptor) (s₀ : HostCoordinator M C),
      Routes s₀ (ds.foldl putDescriptor s₀) := by
    intro ds
    induction ds with
    | nil => exact Routes.refl
    | cons desc rest ih =>
      intro s₀
      rw [List.foldl_cons]
      exact (routes_putDescriptor desc).trans (ih _)
  have hlist : Routes s { s with hosts := descriptors } := Routes.of_eq rfl rfl rfl rfl
  exact hlist.trans (hall descriptors _)

theorem routes_ensureWsClient : Routes s (s.ensureWsClient id) := by
  unfold ensureWsClient
  split
  · exact Routes.refl s
  · rename_i entry he
    split
    · exact Routes.refl s
    · refine ⟨?_, fun _ => Iff.rfl⟩
      intro h
      have hnew : (s.clients ++ [({ host := id } : HostClient)])[s.clients.length]? =
          some { host := id } := by simp
      constructor
      · intro id' entry' client he' hc
        by_cases hid : id' = id
        · subst hid
          simp only [setEntry_self, Option.some.injEq] at he'
          obtain rfl : s.clients.length = client := by
            rw [← he'] at hc
            exact Option.some.inj hc
          exact ⟨_, hnew, rfl⟩
        · simp only [setEntry_of_ne _ _ hid] at he'
          obtain ⟨c, hget, hhost⟩ := h.client id' entry' client he' hc
          refine ⟨c, ?_, hhost⟩
          have hlt : client < s.clients.length := (List.getElem?_eq_some_iff.mp hget).1
          dsimp only
          rw [List.getElem?_append_left hlt, hget]
      · intro id' entry' t d he' hd
        by_cases hid : id' = id
        · subst hid
          simp only [setEntry_self, Option.some.injEq] at he'
          rw [← he'] at hd
          exact h.cached id' entry t d he hd
        · simp only [setEntry_of_ne _ _ hid] at he'
          exact h.cached id' entry' t d he' hd

theorem routes_startConnect (next : AfterConnect) : Routes s (s.startConnect id next) := by
  unfold startConnect
  split
  · exact Routes.refl s
  · exact (routes_setDescriptor _).trans (routes_await _)

/-! ### What is routed -/

/-- What a message of a host adds to the store's record. -/
theorem isolated_onServer (d : Delivered M) :
    (s.onServer d).Isolated ↔ s.Isolated ∧ s.selectedHostId = some d.origin := by
  unfold Isolated onServer
  simp only [List.forall_mem_append, List.forall_mem_singleton]
  tauto

theorem Routes.onServer {d : Delivered M} (hd : s.Owned → s.selectedHostId = some d.origin) :
    Routes s (s.onServer d) where
  owned h := ⟨h.client, h.cached⟩
  isolated h := (isolated_onServer d).trans (and_iff_left (hd h))

/-- A command to the connection of the selected host. -/
theorem routes_clientSend {client : Nat} (command : Command C)
    (hc : s.Owned → ∀ c, s.clients[client]? = some c → s.selectedHostId = some c.host) :
    Routes s (s.clientSend client command) := by
  unfold clientSend
  split
  · exact Routes.refl s
  · rename_i c hget
    split
    · refine ⟨fun h => ⟨h.client, h.cached⟩, fun h => ?_⟩
      unfold Isolated
      simp only [List.forall_mem_append, List.forall_mem_singleton]
      rw [and_iff_left (hc h c hget)]
    · exact Routes.refl s

theorem hydrateFromBootstrap_eq (messages : List (Delivered M)) :
    s.hydrateFromBootstrap messages =
      { s with folded := s.folded ++ messages.map (⟨s.selectedHostId, ·⟩) } := by
  unfold hydrateFromBootstrap
  induction messages generalizing s with
  | nil => simp
  | cons d rest ih =>
    rw [List.foldl_cons, ih]
    simp [HostCoordinator.onServer]

/-- Cached messages of the selected host. -/
theorem routes_hydrateFromBootstrap {messages : List (Delivered M)}
    (hall : s.Owned → ∀ d ∈ messages, s.selectedHostId = some d.origin) :
    Routes s (s.hydrateFromBootstrap messages) := by
  unfold hydrateFromBootstrap
  induction messages generalizing s with
  | nil => exact Routes.refl s
  | cons d rest ih =>
    rw [List.foldl_cons]
    refine Routes.trans (Routes.onServer fun h => hall h d List.mem_cons_self) (ih ?_)
    intro h e he
    have hs : s.Owned := ⟨h.client, h.cached⟩
    exact hall hs e (List.mem_cons_of_mem _ he)

/-! ### The calls keep the routes -/

/-- The store is switched before it hears a message of the new host. -/
theorem routes_switchTo : Routes s (s.switchTo id) := by
  unfold switchTo
  split
  · exact Routes.refl s
  · rename_i entry he
    have hselect : Routes s { s with selectedHostId := some id } := Routes.of_eq rfl rfl rfl rfl
    have hhydrate : Routes { s with selectedHostId := some id }
        (hydrateFromBootstrap { s with selectedHostId := some id }
          (orderBootstrapMessages entry.cachedBootstrap)) := by
      apply routes_hydrateFromBootstrap
      intro h d hd
      obtain ⟨t, -, ht⟩ := List.mem_filterMap.mp hd
      rw [h.cached id entry t d he ht]
    dsimp only
    split
    · exact hselect.trans hhydrate
    · rename_i client hc
      refine (hselect.trans hhydrate).trans (routes_clientSend _ ?_)
      intro h c hget
      rw [hydrateFromBootstrap_eq] at h hget ⊢
      obtain ⟨c', hget', hhost⟩ := h.client id entry client he hc
      obtain rfl : c = c' := Option.some.inj (hget.symm.trans hget')
      rw [hhost]

theorem routes_selectHost : Routes s (s.selectHost id) := by
  unfold selectHost
  split
  · exact Routes.refl s
  · split
    · exact routes_startConnect _
    · exact routes_switchTo

theorem routes_afterConnect (next : AfterConnect) : Routes s (s.afterConnect next) := by
  cases next with
  | done => exact Routes.refl s
  | switch id => exact routes_switchTo
  | select id => exact routes_selectHost

theorem routes_connectHost (next : AfterConnect) : Routes s (s.connectHost id next) := by
  unfold connectHost
  split
  · exact Routes.refl s
  · split
    · exact routes_afterConnect next
    · exact routes_startConnect next

/-- A connection that is given up, or that opens, is still the one of its host. -/
theorem routes_modifyClient (client : Nat) (f : HostClient → HostClient)
    (hf : ∀ c, (f c).host = c.host) :
    Routes s { s with clients := s.clients.modify client f } := by
  refine ⟨fun h => ⟨?_, h.cached⟩, fun _ => Iff.rfl⟩
  intro id entry client' he hc
  obtain ⟨c, hget, hhost⟩ := h.client id entry client' he hc
  dsimp only
  rw [List.getElem?_modify, hget]
  refine ⟨_, rfl, ?_⟩
  split
  · exact (hf c).trans hhost
  · exact hhost

theorem routes_disconnectHost (reconnect : Bool) :
    Routes s (s.disconnectHost id reconnect) := by
  unfold disconnectHost
  split
  · split
    · exact routes_connectHost _
    · exact Routes.refl s
  · rename_i entry he
    have hdrop : ∀ s₀ : HostCoordinator M C, s₀.hostState id = some entry →
        Routes s₀ (s₀.setEntry id { entry with client := none }) := by
      intro s₀ he₀
      apply Routes.setEntry
      · intro _ client hc
        cases hc
      · intro h t d hd
        exact h.cached id entry t d he₀ hd
    dsimp only
    split
    · exact (hdrop s he).trans (routes_await _)
    · rename_i client _
      have hclose : Routes s { s with
          clients := s.clients.modify client ({ · with listening := false }) } :=
        routes_modifyClient client _ fun _ => rfl
      exact (hclose.trans (hdrop _ he)).trans (routes_await _)

theorem routes_connectRejected (priorState : HostConnectionState) (failure : HostFailure) :
    Routes s (s.connectRejected id priorState failure) := by
  unfold connectRejected
  exact routes_setDescriptor _

theorem routes_connected (priorState : HostConnectionState) (next : AfterConnect) :
    Routes s (s.connected id priorState next) := by
  unfold connected
  split
  · exact Routes.refl s
  · split
    · exact routes_afterConnect next
    · split
      · exact routes_setDescriptor _
      · exact routes_ensureWsClient.trans (routes_afterConnect next)

theorem routes_resumed : Routes s (s.resumed id) := by
  unfold resumed
  split
  · exact Routes.refl s
  · split
    · exact routes_ensureWsClient
    · exact Routes.refl s

theorem routes_started : Routes s s.started := by
  unfold started
  dsimp only
  have hstart : ∀ s₀ : HostCoordinator M C, Routes s₀ { s₀ with storeStarted := true } :=
    fun _ => Routes.of_eq rfl rfl rfl rfl
  split
  · exact routes_selectHost.trans (hstart _)
  · exact hstart s

theorem routes_afterRefresh (next : AfterRefresh) : Routes s (s.afterRefresh next) := by
  cases next with
  | done => exact Routes.refl s
  | connected id priorState next => exact routes_connected priorState next
  | disconnected id reconnect =>
    dsimp only [afterRefresh]
    split
    · exact routes_connectHost _
    · exact Routes.refl s
  | resumed id => exact routes_resumed
  | initialised => exact routes_await _

theorem routes_answered (a : Await) (answer : ProviderAnswer) :
    Routes s (s.answered a answer) := by
  cases answer with
  | resolved descriptors =>
    cases a with
    | connectHost id priorState next => exact routes_await _
    | disconnectHost id reconnect => exact routes_await _
    | resumeConnection id => exact routes_await _
    | deleteProfile => exact routes_await _
    | listHosts next => exact (routes_refreshed descriptors).trans (routes_afterRefresh next)
    | listProfiles => exact routes_started
  | rejected failure =>
    cases a with
    | connectHost id priorState next => exact routes_connectRejected priorState failure
    | disconnectHost id reconnect => exact Routes.refl s
    | resumeConnection id => exact Routes.refl s
    | deleteProfile => exact Routes.refl s
    | listHosts next => exact Routes.refl s
    | listProfiles => exact Routes.refl s

/-! ### Messages and commands -/

variable (type : M → String)

theorem routes_cacheBootstrapMessage (msg : M) :
    Routes s (s.cacheBootstrapMessage type id ⟨id, msg⟩) := by
  unfold cacheBootstrapMessage
  split
  · exact Routes.refl s
  · rename_i entry he
    split
    · apply Routes.setEntry
      · intro h client hc
        exact h.client id entry client he hc
      · intro h t d hd
        dsimp only at hd
        rw [PMap.insert_apply] at hd
        split at hd
        · rw [← Option.some.inj hd]
        · exact h.cached id entry t d he hd
    · exact Routes.refl s

theorem cacheBootstrapMessage_selectedHostId (d : Delivered M) :
    (s.cacheBootstrapMessage type id d).selectedHostId = s.selectedHostId := by
  unfold cacheBootstrapMessage
  split
  · rfl
  · split <;> rfl

/-- Only the selected host's messages go through the boundary. -/
theorem routes_onHostMessage (msg : M) : Routes s (s.onHostMessage type id msg) := by
  unfold onHostMessage
  split
  · exact Routes.refl s
  · dsimp only
    split
    · rename_i hsel
      exact (routes_cacheBootstrapMessage type msg).trans (Routes.onServer fun _ => hsel)
    · exact routes_cacheBootstrapMessage type msg

theorem Owned.onLocalMessage (h : s.Owned) (msg : M) : (s.onLocalMessage type msg).Owned := by
  unfold HostCoordinator.onLocalMessage
  have hcache : (s.cacheBootstrapMessage type "local" ⟨"local", msg⟩).Owned :=
    (routes_cacheBootstrapMessage type msg).owned h
  dsimp only
  split
  · exact ⟨hcache.client, hcache.cached⟩
  · exact hcache

/-- The store hears its own connection whichever host is selected. -/
theorem Owned.isolated_onLocalMessage (h : s.Owned) (msg : M) :
    (s.onLocalMessage type msg).Isolated ↔
      s.Isolated ∧ (s.storeStarted = true → s.selectedHostId = some "local") := by
  have hcache : Routes s (s.cacheBootstrapMessage type "local" ⟨"local", msg⟩) :=
    routes_cacheBootstrapMessage type msg
  have hstarted : (s.cacheBootstrapMessage type "local" ⟨"local", msg⟩).storeStarted =
      s.storeStarted := by
    unfold cacheBootstrapMessage
    split
    · rfl
    · split <;> rfl
  unfold HostCoordinator.onLocalMessage
  dsimp only
  rw [hstarted]
  split
  · rename_i hs
    rw [isolated_onServer, cacheBootstrapMessage_selectedHostId, hcache.isolated h]
    simp [hs]
  · rename_i hs
    rw [hcache.isolated h]
    simp [hs]

/-- The store's commands go to its own connection whichever host is selected. -/
theorem isolated_send (cmd : C) : (s.send cmd).Isolated ↔
    s.Isolated ∧ (s.singletonOpen = true → s.selectedHostId = some "local") := by
  unfold send
  split
  · rename_i hopen
    unfold Isolated
    simp only [List.forall_mem_append, List.forall_mem_singleton, hopen, true_implies]
    tauto
  · rename_i hopen
    simp [hopen]

/-! ### Steps and runs -/

/-- A step keeps what belongs to a host, and routes nothing wrong exactly when it keeps the
hosts apart. -/
theorem Owned.step (h : s.Owned) (a : Action M C) :
    (s.step type a).Owned ∧ ((s.step type a).Isolated ↔ s.Isolated ∧ s.KeepsApart a) := by
  have hroutes : ∀ s', Routes s s' → s'.Owned ∧ (s'.Isolated ↔ s.Isolated ∧ True) := by
    intro s' hr
    exact ⟨hr.owned h, (hr.isolated h).trans (iff_of_eq (and_true _)).symm⟩
  cases a with
  | init => exact hroutes _ (routes_await _)
  | refreshHosts => exact hroutes _ (routes_await _)
  | selectHost id => exact hroutes _ routes_selectHost
  | connectHost id => exact hroutes _ (routes_connectHost _)
  | disconnectHost id => exact hroutes _ (routes_disconnectHost _)
  | reconnectHost id => exact hroutes _ (routes_disconnectHost _)
  | resumeConnection id => exact hroutes _ (routes_await _)
  | deleteProfile id =>
    refine hroutes _ ?_
    dsimp only [HostCoordinator.step]
    split
    · exact routes_selectHost.trans (routes_await _)
    · exact routes_await _
  | answer n answer =>
    refine hroutes _ ?_
    dsimp only [HostCoordinator.step]
    split
    · exact Routes.refl s
    · rename_i a _
      have hpop : Routes s { s with awaits := s.awaits.eraseIdx n } := Routes.of_eq rfl rfl rfl rfl
      exact hpop.trans (routes_answered a answer)
  | clientOpen client isOpen =>
    exact hroutes _ (routes_modifyClient client _ fun _ => rfl)
  | clientMessage client msg =>
    refine hroutes _ ?_
    dsimp only [HostCoordinator.step]
    split
    · exact Routes.refl s
    · split
      · exact routes_onHostMessage type msg
      · exact Routes.refl s
  | receiveHostMessage id msg => exact hroutes _ (routes_onHostMessage type msg)
  | singletonOpen isOpen => exact hroutes _ (Routes.of_eq rfl rfl rfl rfl)
  | localMessage msg => exact ⟨h.onLocalMessage type msg, h.isolated_onLocalMessage type msg⟩
  | send cmd =>
    refine ⟨?_, isolated_send cmd⟩
    dsimp only [HostCoordinator.step, HostCoordinator.send]
    split
    · exact ⟨h.client, h.cached⟩
    · exact h

end Routes

section Runs

variable (type : M → String)

theorem owned_new : (({} : HostCoordinator M C)).Owned := by
  constructor
  · intro id entry client he
    cases he
  · intro id entry t d he
    cases he

/-- **A connection and a cached message belong to the host they are kept for**, in every
state of every run. -/
theorem owned_run (acts : List (Action M C)) :
    (acts.foldl (step type) ({} : HostCoordinator M C)).Owned :=
  foldl_invariant (fun _ a h => (h.step type a).1) owned_new acts

/-- **A run is isolated exactly when its steps keep the hosts apart.** -/
theorem isolated_iff (acts : List (Action M C)) :
    Along (step type) KeepsApart ({} : HostCoordinator M C) acts ↔
      ∀ pre, pre <+: acts → (pre.foldl (step type) ({} : HostCoordinator M C)).Isolated := by
  have hnew : ({} : HostCoordinator M C).Isolated := by
    constructor
    · intro f hf
      cases hf
    · intro r hr
      cases hr
  have hstep : ∀ (s : HostCoordinator M C) (a : Action M C), s.Owned ∧ s.Isolated →
      (s.KeepsApart a ↔ (s.step type a).Owned ∧ (s.step type a).Isolated) := by
    rintro s a ⟨howned, hiso⟩
    obtain ⟨howned', hiso'⟩ := howned.step type a
    rw [hiso', and_iff_right howned', and_iff_right hiso]
  rw [along_iff_forall_part (I := fun s : HostCoordinator M C => s.Owned ∧ s.Isolated) hstep
    ⟨owned_new, hnew⟩ acts]
  refine forall_congr' fun pre => forall_congr' fun _ => ?_
  exact and_iff_right (owned_run type pre)

end Runs

/-- A run that connects to a remote host and selects it. -/
def remoteSelected : List (Action String String) :=
  [.init, .answer 0 (.resolved [⟨"local", .ready, some "ws://local", {}⟩,
      ⟨"box", .disconnected, none, {}⟩]),
    .answer 0 (.resolved []), .singletonOpen true, .selectHost "box", .answer 0 (.resolved []),
    .answer 0 (.resolved [⟨"local", .ready, some "ws://local", {}⟩,
      ⟨"box", .ready, some "ws://box", {}⟩])]

instance (s : HostCoordinator M C) : Decidable s.Isolated := inferInstanceAs (Decidable (_ ∧ _))

/-- **A message of the local host is processed under the remote one**, and the store's
command goes to the local host. -/
theorem local_message_folded_into_remote :
    let s := remoteSelected.foldl (step id) {}
    s.selectedHostId = some "box" ∧
      ¬ (s.step id (.localMessage "event")).Isolated ∧
      ¬ (s.step id (.send "prompt")).Isolated := by
  decide

end HostCoordinator

end Pantoken
