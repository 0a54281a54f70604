import Pantoken.Client.Hosts

/-!
# What the calls of the client leave of a host

Seen from one host, a call of the coordinator is of no concern, or it goes on to list the
hosts for it, or it makes the host's connection.

## Main definitions

* `HostCoordinator.Quiet` — a step that makes and gives up no connection of the host.
* `HostCoordinator.Made` — a step that makes the host's connection, to a url.
* `Await.Connected`, `Await.Makes` — the calls that can make one.

## Main results

* `quiet_step` — what the client does of its own accord is of no concern to the host.
* `quiet_answered`, `quiet_afterRefresh`, `made_afterRefresh` — what an answer does.
-/

namespace Pantoken

namespace HostCoordinator

variable {M C : Type*}

/-- The connection of a host. -/
def clientOf (s : HostCoordinator M C) (id : String) : Option Nat :=
  (s.hostState id).bind (·.client)

/-- The url a host was listed with. -/
def urlOf (s : HostCoordinator M C) (id : String) : Option String :=
  (s.hostState id).bind (·.descriptor.wsUrl)

end HostCoordinator

/-- The call connects or resumes this host. -/
def Await.connects (id : String) : Await → Bool
  | .connectHost id' _ _ | .resumeConnection id' => id' = id
  | _ => false

/-- The call is the end of a `connectHost` for the host, which waits for the hosts. -/
def Await.Connected (id : String) : Await → Prop
  | .listHosts (.connected id' _ _) => id' = id
  | _ => False

/-- The call makes a connection for the host when it is listed with the descriptor, and has
none. -/
def Await.Makes (id : String) (d : NativeHostDescriptor) : Await → Prop
  | .listHosts (.connected id' _ _) => id' = id ∧ d.state ∉ nonTerminalConnectStates
  | .listHosts (.resumed id') => id' = id ∧ d.state = .ready
  | _ => False

/-- What the client does of its own accord: an answer comes from the provider, and giving the
host up is not part of connecting it. -/
def HostCoordinator.Action.keeps {M C : Type*} (id : String) : HostCoordinator.Action M C → Bool
  | .answer _ _ => false
  | .disconnectHost id' | .reconnectHost id' | .deleteProfile id' => id' ≠ id
  | _ => true

/-! ### What a call leaves of a host -/

namespace HostCoordinator

variable {M C : Type*}

/-- `s'` comes from `s` without a connection made or given up for the host, and without the
end of a `connectHost` for it begun. -/
structure Quiet (id : String) (s s' : HostCoordinator M C) : Prop where
  client : s'.clientOf id = s.clientOf id
  url : s'.urlOf id = s.urlOf id
  hosts : s.clients.map (·.host) <+: s'.clients.map (·.host)
  awaits : ∃ l, s'.awaits = s.awaits ++ l ∧ ∀ a ∈ l, ¬ a.Connected id

section Quiet

variable {s s' s'' : HostCoordinator M C} {id : String}

theorem Quiet.refl (s : HostCoordinator M C) : Quiet id s s :=
  ⟨rfl, rfl, List.prefix_rfl, [], by simp, by simp⟩

theorem Quiet.trans (h : Quiet id s s') (h' : Quiet id s' s'') : Quiet id s s'' := by
  obtain ⟨l, hl, hnone⟩ := h.awaits
  obtain ⟨l', hl', hnone'⟩ := h'.awaits
  refine ⟨h'.client.trans h.client, h'.url.trans h.url, h.hosts.trans h'.hosts, l ++ l', ?_, ?_⟩
  · rw [hl', hl, List.append_assoc]
  · intro a ha
    rcases List.mem_append.mp ha with ha | ha
    · exact hnone a ha
    · exact hnone' a ha

theorem Quiet.of_eq (hstate : s'.hostState = s.hostState)
    (hclients : s'.clients.map (·.host) = s.clients.map (·.host)) (hawaits : s'.awaits = s.awaits) :
    Quiet id s s' := by
  refine ⟨?_, ?_, ?_, [], ?_, by simp⟩
  · rw [clientOf, clientOf, hstate]
  · rw [urlOf, urlOf, hstate]
  · exact hclients ▸ List.prefix_rfl
  · rw [hawaits, List.append_nil]

theorem map_modify_host (client : Nat) (f : HostClient → HostClient)
    (hf : ∀ c, (f c).host = c.host) :
    (s.clients.modify client f).map (·.host) = s.clients.map (·.host) := by
  apply List.ext_getElem?
  intro n
  simp only [List.getElem?_map, List.getElem?_modify]
  cases s.clients[n]? with
  | none => rfl
  | some c =>
    by_cases hn : client = n
    · simp [hn, hf]
    · simp [hn]

theorem quiet_await {a : Await} (ha : ¬ a.Connected id) : Quiet id s (s.await a) :=
  ⟨rfl, rfl, List.prefix_rfl, [a], rfl, by simpa using ha⟩

/-- An entry may change in all but its connection and its url. -/
theorem quiet_setEntry {id' : String} {entry entry' : HostEntry M}
    (he : s.hostState id' = some entry) (hclient : entry'.client = entry.client)
    (hurl : entry'.descriptor.wsUrl = entry.descriptor.wsUrl) :
    Quiet id s (s.setEntry id' entry') := by
  refine ⟨?_, ?_, List.prefix_rfl, [], by simp [HostCoordinator.setEntry], by simp⟩
  · unfold clientOf
    by_cases hid : id = id'
    · rw [hid, setEntry_self, he]
      exact hclient
    · rw [setEntry_of_ne _ _ hid]
  · unfold urlOf
    by_cases hid : id = id'
    · rw [hid, setEntry_self, he]
      exact hurl
    · rw [setEntry_of_ne _ _ hid]

theorem quiet_setDescriptor {id' : String} {f : NativeHostDescriptor → NativeHostDescriptor}
    (hf : ∀ d, (f d).wsUrl = d.wsUrl) : Quiet id s (s.setDescriptor id' f) := by
  unfold setDescriptor
  split
  · exact Quiet.refl s
  · next entry he => exact quiet_setEntry he rfl (hf _)

theorem quiet_startConnect {id' : String} (next : AfterConnect) :
    Quiet id s (s.startConnect id' next) := by
  unfold startConnect
  split
  · exact Quiet.refl s
  · refine Quiet.trans (quiet_setDescriptor ?_) (quiet_await ?_)
    · exact fun _ => rfl
    · exact not_false

theorem quiet_hydrateFromBootstrap (messages : List (Delivered M)) :
    Quiet id s (s.hydrateFromBootstrap messages) := by
  rw [hydrateFromBootstrap_eq]
  exact Quiet.of_eq rfl rfl rfl

theorem quiet_clientSend (client : Nat) (command : Command C) :
    Quiet id s (s.clientSend client command) := by
  unfold clientSend
  split
  · exact Quiet.refl s
  · split
    · exact Quiet.of_eq rfl rfl rfl
    · exact Quiet.refl s

theorem quiet_switchTo {id' : String} : Quiet id s (s.switchTo id') := by
  unfold switchTo
  split
  · exact Quiet.refl s
  · next entry he =>
    have hselect : Quiet id s { s with selectedHostId := some id' } := Quiet.of_eq rfl rfl rfl
    dsimp only
    split
    · exact hselect.trans (quiet_hydrateFromBootstrap _)
    · exact (hselect.trans (quiet_hydrateFromBootstrap _)).trans (quiet_clientSend _ _)

theorem quiet_selectHost {id' : String} : Quiet id s (s.selectHost id') := by
  unfold selectHost
  split
  · exact Quiet.refl s
  · split
    · exact quiet_startConnect _
    · exact quiet_switchTo

theorem quiet_afterConnect (next : AfterConnect) : Quiet id s (s.afterConnect next) := by
  cases next with
  | done => exact Quiet.refl s
  | switch id' => exact quiet_switchTo
  | select id' => exact quiet_selectHost

theorem quiet_connectHost {id' : String} (next : AfterConnect) :
    Quiet id s (s.connectHost id' next) := by
  unfold connectHost
  split
  · exact Quiet.refl s
  · split
    · exact quiet_afterConnect next
    · exact quiet_startConnect next

/-- Another host may be given up. -/
theorem quiet_disconnectHost {id' : String} (hne : id' ≠ id) (reconnect : Bool) :
    Quiet id s (s.disconnectHost id' reconnect) := by
  unfold disconnectHost
  split
  · split
    · exact quiet_connectHost _
    · exact Quiet.refl s
  · next entry he =>
    have hdrop : ∀ s₀ : HostCoordinator M C,
        Quiet id s₀ (s₀.setEntry id' { entry with client := none }) := by
      intro s₀
      refine ⟨?_, ?_, List.prefix_rfl, [], by simp [HostCoordinator.setEntry], by simp⟩
      · rw [clientOf, clientOf, setEntry_of_ne _ _ hne.symm]
      · rw [urlOf, urlOf, setEntry_of_ne _ _ hne.symm]
    dsimp only
    split
    · exact (hdrop s).trans (quiet_await not_false)
    · next client hclient =>
      have hclose : Quiet id s { s with
          clients := s.clients.modify client ({ · with listening := false }) } :=
        Quiet.of_eq rfl (map_modify_host client _ fun _ => rfl) rfl
      exact (hclose.trans (hdrop _)).trans (quiet_await not_false)

theorem quiet_connectRejected {id' : String} (priorState : HostConnectionState)
    (failure : HostFailure) : Quiet id s (s.connectRejected id' priorState failure) := by
  unfold connectRejected
  refine quiet_setDescriptor fun d => ?_
  split
  · rfl
  · split <;> rfl

theorem quiet_started : Quiet id s s.started := by
  have hstart : ∀ s₀ : HostCoordinator M C, Quiet id s₀ { s₀ with storeStarted := true } :=
    fun _ => Quiet.of_eq rfl rfl rfl
  unfold started
  dsimp only
  split
  · exact quiet_selectHost.trans (hstart _)
  · exact hstart s

/-- Another host may be connected. -/
theorem quiet_ensureWsClient_of_ne {id' : String} (hne : id' ≠ id) :
    Quiet id s (s.ensureWsClient id') := by
  unfold ensureWsClient
  split
  · exact Quiet.refl s
  · split
    · exact Quiet.refl s
    · refine ⟨?_, ?_, by simp, [], by simp [HostCoordinator.setEntry], by simp⟩
      · simp only [clientOf, setEntry_of_ne _ _ hne.symm]
      · simp only [urlOf, setEntry_of_ne _ _ hne.symm]

theorem quiet_cacheBootstrapMessage (type : M → String) {id' : String} (d : Delivered M) :
    Quiet id s (s.cacheBootstrapMessage type id' d) := by
  unfold cacheBootstrapMessage
  split
  · exact Quiet.refl s
  · next entry he =>
    split
    · exact quiet_setEntry he rfl rfl
    · exact Quiet.refl s

/-! ### The hosts are listed -/

/-- The descriptors that name the host, of which the last one stays. -/
theorem refreshed_of_ne {descriptors : List NativeHostDescriptor}
    (hne : ∀ d ∈ descriptors, d.id ≠ id) (s : HostCoordinator M C) :
    (descriptors.foldl putDescriptor s).hostState id = s.hostState id := by
  induction descriptors generalizing s with
  | nil => rfl
  | cons d rest ih =>
    rw [List.foldl_cons, ih fun d' hd' => hne d' (List.mem_cons_of_mem _ hd')]
    have hd : id ≠ d.id := (hne d List.mem_cons_self).symm
    unfold putDescriptor
    split <;> exact setEntry_of_ne _ _ hd

theorem putDescriptor_clients (s : HostCoordinator M C) (descriptors : List NativeHostDescriptor) :
    (descriptors.foldl putDescriptor s).clients = s.clients ∧
      (descriptors.foldl putDescriptor s).awaits = s.awaits := by
  induction descriptors generalizing s with
  | nil => exact ⟨rfl, rfl⟩
  | cons d rest ih =>
    obtain ⟨hclients, hawaits⟩ := ih (s.putDescriptor d)
    have hput : (s.putDescriptor d).clients = s.clients ∧
        (s.putDescriptor d).awaits = s.awaits := by
      unfold putDescriptor
      split <;> exact ⟨rfl, rfl⟩
    rw [List.foldl_cons, hclients, hawaits]
    exact hput

theorem hostState_putDescriptor (s : HostCoordinator M C) (d : NativeHostDescriptor) :
    ∃ entry, (s.putDescriptor d).hostState d.id = some entry ∧ entry.descriptor = d ∧
      entry.client = s.clientOf d.id := by
  unfold putDescriptor clientOf
  split
  · next hnone => exact ⟨_, setEntry_self _ _ _, rfl, by rw [hnone]; rfl⟩
  · next entry hentry => exact ⟨_, setEntry_self _ _ _, rfl, by rw [hentry]; rfl⟩

/-- The host is listed once: its entry has the descriptor, and the connection it had. -/
theorem hostState_refreshed {before after : List NativeHostDescriptor} {d : NativeHostDescriptor}
    (hd : d.id = id) (hbefore : ∀ d ∈ before, d.id ≠ id) (hafter : ∀ d ∈ after, d.id ≠ id) :
    ∃ entry, (s.refreshed (before ++ d :: after)).hostState id = some entry ∧
      entry.descriptor = d ∧ entry.client = s.clientOf id := by
  unfold refreshed
  rw [List.foldl_append, List.foldl_cons, refreshed_of_ne hafter]
  have hstate : (before.foldl putDescriptor { s with hosts := before ++ d :: after }).hostState id =
      s.hostState id := refreshed_of_ne hbefore _
  obtain ⟨entry, hentry, hdescriptor, hclient⟩ :=
    hostState_putDescriptor (before.foldl putDescriptor { s with hosts := before ++ d :: after }) d
  rw [hd] at hentry hclient
  refine ⟨entry, hentry, hdescriptor, hclient.trans ?_⟩
  rw [clientOf, hstate, clientOf]

theorem refreshed_clients (descriptors : List NativeHostDescriptor) :
    (s.refreshed descriptors).clients = s.clients ∧ (s.refreshed descriptors).awaits = s.awaits :=
  putDescriptor_clients _ descriptors

/-- The host has a connection, or no url: nothing is made. -/
theorem ensureWsClient_of_client (h : s.clientOf id ≠ none ∨ s.urlOf id = none) :
    s.ensureWsClient id = s := by
  unfold ensureWsClient
  split
  · rfl
  · next entry he =>
    rw [if_pos]
    rw [clientOf, urlOf, he] at h
    exact h.imp_left Option.isSome_iff_ne_none.mpr

/-- A connection is made with the url. -/
theorem ensureWsClient_of_none {url : String} (hclient : s.clientOf id = none)
    (hurl : s.urlOf id = some url) : (s.ensureWsClient id).clientOf id = some s.clients.length ∧
      (s.ensureWsClient id).urlOf id = some url ∧
      (s.ensureWsClient id).clients = s.clients ++ [{ host := id }] ∧
      (s.ensureWsClient id).awaits = s.awaits := by
  obtain ⟨entry, he, hdescriptor⟩ := Option.bind_eq_some_iff.mp hurl
  have hnone : entry.client = none := by
    rw [clientOf, he] at hclient
    exact hclient
  have hmake : ¬ (entry.client.isSome = true ∨ entry.descriptor.wsUrl = none) := by
    rw [hnone, hdescriptor]
    simp
  unfold ensureWsClient
  rw [he]
  dsimp only
  rw [if_neg hmake]
  refine ⟨?_, ?_, rfl, rfl⟩
  · simp [clientOf]
  · simpa [urlOf] using hdescriptor

/-- `s'` comes from `s` with a connection made for the host, to the url. -/
structure Made (id url : String) (s s' : HostCoordinator M C) : Prop where
  client : s'.clientOf id = some s.clients.length
  url : s'.urlOf id = some url
  hosts : s.clients.map (·.host) ++ [id] <+: s'.clients.map (·.host)
  awaits : ∃ l, s'.awaits = s.awaits ++ l ∧ ∀ a ∈ l, ¬ a.Connected id

theorem Made.quiet {url : String} (h : Made id url s s') (h' : Quiet id s' s'') :
    Made id url s s'' := by
  obtain ⟨l, hl, hnone⟩ := h.awaits
  obtain ⟨l', hl', hnone'⟩ := h'.awaits
  refine ⟨h'.client.trans h.client, h'.url.trans h.url, h.hosts.trans h'.hosts, l ++ l', ?_, ?_⟩
  · rw [hl', hl, List.append_assoc]
  · intro a ha
    rcases List.mem_append.mp ha with ha | ha
    · exact hnone a ha
    · exact hnone' a ha

theorem made_ensureWsClient {url : String} (hclient : s.clientOf id = none)
    (hurl : s.urlOf id = some url) : Made id url s (s.ensureWsClient id) := by
  obtain ⟨hclient', hurl', hclients, hawaits⟩ := ensureWsClient_of_none hclient hurl
  exact ⟨hclient', hurl', by simp [hclients], [], by simp [hawaits], by simp⟩

theorem quiet_connected_of_ne {id' : String} (hne : id' ≠ id) (priorState : HostConnectionState)
    (next : AfterConnect) : Quiet id s (s.connected id' priorState next) := by
  unfold connected
  split
  · exact Quiet.refl s
  · split
    · exact quiet_afterConnect next
    · split
      · exact quiet_setDescriptor fun _ => rfl
      · exact (quiet_ensureWsClient_of_ne hne).trans (quiet_afterConnect next)

theorem quiet_resumed_of_ne {id' : String} (hne : id' ≠ id) : Quiet id s (s.resumed id') := by
  unfold resumed
  split
  · exact Quiet.refl s
  · split
    · exact quiet_ensureWsClient_of_ne hne
    · exact Quiet.refl s

section Listed

variable {entry : HostEntry M} {d : NativeHostDescriptor} (he : s.hostState id = some entry)
  (hd : entry.descriptor = d)

include he hd

theorem urlOf_eq : s.urlOf id = d.wsUrl := by
  rw [urlOf, he, ← hd]
  rfl

/-- What is left of a call makes the connection. -/
theorem made_afterRefresh {next : AfterRefresh} {url : String}
    (hmakes : (Await.listHosts next).Makes id d) (hclient : s.clientOf id = none)
    (hurl : d.wsUrl = some url) : Made id url s (s.afterRefresh next) := by
  have hmade : Made id url s (s.ensureWsClient id) :=
    made_ensureWsClient hclient ((urlOf_eq he hd).trans hurl)
  cases next with
  | connected id' priorState next =>
    obtain ⟨rfl, hstate⟩ := hmakes
    rw [← hd] at hstate hurl
    simp only [afterRefresh, connected, he, if_neg hstate, hurl, reduceCtorEq, if_false]
    exact hmade.quiet (quiet_afterConnect next)
  | resumed id' =>
    obtain ⟨rfl, hstate⟩ := hmakes
    rw [← hd] at hstate
    simp only [afterRefresh, resumed, he, if_pos hstate]
    exact hmade
  | _ => exact hmakes.elim

/-- Or it is of no concern to the host. -/
theorem quiet_afterRefresh (next : AfterRefresh)
    (hnone : (Await.listHosts next).Makes id d → s.clientOf id = none → d.wsUrl = none) :
    Quiet id s (s.afterRefresh next) := by
  have hensure : (Await.listHosts next).Makes id d → s.ensureWsClient id = s := by
    intro hmakes
    refine ensureWsClient_of_client ?_
    by_cases hclient : s.clientOf id = none
    · exact .inr ((urlOf_eq he hd).trans (hnone hmakes hclient))
    · exact .inl hclient
  cases next with
  | connected id' priorState next =>
    by_cases hid : id' = id
    · subst hid
      simp only [afterRefresh, connected, he]
      split
      · exact quiet_afterConnect next
      · next hstate =>
        split
        · exact quiet_setDescriptor fun _ => rfl
        · rw [hensure ⟨rfl, hd ▸ hstate⟩]
          exact quiet_afterConnect next
    · exact quiet_connected_of_ne hid priorState next
  | resumed id' =>
    by_cases hid : id' = id
    · subst hid
      simp only [afterRefresh, resumed, he]
      split
      · next hstate =>
        rw [hensure ⟨rfl, hd ▸ hstate⟩]
        exact Quiet.refl s
      · exact Quiet.refl s
    · exact quiet_resumed_of_ne hid
  | done => exact Quiet.refl s
  | disconnected id' reconnect =>
    dsimp only [afterRefresh]
    split
    · exact quiet_connectHost _
    · exact Quiet.refl s
  | initialised => exact quiet_await not_false

end Listed

/-- An answer that lists no hosts is of no concern to the host, unless its poll has
returned. -/
theorem quiet_answered {a : Await} {answer : ProviderAnswer} (hlist : ∀ next, a ≠ .listHosts next)
    (hconnect : ∀ priorState next hosts, a = .connectHost id priorState next →
      answer ≠ .resolved hosts) : Quiet id s (s.answered a answer) := by
  cases answer with
  | resolved hosts =>
    cases a with
    | connectHost id' priorState next =>
      refine quiet_await fun hid => ?_
      have hid' : id' = id := hid
      exact hconnect priorState next hosts (by rw [hid']) rfl
    | listHosts next => exact absurd rfl (hlist next)
    | listProfiles => exact quiet_started
    | _ => exact quiet_await not_false
  | rejected failure =>
    cases a with
    | connectHost id' priorState next => exact quiet_connectRejected priorState failure
    | _ => exact Quiet.refl s

theorem quiet_onHostMessage (type : M → String) {id' : String} (msg : M) :
    Quiet id s (s.onHostMessage type id' msg) := by
  unfold onHostMessage
  split
  · exact Quiet.refl s
  · dsimp only
    split
    · exact (quiet_cacheBootstrapMessage type _).trans (Quiet.of_eq rfl rfl rfl)
    · exact quiet_cacheBootstrapMessage type _

/-- What the client does of its own accord gives no connection of the host up, and makes
none. -/
theorem quiet_step (type : M → String) {a : Action M C} (ha : a.keeps id = true) :
    Quiet id s (s.step type a) := by
  cases a with
  | init => exact quiet_await not_false
  | refreshHosts => exact quiet_await not_false
  | selectHost id' => exact quiet_selectHost
  | connectHost id => exact quiet_connectHost _
  | disconnectHost id => exact quiet_disconnectHost (of_decide_eq_true ha) _
  | reconnectHost id => exact quiet_disconnectHost (of_decide_eq_true ha) _
  | resumeConnection id => exact quiet_await not_false
  | deleteProfile id =>
    dsimp only [step]
    split
    · exact quiet_selectHost.trans (quiet_await not_false)
    · exact quiet_await not_false
  | answer n answer => cases ha
  | clientOpen client isOpen => exact Quiet.of_eq rfl (map_modify_host client _ fun _ => rfl) rfl
  | clientMessage client msg =>
    dsimp only [step]
    split
    · exact Quiet.refl s
    · split
      · exact quiet_onHostMessage type msg
      · exact Quiet.refl s
  | receiveHostMessage id msg => exact quiet_onHostMessage type msg
  | singletonOpen isOpen => exact Quiet.of_eq rfl rfl rfl
  | localMessage msg =>
    dsimp only [step, onLocalMessage]
    split
    · exact (quiet_cacheBootstrapMessage type _).trans (Quiet.of_eq rfl rfl rfl)
    · exact quiet_cacheBootstrapMessage type _
  | send cmd =>
    dsimp only [step, send]
    split
    · exact Quiet.of_eq rfl rfl rfl
    · exact Quiet.refl s

end Quiet

end HostCoordinator

end Pantoken
