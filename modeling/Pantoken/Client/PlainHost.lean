import Pantoken.Client.HostConnect

/-!
# Plain hosts

The attempt of a plain host has no preflight: until a browser connects to its bridge it is
shown in states at which no poll returns, and the client connects once a poll has returned.

## Main definitions

* `HostConnect.Unnoticed`, `HostConnect.Unheard` — such an attempt, and the client that
  polls it.

## Main results

* `clientOf_eq_none_of_host` — **a plain host is never connected.**
-/

namespace Pantoken

open Desktop (Attempt AttemptAction)

namespace HostConnect

variable {M C P Q : Type*} (env : HostSetup M)

/-- The states at which a poll returns without a failure. -/
def returnStates : List HostConnectionState := [.ready, .preflight, .awaitingAcknowledgement]

/-- The attempt of a plain host that no browser has reached: no poll returns from it. -/
structure Unnoticed (a : Attempt P Q) : Prop where
  sockets : a.sockets = 0
  relays : a.relays = []
  stage : ∀ rest, a.stage ≠ .preflight rest
  state : a.state.toHostState ∉ returnStates

theorem unnoticed_step {a : Attempt P Q} (h : Unnoticed a) {b : AttemptAction P Q}
    (hb : b ≠ .accept) : Unnoticed (a.step b) := by
  unfold Attempt.step
  split
  · next hstage => exact absurd hstage (h.stage _)
  · next hstage => exact absurd hstage (h.stage _)
  · next hstage => exact absurd hstage (h.stage _)
  · next hstage => exact absurd hstage (h.stage _)
  · exact ⟨h.sockets, h.relays, by simp, of_decide_eq_true rfl⟩
  · exact ⟨h.sockets, h.relays, by simp, of_decide_eq_true rfl⟩
  · exact ⟨h.sockets, h.relays, by simp, of_decide_eq_true rfl⟩
  · exact ⟨h.sockets, h.relays, by simp, of_decide_eq_true rfl⟩
  · exact ⟨h.sockets, h.relays, by simp, h.state⟩
  · exact ⟨h.sockets, h.relays, by simp, h.state⟩
  · exact absurd rfl hb
  · split
    · exact ⟨h.sockets, h.relays, by simp, h.state⟩
    · exact h
  · rw [if_pos h.sockets]
    exact h
  · exact h
  · rw [h.relays]
    exact h
  · exact h

/-- The client of a plain host: it has no connection, none of its calls is going to make
one, and no poll returns. -/
structure Unheard (s : HostConnect M C P Q) : Prop where
  coherent : s.Coherent env
  noClient : s.client.clientOf env.id = none
  silent : ∀ p ∈ s.pairs, ∀ url, ¬ Promises env url p
  attempt : ∀ a, s.attempt = some a → Unnoticed a

section Plain

variable {env} {s : HostConnect M C P Q}

theorem silent_setCall (h : ∀ p ∈ s.pairs, ∀ url, ¬ Promises env url p) {n : Nat} {aw : Await}
    {c c' : CallState} (hn : s.pending n = some (aw, c')) (hc : ∀ url, ¬ Promises env url (aw, c)) :
    ∀ p ∈ (s.setCall n c).pairs, ∀ url, ¬ Promises env url p := by
  intro p hp
  rcases pairs_setCall n c hp with hp | ⟨aw', c'', hn', rfl⟩
  · exact h p hp
  · rw [hn, Option.some.injEq, Prod.mk.injEq] at hn'
    rw [← hn'.1]
    exact hc

/-- Calls that started promise nothing, and so do those that are left. -/
theorem silent_advance (h : ∀ p ∈ s.pairs, ∀ url, ¬ Promises env url p)
    {client : HostCoordinator M C} {calls : List CallState} {l m : List Await}
    (hawaits : client.awaits = m ++ l) (hcalls : calls.length = m.length)
    (hsub : ∀ p ∈ m.zip calls, p ∈ s.pairs) (hl : ∀ a ∈ l, ¬ a.Connected env.id) :
    ∀ p ∈ (s.advance client calls).pairs, ∀ url, ¬ Promises env url p := by
  intro p hp url hpromises
  rw [pairs_advance hawaits hcalls] at hp
  rcases List.mem_append.mp hp with hp | hp
  · exact h p (hsub p hp) url hpromises
  · obtain ⟨aw, haw, rfl⟩ := List.mem_map.mp hp
    exact hl aw haw (promises_called_iff.mp hpromises)

/-- A listing of a plain host promises nothing. -/
theorem Unheard.listed (h : s.Unheard env) {n : Nat} {next : AfterRefresh}
    (hn : s.pending n = some (.listHosts next, .called)) (before after : List NativeHostDescriptor)
    (url : String) :
    ¬ Promises env url (.listHosts next, .settled (.resolved (s.listed env before after))) := by
  rintro ⟨d, hd, hid, hmakes, -⟩
  have hnotReady : d.state ≠ .ready := by
    rw [eq_of_mem_listed hd hid]
    cases hattempt : s.attempt with
    | none => exact HostConnectionState.noConfusion
    | some a =>
      intro hready
      have hstate : a.state.toHostState = .ready := hready
      exact (h.attempt a hattempt).state (by rw [hstate]; exact List.mem_cons_self)
  cases next with
  | connected id priorState next => exact h.silent _ (List.mem_of_getElem? hn) url hmakes.1
  | resumed id => exact hnotReady hmakes.2
  | _ => exact hmakes

/-- A poll that returns throws. -/
theorem Unheard.rejected (h : s.Unheard env) {answer : ProviderAnswer}
    (hanswer : s.pollHostState env = some answer) : ∃ failure, answer = .rejected failure := by
  unfold pollHostState at hanswer
  split at hanswer
  · exact ⟨_, (Option.some.inj hanswer).symm⟩
  · next a ha =>
    have hstate := (h.attempt a ha).state
    split at hanswer
    · next heq => exact absurd (by rw [heq]; exact of_decide_eq_true rfl) hstate
    · next heq => exact absurd (by rw [heq]; exact of_decide_eq_true rfl) hstate
    · next heq => exact absurd (by rw [heq]; exact of_decide_eq_true rfl) hstate
    · exact ⟨_, (Option.some.inj hanswer).symm⟩
    · exact ⟨_, (Option.some.inj hanswer).symm⟩
    · cases hanswer

theorem Unheard.pairs_step (h : s.Unheard env) (act : ConnectAction M C P Q) :
    (s.step env act).client.clientOf env.id = none ∧
      ∀ p ∈ (s.step env act).pairs, ∀ url, ¬ Promises env url p := by
  have hmoves := moves_step h.coherent act
  generalize s.step env act = s' at hmoves
  cases hmoves with
  | client client hquiet =>
    obtain ⟨hclient, -, hosts, l, hawaits, hl⟩ := hquiet
    exact ⟨hclient.trans h.noClient,
      silent_advance h.silent hawaits h.coherent.calls (fun _ hp => hp) hl⟩
  | list n next before after hn =>
    exact ⟨h.noClient, silent_setCall h.silent hn (h.listed hn before after)⟩
  | ensure n port aw hn haw =>
    have hensure : (s.ensure env port).client = s.client ∧ (s.ensure env port).pairs = s.pairs := by
      unfold ensure
      split <;> exact ⟨rfl, rfl⟩
    have hsilent : ∀ p ∈ (s.ensure env port).pairs, ∀ url, ¬ Promises env url p := by
      rw [hensure.2]
      exact h.silent
    exact ⟨(congrArg (·.clientOf env.id) hensure.1).trans h.noClient,
      silent_setCall hsilent ((pending_ensure port n).trans hn) fun _ => not_promises_polling⟩
  | settle n aw c answer hn hlist hold hnew =>
    refine ⟨h.noClient, silent_setCall h.silent hn ?_⟩
    rcases hnew with hanswer | hnew
    · obtain ⟨failure, rfl⟩ := h.rejected hanswer
      exact fun _ => not_promises_rejected
    · exact hnew
  | deliver n aw answer hact hn =>
    have hmem := List.mem_of_getElem? hn
    have hdelivery := delivery h.coherent hn
    generalize s.client.step env.type (.answer n answer) = client at hdelivery ⊢
    cases hdelivery with
    | quiet hclient hosts l hawaits hl hp =>
      exact ⟨hclient.trans h.noClient, silent_advance h.silent hawaits
        (h.coherent.length_eraseIdx n) (fun _ hp => mem_pairs_of_eraseIdx hp) hl⟩
    | returned hclient hosts aw hawaits haw hp hm hlist =>
      exact absurd (hp "") (h.silent _ hmem "")
    | made url hnone hclient hurl hosts l hawaits hl hp hm hlist =>
      exact absurd ((hp url).mpr rfl) (h.silent _ hmem url)
  | _ => exact ⟨h.noClient, h.silent⟩

theorem unheard_step (htarget : env.target = .host) (h : s.Unheard env)
    (act : ConnectAction M C P Q) : (s.step env act).Unheard env := by
  obtain ⟨hnone, hsilent⟩ := h.pairs_step act
  refine ⟨coherent_step h.coherent act, hnone, hsilent, fun a ha => ?_⟩
  rcases attempt_step h.coherent act with heq | ⟨a', phase, risks, ha', hstate, heq⟩ |
    ⟨-, port, heq⟩ | ⟨b, hb, heq⟩
  · exact h.attempt a (heq.symm.trans ha)
  · rw [heq] at ha
    cases ha
  · rw [heq, Option.some.injEq] at ha
    rw [← ha, htarget]
    exact ⟨rfl, rfl, by simp [Attempt.start], of_decide_eq_true rfl⟩
  · obtain ⟨att, hatt, rfl⟩ := Option.map_eq_some_iff.mp (heq.symm.trans ha)
    rcases hb with ⟨-, haccept⟩ | ⟨-, -, howns⟩
    · exact unnoticed_step (h.attempt att hatt) haccept
    · exact absurd ((owns_iff hatt).mp howns) (not_owns_of_none h.noClient)

end Plain

/-- **A plain host is never connected**, in any run. -/
theorem clientOf_eq_none_of_host (htarget : env.target = .host)
    (acts : List (ConnectAction M C P Q)) :
    (acts.foldl (step env) ({} : HostConnect M C P Q)).client.clientOf env.id = none := by
  have hnew : ({} : HostConnect M C P Q).Unheard env :=
    ⟨coherent_new env, rfl, fun p hp => absurd hp List.not_mem_nil, fun a ha => by cases ha⟩
  have hrun := foldl_invariant (I := Unheard env) (fun _ act h => unheard_step htarget h act) hnew
    acts
  exact hrun.noClient

end HostConnect
end Pantoken
