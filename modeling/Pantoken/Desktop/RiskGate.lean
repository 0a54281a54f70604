import Pantoken.Desktop.ProfileStore

/-!
# The gate of the risks

A preflight lets an attempt go on when each risk it sees has been acknowledged: the fingerprint of
its facts is in the profile.  `acknowledge_risk` puts it there, for a risk that the session shows as
pending.  Whoever adds or updates a profile brings the fingerprints with it.

## Main definitions

* `Gated` — a preflight that comes out ready has seen risks that were acknowledged, of these facts.
* `Untampered` — a profile that is added or updated brings fingerprints that were acknowledged.
* `AcceptsPending` — what an acknowledgement accepts, and what it changes.
* `ReadyAfter` — a host is ready after so many acknowledgements of what its attempts show.

## Main results

* `Sound.step` — what each step keeps of the fingerprints.
* `gated_of_untampered` — **in an untampered run no risk is run that was not acknowledged.**
* `readyAfter_of_length_le` — each acknowledgement leaves one risk fewer.
* `risk_gate` — **these three together.**
* `not_gated` — a profile that is added with the fingerprint of a risk.
-/

namespace Pantoken.Desktop

/-! ### What is asked -/

/-- Each risk that a preflight has seen when it comes out ready was acknowledged, of these facts. -/
def Gated (json : DockerJson) (sha : List UInt8 → List Char) (s : Hosts) : HostsAction → Prop
  | .probe n run => ∀ session, s.sessions[n]? = some session → session.task = .probing →
      ∀ o target, observe json sha session.profile run = .ok o →
        preflightDocker json sha session.profile run = .ok (.ready target) →
        ∀ kind, o.present kind = true → ⟨kind, kind.fields session.profile o⟩ ∈ s.accepted
  | _ => True

/-- The fingerprints of a profile are those of facts that were acknowledged, as risks of their
kind. -/
def Granted (sha : List UInt8 → List Char) (accepted : List Grant) (profile : RemoteProfile) :
    Prop :=
  ∀ kind print, profile.riskAcknowledgements.slot kind = some print →
    ∃ g ∈ accepted, g.kind = kind ∧ print = fingerprint sha g.fields

/-- A profile that is added or updated brings fingerprints that were acknowledged. -/
def Untampered (sha : List UInt8 → List Char) (s : Hosts) : HostsAction → Prop
  | .command disk (.add profile) =>
    profile.validate = .ok () → disk.load = none → disk.save = none →
      Granted sha s.accepted profile
  | .command disk (.update profile) =>
    profile.validate = .ok () → disk.load = none → disk.save = none →
      profile.id ∈ s.file.map RemoteProfile.id → Granted sha s.accepted profile
  | _ => True

/-- An acknowledgement that is accepted is of a risk that the session shows as pending, and changes
one fingerprint of one profile; one that is not accepted changes no profile. -/
def AcceptsPending (s : Hosts) (disk : Disk) (id : List Char) (riskId : String)
    (print : List Char) : Prop :=
  match acknowledgeRisk s disk id riskId print with
  | .ok s' => ∃ session phase pendingRisks, s.session id = some session ∧
      session.state = .awaitingAcknowledgement phase pendingRisks ∧
      ∃ risk ∈ pendingRisks, risk.id = riskId ∧ risk.fingerprint = String.ofList print ∧
        ∃ front profile back, s.file = front ++ profile :: back ∧ profile.id = id ∧
          s'.file = front ++ profile.acknowledge risk.kind print :: back
  | .error _ => ∀ json sha,
      (s.step json sha (.command disk (.acknowledge id riskId print))).file = s.file

section Attempts

variable (json : DockerJson) (sha : List UInt8 → List Char) (id : List Char)
  (run : List Char → Except String CommandOutput)

/-- A new attempt to connect, with the answers of the remote host. -/
def attemptHost (s : Hosts) : Hosts :=
  (((s.step json sha (.disconnect id)).step json sha (.ensure ⟨none, none⟩ none id)).step json sha
    (.probe s.sessions.length run))

/-- The session of the host goes on. -/
def Hosts.connects (s : Hosts) : Prop := ∃ session, s.session id = some session ∧
  session.state = .connecting

/-- The risks that the session of the host shows. -/
def Hosts.shown (s : Hosts) : List PendingRisk :=
  match (s.session id).map RemoteSession.state with
  | some (.awaitingAcknowledgement _ pendingRisks) => pendingRisks
  | _ => []

/-- The acknowledgement of a risk that is shown. -/
def acknowledgeShown (risk : PendingRisk) : HostsAction :=
  .command ⟨none, none⟩ (.acknowledge id risk.id risk.fingerprint.toList)

/-- The host is ready after at most so many acknowledgements, whichever of the risks that are shown
is acknowledged. -/
def ReadyAfter : ℕ → Hosts → Prop
  | 0, s => (attemptHost json sha id run s).connects id
  | n + 1, s =>
    (attemptHost json sha id run s).connects id ∨
      (attemptHost json sha id run s).shown id ≠ [] ∧
        ∀ risk ∈ (attemptHost json sha id run s).shown id,
          ReadyAfter n ((attemptHost json sha id run s).step json sha (acknowledgeShown id risk))

end Attempts

/-! ### Fingerprints -/

section Sound

variable {json : DockerJson} {sha : List UInt8 → List Char} {s : Hosts} {a : HostsAction}
  {accepted accepted' : List Grant} {profile : RemoteProfile}

theorem Granted.mono (h : Granted sha accepted profile) (hsub : accepted ⊆ accepted') :
    Granted sha accepted' profile := by
  intro kind print hprint
  obtain ⟨g, hg, hgrant⟩ := h kind print hprint
  exact ⟨g, hsub hg, hgrant⟩

theorem slot_acknowledge (profile : RemoteProfile) (kind : RiskKind) (print : List Char) :
    (profile.acknowledge kind print).riskAcknowledgements.slot kind = some print := by
  cases kind <;> rfl

theorem slot_acknowledge_of_ne {kind kind' : RiskKind} (h : kind' ≠ kind) (profile : RemoteProfile)
    (print : List Char) : (profile.acknowledge kind print).riskAcknowledgements.slot kind' =
      profile.riskAcknowledgements.slot kind' := by
  cases kind <;> cases kind' <;> first | rfl | exact absurd rfl h

/-- An acknowledgement is granted. -/
theorem Granted.acknowledge (h : Granted sha accepted profile) {kind : RiskKind}
    {fields : List (List Char)} :
    Granted sha (⟨kind, fields⟩ :: accepted)
      (profile.acknowledge kind (fingerprint sha fields)) := by
  intro kind' print hprint
  by_cases hkind : kind' = kind
  · rw [hkind, slot_acknowledge] at hprint
    cases hprint
    exact ⟨_, List.mem_cons_self, hkind.symm, rfl⟩
  · rw [slot_acknowledge_of_ne hkind] at hprint
    obtain ⟨g, hg, hgrant⟩ := h kind' print hprint
    exact ⟨g, List.mem_cons_of_mem _ hg, hgrant⟩

/-- What a session holds: granted fingerprints, and the fingerprints of the facts it has seen. -/
structure SoundSession (sha : List UInt8 → List Char) (accepted : List Grant)
    (digested : List (List UInt8)) (session : RemoteSession) : Prop where
  granted : Granted sha accepted session.profile
  shown : ∀ phase pendingRisks, session.state = .awaitingAcknowledgement phase pendingRisks →
    ∃ o, session.observed = some o ∧ ∀ risk ∈ pendingRisks, risk.fingerprint =
      String.ofList (fingerprint sha (risk.kind.fields session.profile o))
  digested : ∀ o, session.observed = some o → ∀ kind : RiskKind,
    message (kind.fields session.profile o) ∈ digested

structure Sound (sha : List UInt8 → List Char) (s : Hosts) : Prop where
  file : ∀ p ∈ s.file, Granted sha s.accepted p
  sessions : ∀ session ∈ s.sessions, SoundSession sha s.accepted s.digested session
  accepted : ∀ g ∈ s.accepted, message g.fields ∈ s.digested

theorem SoundSession.mono {digested digested' : List (List UInt8)} {session : RemoteSession}
    (h : SoundSession sha accepted digested session) (hsub : accepted ⊆ accepted')
    (hsub' : digested ⊆ digested') : SoundSession sha accepted' digested' session where
  granted := h.granted.mono hsub
  shown := h.shown
  digested o ho kind := hsub' (h.digested o ho kind)

/-- A session that shows no risks now. -/
theorem SoundSession.setState {digested : List (List UInt8)} {session : RemoteSession}
    (h : SoundSession sha accepted digested session) (task : SessionTask)
    {state : ConnectionState} (hstate : state.isAwaiting = false) :
    SoundSession sha accepted digested { session with task := task, state := state } where
  granted := h.granted
  shown phase pendingRisks heq := by
    dsimp only at heq
    rw [heq] at hstate
    cases hstate
  digested := h.digested

theorem Sound.boot : Sound sha .boot where
  file _ h := absurd h List.not_mem_nil
  sessions _ h := absurd h List.not_mem_nil
  accepted _ h := absurd h List.not_mem_nil

theorem Sound.setFile (h : Sound sha s) {file : List RemoteProfile}
    (hfile : ∀ p ∈ file, Granted sha s.accepted p) : Sound sha { s with file := file } :=
  ⟨hfile, h.sessions, h.accepted⟩

theorem Sound.setSession (h : Sound sha s) (n : ℕ) {session : RemoteSession}
    (hsession : SoundSession sha s.accepted s.digested session) :
    Sound sha (s.setSession n session) := by
  refine ⟨h.file, fun session' hsession' => ?_, h.accepted⟩
  obtain hmem | rfl := List.mem_or_eq_of_mem_set hsession'
  · exact h.sessions session' hmem
  · exact hsession

theorem Sound.digest (h : Sound sha s) (messages : List (List UInt8)) :
    Sound sha { s with digested := messages ++ s.digested } where
  file := h.file
  sessions session hsession :=
    (h.sessions session hsession).mono (List.Subset.refl _) (List.subset_append_right _ _)
  accepted g hg := List.mem_append_right _ (h.accepted g hg)

/-- The session that is stopped is set to a state that shows nothing. -/
theorem Sound.stopRemote (h : Sound sha s) (id : List Char) : Sound sha (s.stopRemote id) := by
  unfold Hosts.stopRemote
  split
  · next n _ =>
    refine ⟨h.file, fun session hsession => ?_, h.accepted⟩
    obtain ⟨i, hi⟩ := List.mem_iff_getElem?.mp hsession
    rw [List.getElem?_modify] at hi
    obtain ⟨old, hold, rfl⟩ := Option.map_eq_some_iff.mp hi
    have hsound : SoundSession sha s.accepted s.digested old :=
      h.sessions old (List.mem_of_getElem? hold)
    split
    · exact hsound.setState old.task rfl
    · exact hsound
  · exact h

/-- Some facts are acknowledged that a session has seen. -/
theorem Sound.accept (h : Sound sha s) {g : Grant} (hg : message g.fields ∈ s.digested) :
    Sound sha { s with accepted := g :: s.accepted } where
  file p hp := (h.file p hp).mono (List.subset_cons_self _ _)
  sessions session hsession :=
    (h.sessions session hsession).mono (List.subset_cons_self _ _) (List.Subset.refl _)
  accepted g' hg' := by
    obtain rfl | hg' := List.mem_cons.mp hg'
    · exact hg
    · exact h.accepted g' hg'

/-! ### Steps -/

/-- **An acknowledgement is of facts that its session has seen.** -/
theorem Sound.acknowledge (h : Sound sha s) {disk : Disk} {id fingerprint : List Char}
    {riskId : String} {s' : Hosts} (hok : acknowledgeRisk s disk id riskId fingerprint = .ok s') :
    Sound sha s' := by
  obtain ⟨session, phase, pendingRisks, hsession, hstate, risk, hrisk, -, hprint, missing,
    profiles, hedit, rfl⟩ := acknowledgeRisk_eq_ok hok
  obtain ⟨n, -, hn⟩ := Option.bind_eq_some_iff.mp hsession
  have hsound : SoundSession sha s.accepted s.digested session :=
    h.sessions session (List.mem_of_getElem? hn)
  obtain ⟨o, ho, hshown⟩ := hsound.shown phase pendingRisks hstate
  have hgrant : session.grant risk.kind = ⟨risk.kind, risk.kind.fields session.profile o⟩ := by
    rw [RemoteSession.grant, ho]
    rfl
  -- the fingerprint of the call is the one that is shown
  have hfingerprint : fingerprint =
      Desktop.fingerprint sha (risk.kind.fields session.profile o) :=
    String.ofList_injective (hprint.symm.trans (hshown risk hrisk))
  rw [hgrant]
  have haccept := h.accept (g := ⟨risk.kind, risk.kind.fields session.profile o⟩)
    (hsound.digested o ho risk.kind)
  have hfile : ∀ p ∈ profiles,
      Granted sha (⟨risk.kind, risk.kind.fields session.profile o⟩ :: s.accepted) p := by
    intro p hp
    obtain hp | ⟨old, hold, -, hb⟩ := Keyed.mem_editFirst hedit hp
    · exact haccept.file p hp
    · obtain ⟨-, rfl⟩ := acknowledged_eq_ok.mp hb
      rw [hfingerprint]
      exact (h.file old hold).acknowledge
  have hstop := (haccept.setFile hfile).stopRemote id
  unfold Hosts.stopRemote at hstop ⊢
  dsimp only at hstop ⊢
  cases hn' : s.remote id with
  | none =>
    rw [hn'] at hstop
    exact hstop
  | some n' =>
    rw [hn'] at hstop
    exact hstop

/-- A preflight shows the fingerprints of the facts it has seen. -/
theorem Sound.probe (h : Sound sha s) (n : ℕ) {session : RemoteSession}
    (hsession : SoundSession sha s.accepted s.digested session)
    (run : List Char → Except String CommandOutput) :
    Sound sha (s.probe json sha n session run) := by
  unfold Hosts.probe
  split
  · exact h.setSession n (hsession.setState .bridging rfl)
  · next containerName user workdir root htarget =>
    dsimp only
    generalize hobserved : (observe json sha session.profile run).toOption = observed
    have hdigested : ∀ o, observed = some o → ∀ kind : RiskKind,
        message (kind.fields session.profile o) ∈ (observed.toList.flatMap fun o =>
          [RiskKind.rootExecution, .ephemeralData].map fun kind =>
            message (kind.fields session.profile o)) ++ s.digested := by
      rintro o rfl kind
      refine List.mem_append_left _ ?_
      rw [Option.toList_some, List.flatMap_singleton]
      exact List.mem_map_of_mem kind.mem_kinds
    split
    · refine (h.digest _).setSession n ⟨hsession.granted, ?_, hdigested⟩
      intro phase pendingRisks hstate
      cases hstate
    · next phase pending hpreflight =>
      refine (h.digest _).setSession n ⟨hsession.granted, ?_, hdigested⟩
      rintro phase' pendingRisks' hstate
      cases hstate
      obtain ⟨-, -, -, -, o, -, ho⟩ := observe_of_preflightDocker hpreflight
      rw [preflightDocker_of_observe htarget ho] at hpreflight
      refine ⟨o, ?_, fun risk hrisk => ?_⟩
      · rw [← hobserved, ho]
        rfl
      · split at hpreflight
        · cases hpreflight
        · cases hpreflight
          obtain ⟨-, -, hrisk⟩ := mem_pendingRisks.mp hrisk
          exact congrArg PendingRisk.fingerprint hrisk
    · refine (h.digest _).setSession n ⟨hsession.granted, ?_, hdigested⟩
      intro phase pendingRisks hstate
      cases hstate

/-- A new session has a profile of the file. -/
theorem Sound.start (h : Sound sha s) {id : List Char} (hprofile : profile ∈ s.file) :
    Sound sha (s.start id profile) := by
  refine ⟨h.file, fun session hsession => ?_, h.accepted⟩
  obtain hmem | hmem := List.mem_append.mp hsession
  · exact h.sessions session hmem
  · rw [List.mem_singleton.mp hmem]
    exact ⟨h.file profile hprofile, fun _ _ hstate => (by cases hstate),
      fun _ ho => (by cases ho)⟩

/-- A command that edits the file brings no fingerprints but those that were acknowledged. -/
theorem Sound.edit (h : Sound sha s) {disk : Disk} {c : ProfileCommand}
    (hc : Untampered sha s (.command disk c)) {s' : Hosts} (hok : c.edit s disk = .ok s') :
    Sound sha s' := by
  cases c with
  | add profile =>
    obtain ⟨hvalid, hload, hsave, rfl⟩ := addRemoteProfile_eq_ok.mp hok
    refine h.setFile fun p hp => ?_
    obtain hp | hp := List.mem_append.mp hp
    · exact h.file p hp
    · rw [List.mem_singleton.mp hp]
      exact hc hvalid hload hsave
  | update profile =>
    obtain ⟨hvalid, hload, hsave, missing, profiles, hedit, rfl⟩ := updateRemoteProfile_eq_ok hok
    refine h.setFile fun p hp => ?_
    obtain hp | ⟨old, hold, hid, hb⟩ := Keyed.mem_editFirst hedit hp
    · exact h.file p hp
    · cases hb
      exact hc hvalid hload hsave (hid ▸ List.mem_map_of_mem hold)
  | delete id =>
    obtain ⟨-, -, -, rfl⟩ := deleteRemoteProfile_eq_ok.mp hok
    have hstop : Sound sha (s.stopRemote id) := h.stopRemote id
    exact hstop.setFile fun p hp => hstop.file p (List.mem_of_mem_filter hp)
  | acknowledge id riskId fingerprint => exact h.acknowledge hok

/-- **What each step keeps of the fingerprints**, when the profiles that are written bring none of
their own. -/
theorem Sound.step (h : Sound sha s) (ha : Untampered sha s a) : Sound sha (s.step json sha a) :=
  step_cases s a h (fun _ _ _ hac hok => h.edit (hac ▸ ha) hok) h.stopRemote
    (fun _ _ hprofile => h.start hprofile)
    (fun n run session hsession => h.probe n (h.sessions session hsession) run)
    (fun n session hsession _ hstate =>
      h.setSession n ((h.sessions session hsession).setState session.task hstate))

/-! ### Digests -/

theorem stopRemote_digested (s : Hosts) (id : List Char) :
    (s.stopRemote id).digested = s.digested := by
  unfold Hosts.stopRemote
  split <;> rfl

/-- What a preflight digests: the facts of what it sees. -/
theorem probe_digested (s : Hosts) (n : ℕ) (session : RemoteSession)
    (run : List Char → Except String CommandOutput) :
    s.digested ⊆ (s.probe json sha n session run).digested ∧
      ∀ o, observe json sha session.profile run = .ok o → ∀ kind : RiskKind,
        message (kind.fields session.profile o) ∈ (s.probe json sha n session run).digested := by
  unfold Hosts.probe
  split
  · next htarget =>
    refine ⟨List.Subset.refl _, fun o ho => ?_⟩
    obtain ⟨containerName, user, workdir, root, hdocker⟩ := target_of_observe ho
    cases htarget.symm.trans hdocker
  · dsimp only
    have hsub : ∀ messages : List (List UInt8), s.digested ⊆ messages ++ s.digested :=
      fun messages => List.subset_append_right _ _
    have hmem : ∀ o, observe json sha session.profile run = .ok o → ∀ kind : RiskKind,
        message (kind.fields session.profile o) ∈
          ((observe json sha session.profile run).toOption.toList.flatMap fun o =>
            [RiskKind.rootExecution, .ephemeralData].map fun kind =>
              message (kind.fields session.profile o)) ++ s.digested := by
      intro o ho kind
      rw [ho]
      refine List.mem_append_left _ ?_
      show _ ∈ [o].flatMap _
      rw [List.flatMap_singleton]
      exact List.mem_map_of_mem kind.mem_kinds
    split
    · exact ⟨hsub _, hmem⟩
    · exact ⟨hsub _, hmem⟩
    · exact ⟨hsub _, hmem⟩

/-- What was digested stays. -/
theorem digested_step (s : Hosts) (a : HostsAction) :
    s.digested ⊆ (s.step json sha a).digested := by
  refine step_cases (P := fun t => s.digested ⊆ t.digested) s a (List.Subset.refl _) ?_
    (fun id => by rw [stopRemote_digested]; exact List.Subset.refl _)
    (fun _ _ _ => List.Subset.refl _) (fun n run session _ => (probe_digested s n session run).1)
    (fun _ _ _ _ _ => List.Subset.refl _)
  intro disk c s' _ hok
  cases c with
  | add profile =>
    obtain ⟨-, -, -, rfl⟩ := addRemoteProfile_eq_ok.mp hok
    exact List.Subset.refl _
  | update profile =>
    obtain ⟨-, -, -, -, profiles, -, rfl⟩ := updateRemoteProfile_eq_ok hok
    exact List.Subset.refl _
  | delete id =>
    obtain ⟨-, -, -, rfl⟩ := deleteRemoteProfile_eq_ok.mp hok
    dsimp only
    rw [stopRemote_digested]
    exact List.Subset.refl _
  | acknowledge id riskId fingerprint =>
    obtain ⟨session, -, -, -, -, risk, -, -, -, missing, profiles, -, rfl⟩ :=
      acknowledgeRisk_eq_ok hok
    dsimp only
    rw [stopRemote_digested]
    exact List.Subset.refl _

/-- Each state of a run has digested no more than the last one. -/
theorem along_digested (s : Hosts) (acts : List HostsAction) :
    Along (Hosts.step json sha)
      (fun t a => (t.step json sha a).digested ⊆ (acts.foldl (Hosts.step json sha) s).digested)
      s acts := by
  induction acts generalizing s with
  | nil => trivial
  | cons a acts ih =>
    refine ⟨?_, ih (s.step json sha a)⟩
    exact foldl_invariant
      (I := fun t : Hosts => (s.step json sha a).digested ⊆ t.digested)
      (fun t b ht => List.Subset.trans ht (digested_step t b)) (List.Subset.refl _) acts

/-- **A preflight that comes out ready has seen no risk that was not acknowledged**, where the
digest has no collision. -/
theorem Sound.gated (h : Sound sha s) {messages : Set (List UInt8)} (hsha : Set.InjOn sha messages)
    (hdigested : ∀ m ∈ (s.step json sha a).digested, m ∈ messages) : Gated json sha s a := by
  cases a with
  | probe n run =>
    intro session hsession htask o target ho hready kind hpresent
    have hsound : SoundSession sha s.accepted s.digested session :=
      h.sessions session (List.mem_of_getElem? hsession)
    have hslot : session.profile.riskAcknowledgements.slot kind =
        some (fingerprint sha (kind.fields session.profile o)) :=
      (preflightDocker_ready ho).mp ⟨target, hready⟩ kind hpresent
    -- the slot was granted for some facts, and these are the same
    obtain ⟨g, hg, hkind, hprint⟩ := hsound.granted kind _ hslot
    have hfields : kind.fields session.profile o = g.fields := by
      refine fields_of_fingerprint_eq hsha (hdigested _ ?_)
        (hdigested _ (digested_step s _ (h.accepted g hg))) hprint
      unfold Hosts.step
      dsimp only
      rw [hsession]
      dsimp only
      rw [if_pos htask]
      exact (probe_digested s n session run).2 o ho kind
    rw [hfields, ← hkind]
    exact hg
  | _ => trivial

/-- **In an untampered run no risk is run that was not acknowledged.** -/
theorem gated_of_untampered {acts : List HostsAction}
    (hacts : Along (Hosts.step json sha) (Untampered sha) .boot acts)
    (hsha : Set.InjOn sha { m | m ∈ (Hosts.run json sha acts).digested }) :
    Along (Hosts.step json sha) (Gated json sha) .boot acts :=
  (hacts.and (along_digested .boot acts)).mono (fun _ _ hs hc => hs.step hc.1)
    (fun _ _ hs hc => hs.gated hsha fun _ hm => hc.2 hm) Sound.boot

end Sound

/-! ### Acknowledgements -/

/-- **What an acknowledgement accepts, and what it changes.** -/
theorem acceptsPending (s : Hosts) (disk : Disk) (id : List Char) (riskId : String)
    (print : List Char) : AcceptsPending s disk id riskId print := by
  unfold AcceptsPending
  split
  · next s' hok =>
    obtain ⟨session, phase, pendingRisks, hsession, hstate, risk, hrisk, hid, hprint, missing,
      profiles, hedit, rfl⟩ := acknowledgeRisk_eq_ok hok
    obtain ⟨front, profile, profile', back, hfile, -, hprofile, hacknowledged, rfl⟩ :=
      Keyed.editFirst_eq_ok.mp hedit
    obtain ⟨-, rfl⟩ := acknowledged_eq_ok.mp hacknowledged
    refine ⟨session, phase, pendingRisks, hsession, hstate, risk, hrisk, hid, hprint, front,
      profile, back, hfile, hprofile, ?_⟩
    exact stopRemote_file _ id
  · next e herror =>
    intro json sha
    unfold Hosts.step ProfileCommand.edit
    dsimp only
    rw [herror]
    rfl

section Ready

variable {json : DockerJson} {sha : List UInt8 → List Char} {s : Hosts} {id : List Char}
  {profile : RemoteProfile} {run : List Char → Except String CommandOutput} {o : Observed}

theorem RiskAcknowledgements.invalid_eq_none_iff {risks : RiskAcknowledgements} :
    risks.invalid = none ↔
      ∀ kind print, risks.slot kind = some print → validFingerprint print = true := by
  unfold RiskAcknowledgements.invalid
  rw [List.find?_eq_none]
  constructor
  · intro h kind print hslot
    have hmem : print ∈ [risks.rootFingerprint, risks.ephemeralFingerprint].filterMap id := by
      refine List.mem_filterMap.mpr ⟨risks.slot kind, ?_, hslot⟩
      cases kind with
      | rootExecution => exact List.mem_cons_self
      | ephemeralData => exact List.mem_cons_of_mem _ List.mem_cons_self
    simpa using h print hmem
  · intro h print hmem
    obtain ⟨slot, hslot, rfl⟩ := List.mem_filterMap.mp hmem
    obtain hslot | hslot := List.mem_cons.mp hslot
    · simpa using h .rootExecution print hslot.symm
    · rw [List.mem_singleton] at hslot
      simpa using h .ephemeralData print hslot.symm

/-- A profile stays valid when a fingerprint is put into it. -/
theorem validate_acknowledge (h : profile.validate = .ok ()) (kind : RiskKind) {print : List Char}
    (hprint : validFingerprint print = true) :
    (profile.acknowledge kind print).validate = .ok () := by
  have hinvalid : profile.riskAcknowledgements.invalid = none →
      (profile.acknowledge kind print).riskAcknowledgements.invalid = none := by
    rw [RiskAcknowledgements.invalid_eq_none_iff, RiskAcknowledgements.invalid_eq_none_iff]
    intro hold kind' print' hslot
    by_cases hkind : kind' = kind
    · rw [hkind, slot_acknowledge] at hslot
      cases hslot
      exact hprint
    · rw [slot_acknowledge_of_ne hkind] at hslot
      exact hold kind' print' hslot
  unfold RemoteProfile.validate at h ⊢
  split_ifs at h with hid hlabel hdestination hport
  rw [if_neg (by exact hid), if_neg (by exact hlabel), if_neg (by exact hdestination),
    if_neg (by exact hport)]
  obtain ⟨u, htarget, hrisks⟩ := bind_eq_ok.mp h
  refine bind_eq_ok.mpr ⟨u, htarget, ?_⟩
  cases hslots : profile.riskAcknowledgements.invalid with
  | some print' =>
    rw [hslots] at hrisks
    cases hrisks
  | none => rw [hinvalid hslots]; rfl

/-- **An acknowledged risk is not shown again**, and the others are shown as before. -/
theorem pendingRisks_acknowledge (kind : RiskKind) :
    pendingRisks sha (profile.acknowledge kind (fingerprint sha (kind.fields profile o))) o =
      (pendingRisks sha profile o).filter (·.kind ≠ kind) := by
  unfold pendingRisks
  rw [List.filter_filterMap]
  refine List.filterMap_congr fun kind' _ => ?_
  have hfields : ∀ print, kind'.fields (profile.acknowledge kind print) o =
      kind'.fields profile o := fun _ => RiskKind.fields_congr rfl rfl kind'
  dsimp only
  rw [hfields]
  by_cases hkind : kind' = kind
  · rw [hkind, slot_acknowledge, if_neg fun h => h.2 rfl]
    split
    · simp [Option.filter]
    · rfl
  · rw [slot_acknowledge_of_ne hkind]
    split
    · simp [Option.filter, hkind]
    · rfl

theorem length_pendingRisks_acknowledge {risk : PendingRisk}
    (hrisk : risk ∈ pendingRisks sha profile o) :
    (pendingRisks sha (profile.acknowledge risk.kind
      (fingerprint sha (risk.kind.fields profile o))) o).length <
        (pendingRisks sha profile o).length := by
  rw [pendingRisks_acknowledge]
  exact List.length_filter_lt_length_iff_exists.mpr ⟨risk, hrisk, by simp⟩

theorem RiskKind.text_injective : Function.Injective RiskKind.text := by
  intro kind kind' h
  cases kind <;> cases kind' <;> first | rfl | exact absurd h (by decide)

/-- What a session comes to, when its preflight sees the container. -/
theorem probe_session {n : ℕ} (hn : n < s.sessions.length) (session : RemoteSession)
    (ho : observe json sha session.profile run = .ok o) :
    ∃ session', (s.probe json sha n session run).sessions[n]? = some session' ∧
      session'.state = if pendingRisks sha session.profile o = [] then .connecting
        else .awaitingAcknowledgement .checkingPersistence
          (pendingRisks sha session.profile o) := by
  obtain ⟨containerName, user, workdir, root, htarget⟩ := target_of_observe ho
  unfold Hosts.probe
  rw [htarget]
  dsimp only
  rw [preflightDocker_of_observe htarget ho]
  split
  · next hready =>
    split at hready
    · next hpending => exact ⟨_, List.getElem?_set_self hn, (if_pos hpending).symm⟩
    · cases hready
  · next phase pending hawaiting =>
    split at hawaiting
    · cases hawaiting
    · next hpending =>
      cases hawaiting
      exact ⟨_, List.getElem?_set_self hn, (if_neg hpending).symm⟩
  · next herror => cases herror

/-- What a new attempt comes to, when its preflight sees the container. -/
theorem attemptHost_session (hfind : s.file.find? (·.id = id) = some profile)
    (hvalid : profile.validate = .ok ()) (ho : observe json sha profile run = .ok o) :
    (attemptHost json sha id run s).file = s.file ∧
      ∃ session, (attemptHost json sha id run s).session id = some session ∧
        session.state = if pendingRisks sha profile o = [] then .connecting
          else .awaitingAcknowledgement .checkingPersistence (pendingRisks sha profile o) := by
  -- the session there was is stopped, so a new one starts
  have hok : ensureRemoteHost (s.stopRemote id) ⟨none, none⟩ none id =
      .ok ((s.stopRemote id).start id profile) := by
    refine ensureRemoteHost_eq_ok.mpr ⟨rfl, profile, ?_, hvalid, Or.inr ⟨?_, rfl, rfl⟩⟩
    · rw [stopRemote_file]
      exact hfind
    · rw [stopRemote_remote, PMap.erase_self]
  have hlength : (s.stopRemote id).sessions.length = s.sessions.length := length_stopRemote s id
  have hlast : ((s.stopRemote id).start id profile).sessions[s.sessions.length]? =
      some ⟨profile, .probing, .testingSsh, none⟩ := by
    rw [← hlength]
    exact List.getElem?_concat_length
  have hlt : s.sessions.length < ((s.stopRemote id).start id profile).sessions.length :=
    (List.getElem?_eq_some_iff.mp hlast).1
  have hattempt : attemptHost json sha id run s =
      ((s.stopRemote id).start id profile).probe json sha s.sessions.length
        ⟨profile, .probing, .testingSsh, none⟩ run := by
    show Hosts.step json sha (Hosts.step json sha (s.stopRemote id) (.ensure ⟨none, none⟩ none id))
      (.probe s.sessions.length run) = _
    have hensure : (s.stopRemote id).step json sha (.ensure ⟨none, none⟩ none id) =
        (s.stopRemote id).start id profile := by
      unfold Hosts.step
      dsimp only
      rw [hok]
    rw [hensure]
    unfold Hosts.step
    dsimp only
    rw [hlast]
    exact if_pos rfl
  rw [hattempt]
  refine ⟨by rw [probe_file]; exact stopRemote_file s id, ?_⟩
  obtain ⟨session, hsession, hstate⟩ :=
    probe_session hlt ⟨profile, .probing, .testingSsh, none⟩ ho
  refine ⟨session, ?_, hstate⟩
  rw [Hosts.session, (length_probe _ _ _ _).2]
  show ((s.stopRemote id).remote.insert id (s.stopRemote id).sessions.length id).bind _ = _
  rw [PMap.insert_self, Option.bind_some, hlength]
  exact hsession

/-- **A risk that is shown can be acknowledged**, and its fingerprint is in the profile then. -/
theorem acknowledge_shown {session : RemoteSession} (hsession : s.session id = some session)
    (hstate : session.state =
      .awaitingAcknowledgement .checkingPersistence (pendingRisks sha profile o))
    (hfind : s.file.find? (·.id = id) = some profile) (hvalid : profile.validate = .ok ())
    (hsha : ∀ m, validFingerprint (sha m) = true) {risk : PendingRisk}
    (hrisk : risk ∈ pendingRisks sha profile o) :
    (s.step json sha (acknowledgeShown id risk)).file.find? (·.id = id) =
      some (profile.acknowledge risk.kind (fingerprint sha (risk.kind.fields profile o))) := by
  have hprint : risk.fingerprint.toList =
      fingerprint sha (risk.kind.fields profile o) := by
    obtain ⟨-, -, hrisk'⟩ := mem_pendingRisks.mp hrisk
    rw [congrArg PendingRisk.fingerprint hrisk']
    exact String.toList_ofList
  -- the risk that the call finds is of the same kind
  obtain ⟨risk', hfound, hkind⟩ : ∃ risk', (pendingRisks sha profile o).find? (fun r =>
      r.id = risk.id ∧ r.fingerprint = String.ofList risk.fingerprint.toList) = some risk' ∧
        risk'.kind = risk.kind := by
    cases hfound : (pendingRisks sha profile o).find? (fun r =>
        r.id = risk.id ∧ r.fingerprint = String.ofList risk.fingerprint.toList) with
    | none => exact absurd (List.find?_eq_none.mp hfound risk hrisk) (by simp)
    | some risk' =>
      obtain ⟨hid, -⟩ : risk'.id = risk.id ∧ risk'.fingerprint = risk.fingerprint := by
        simpa using List.find?_some hfound
      obtain ⟨-, -, h⟩ := mem_pendingRisks.mp hrisk
      obtain ⟨-, -, h'⟩ := mem_pendingRisks.mp (List.mem_of_find?_eq_some hfound)
      rw [congrArg PendingRisk.id h, congrArg PendingRisk.id h'] at hid
      exact ⟨risk', rfl, RiskKind.text_injective hid⟩
  obtain ⟨hid, front, back, hfile, hfront⟩ := List.find?_eq_some_iff_append.mp hfind
  have hnotMem : id ∉ front.map RemoteProfile.id := by
    intro hmem
    obtain ⟨p, hp, hpid⟩ := List.mem_map.mp hmem
    simpa [hpid] using hfront p hp
  have hprofile : profile.id = id := of_decide_eq_true hid
  have hacknowledged : RemoteProfile.acknowledged risk.kind risk.fingerprint.toList profile =
      .ok (profile.acknowledge risk.kind risk.fingerprint.toList) :=
    acknowledged_eq_ok.mpr
      ⟨validate_acknowledge hvalid risk.kind (by rw [hprint]; exact hsha _), rfl⟩
  have hok : acknowledgeRisk s ⟨none, none⟩ id risk.id risk.fingerprint.toList =
      .ok { ({ s with file := front ++
          profile.acknowledge risk.kind risk.fingerprint.toList :: back } : Hosts).stopRemote id
        with
        accepted := session.grant risk.kind :: s.accepted } := by
    unfold acknowledgeRisk
    rw [hsession]
    dsimp only
    rw [hstate]
    dsimp only
    rw [hfound]
    dsimp only
    rw [hkind]
    refine bind_eq_ok.mpr ⟨s.file, rfl, bind_eq_ok.mpr ⟨_, Keyed.editFirst_eq_ok.mpr
      ⟨front, profile, _, back, hfile, hnotMem, hprofile, hacknowledged, rfl⟩,
      bind_eq_ok.mpr ⟨_, rfl, rfl⟩⟩⟩
  unfold Hosts.step acknowledgeShown ProfileCommand.edit
  dsimp only
  rw [hok]
  dsimp only
  rw [stopRemote_file, hprint]
  refine List.find?_eq_some_iff_append.mpr ⟨decide_eq_true hprofile, front, back, rfl, hfront⟩

/-- **Each acknowledgement leaves one risk fewer.** -/
theorem readyAfter_of_length_le (hsha : ∀ m, validFingerprint (sha m) = true) {n : ℕ}
    (hfind : s.file.find? (·.id = id) = some profile) (hvalid : profile.validate = .ok ())
    (ho : observe json sha profile run = .ok o)
    (hn : (pendingRisks sha profile o).length ≤ n) : ReadyAfter json sha id run n s := by
  induction n generalizing s profile with
  | zero =>
    obtain ⟨-, session, hsession, hstate⟩ := attemptHost_session hfind hvalid ho
    rw [if_pos (List.length_eq_zero_iff.mp (Nat.le_zero.mp hn))] at hstate
    exact ⟨session, hsession, hstate⟩
  | succ n ih =>
    obtain ⟨hfile, session, hsession, hstate⟩ := attemptHost_session hfind hvalid ho
    by_cases hpending : pendingRisks sha profile o = []
    · rw [if_pos hpending] at hstate
      exact Or.inl ⟨session, hsession, hstate⟩
    · rw [if_neg hpending] at hstate
      have hshown : (attemptHost json sha id run s).shown id = pendingRisks sha profile o := by
        rw [Hosts.shown, hsession, Option.map_some, hstate]
      refine Or.inr ⟨by rw [hshown]; exact hpending, fun risk hrisk => ?_⟩
      rw [hshown] at hrisk
      have hfind' : (attemptHost json sha id run s).file.find? (·.id = id) = some profile := by
        rw [hfile]
        exact hfind
      refine ih (acknowledge_shown hsession hstate hfind' hvalid hsha hrisk)
        (validate_acknowledge hvalid risk.kind (hsha _)) ho ?_
      exact Nat.le_of_lt_succ ((length_pendingRisks_acknowledge hrisk).trans_le hn)

/-- There are two kinds of risks. -/
theorem length_pendingRisks_le : (pendingRisks sha profile o).length ≤ 2 :=
  List.length_filterMap_le _ _

end Ready

/-- **The gate of the risks.**  In a run where profiles bring no fingerprints of their own, nothing
is run at a risk that was not acknowledged, of the facts that were seen; an acknowledgement is of a
risk that is shown, and changes one fingerprint; and a host whose container stays as it is seen is
ready after two of them at most. -/
theorem risk_gate (json : DockerJson) (sha : List UInt8 → List Char) :
    (∀ acts, Along (Hosts.step json sha) (Untampered sha) .boot acts →
      Set.InjOn sha { m | m ∈ (Hosts.run json sha acts).digested } →
      Along (Hosts.step json sha) (Gated json sha) .boot acts) ∧
    (∀ s disk id riskId print, AcceptsPending s disk id riskId print) ∧
    ((∀ m, validFingerprint (sha m) = true) → ∀ acts id profile run o,
      (Hosts.run json sha acts).file.find? (·.id = id) = some profile →
      observe json sha profile run = .ok o →
      ReadyAfter json sha id run 2 (Hosts.run json sha acts)) := by
  refine ⟨fun acts hacts hsha => gated_of_untampered hacts hsha, acceptsPending, ?_⟩
  intro hsha acts id profile run o hfind ho
  have hvalid : profile.validate = .ok () :=
    hosts_valid json sha acts profile (List.mem_of_find?_eq_some hfind)
  exact readyAfter_of_length_le hsha hfind hvalid ho length_pendingRisks_le

/-! ### A container -/

/-- The profile of a container whose user is root. -/
def dockerStudio (risks : RiskAcknowledgements) : RemoteProfile :=
  { studio with
    executionTarget := .dockerContainer "dev".toList "root".toList none "/data/pantoken".toList
    riskAcknowledgements := risks }

/-- The container has no mounts. -/
def devJson : DockerJson where
  record _ := some ⟨"c0ffee".toList, "dev".toList, "running"⟩
  inspect _ := some [⟨"c0ffee".toList, true, false, false, false, []⟩]

/-- Each command succeeds, and the last one prints the user. -/
def rootAnswer (_ : List Char) : Except String CommandOutput :=
  .ok ⟨"0|0|/root".toList, [], some 0⟩

def devObserved : Observed :=
  ⟨"c0ffee".toList, 0, 0, .ephemeralWritableLayer, "<no-covering-mount>".toList, "writableLayer",
    "readWrite", "<writable-layer>".toList⟩

def devRootFingerprint : List Char :=
  "52a9491eb411c222b686ff4cba5263933f8e80312e1d40eaac2a9ff230d22050".toList

def devEphemeralFingerprint : List Char :=
  "51ab7682d525996ff8cebb075c3b6d29b7b1ee1747c9036dc7d1165c6b144e4a".toList

/-- SHA-256 on the facts of the container. -/
def devSha (m : List UInt8) : List Char :=
  if m = Utf8.encode "1:16:studio3:dev6:c0ffee4:root1:01:0".toList then devRootFingerprint
  else devEphemeralFingerprint

theorem observe_dockerStudio (risks : RiskAcknowledgements) :
    observe devJson devSha (dockerStudio risks) rootAnswer = .ok devObserved := by
  have hrunning : resolveExactRunning [⟨"c0ffee".toList, "dev".toList, "running"⟩] "dev".toList =
      .ok ⟨"c0ffee".toList, "dev".toList, "running"⟩ := by
    unfold resolveExactRunning
    exact if_pos (by decide +kernel)
  refine bind_eq_ok.mpr ⟨_, rfl, bind_eq_ok.mpr ⟨_, rfl, bind_eq_ok.mpr ⟨_, rfl,
    bind_eq_ok.mpr ⟨_, congrArg (Except.mapError DockerTargetError.text) hrunning, ?_⟩⟩⟩⟩
  rfl

/-- A profile is added and its container is looked at. -/
def preflighted (risks : RiskAcknowledgements) : List HostsAction :=
  [.command ⟨none, none⟩ (.add (dockerStudio risks)), .ensure ⟨none, none⟩ none "studio".toList,
    .probe 0 rootAnswer]

theorem risk_gate_studio :
    Along (Hosts.step devJson devSha) (Gated devJson devSha) .boot (preflighted ⟨none, none⟩) ∧
      ReadyAfter devJson devSha "studio".toList rootAnswer 2
        (Hosts.run devJson devSha (preflighted ⟨none, none⟩)) := by
  refine ⟨(risk_gate devJson devSha).1 _ ?_ ?_,
    (risk_gate devJson devSha).2.2 ?_ _ _ (dockerStudio ⟨none, none⟩) _ devObserved ?_
      (observe_dockerStudio _)⟩
  · refine ⟨?_, trivial, trivial, trivial⟩
    intro _ _ _ kind print hprint
    cases kind <;> cases hprint
  · have hinj : ∀ m ∈ (Hosts.run devJson devSha (preflighted ⟨none, none⟩)).digested,
        ∀ m' ∈ (Hosts.run devJson devSha (preflighted ⟨none, none⟩)).digested,
          devSha m = devSha m' → m = m' := by
      decide +kernel
    intro m hm m' hm' heq
    exact hinj m hm m' hm' heq
  · intro m
    unfold devSha
    split
    · decide
    · decide
  · decide +kernel

/-- The profile that is added has the fingerprints of both risks, and no one acknowledged them. -/
theorem not_gated :
    ¬ Along (Hosts.step devJson devSha) (Gated devJson devSha) .boot
      (preflighted ⟨some devRootFingerprint, some devEphemeralFingerprint⟩) := by
  rintro ⟨-, -, hprobe, -⟩
  obtain ⟨target, hready⟩ := (preflightDocker_ready (observe_dockerStudio
    ⟨some devRootFingerprint, some devEphemeralFingerprint⟩)).mpr (by
      intro kind _
      cases kind <;> decide +kernel)
  cases hprobe _ rfl rfl devObserved target (observe_dockerStudio _) hready .rootExecution rfl

end Pantoken.Desktop
