import Pantoken.Desktop.Preflight
import Pantoken.Lib.Keyed
import Pantoken.Lib.PMap
import Pantoken.Lib.Run

/-!
# The store of remote profiles

The profiles of the remote hosts are a list in a file, and each command on them loads the list,
edits it and writes it again.  A host that the user connects to has a session, which starts with
the profile of that time; its task looks at the container and tells what it finds, and a session
that is stopped may still have a task that does.

## Main definitions

* `addRemoteProfile`, `updateRemoteProfile`, `deleteRemoteProfile`, `acknowledgeRisk` — the
  commands on the profiles.
* `ensureRemoteHost`, `Hosts.probe` — a session, and its task.
* `Hosts.step` — the commands, and the tasks of the sessions.
* `Faithful` — a step that uses the file as a map.
* `Distinct` — a profile is added under a new id, and one with a session is there to be deleted.

## Main results

* `hosts_valid` — the stored profiles validate in every run.
* `faithful_iff` — **the file is used as a map exactly in the runs whose steps are distinct.**
* `not_faithful` — a profile that is added twice.
-/

namespace Pantoken.Desktop

/-! ### The commands -/

/-- The text of a `RemoteProfileError`. -/
def RemoteProfileError.text : RemoteProfileError → String
  | .emptyId => "profile id must not be empty"
  | .emptyLabel => "profile label must not be empty"
  | .emptyDestination => "ssh_destination must not be empty"
  | .invalidPort port => "port " ++ toString port.toNat ++ " is invalid (must be 1..=65535)"
  | .emptyContainerName => "container name must not be empty"
  | .invalidContainerUser => "container user is invalid"
  | .invalidPath path => "unsafe absolute path: " ++ String.ofList path
  | .invalidFingerprint _ => "risk fingerprint must be lowercase SHA-256 hex"

/-- Where the task of a session is. -/
inductive SessionTask
  | probing
  /-- The preflight is over, and the bridge may run. -/
  | bridging
  | returned
  deriving DecidableEq

/-- `RemoteSession`, with its task. -/
structure RemoteSession where
  /-- The profile that the task has. -/
  profile : RemoteProfile
  task : SessionTask
  /-- The state of its `RemoteConnection`. -/
  state : ConnectionState
  /-- What its preflight has seen. -/
  observed : Option Observed

/-- Some facts, acknowledged as a risk of a kind. -/
structure Grant where
  kind : RiskKind
  fields : List (List Char)

/-- The part of `AppState` the commands read, and the file. -/
structure Hosts where
  file : List RemoteProfile
  /-- All sessions that were started. -/
  sessions : List RemoteSession
  /-- The session of an id, as the place of the session above. -/
  remote : PMap (List Char) ℕ
  /-- What calls of `acknowledge_risk` have acknowledged. -/
  accepted : List Grant
  /-- The bytes that were digested. -/
  digested : List (List UInt8)

/-- The errors of reading and of writing the file, if there are. -/
structure Disk where
  load : Option String
  save : Option String

namespace Hosts

def load (s : Hosts) (disk : Disk) : Except String (List RemoteProfile) :=
  match disk.load with
  | some e => .error e
  | none => .ok s.file

/-- The file is replaced as a whole. -/
def save (s : Hosts) (disk : Disk) (profiles : List RemoteProfile) : Except String Hosts :=
  match disk.save with
  | some e => .error e
  | none => .ok { s with file := profiles }

/-- `get_remote` -/
def session (s : Hosts) (id : List Char) : Option RemoteSession :=
  (s.remote id).bind fun n => s.sessions[n]?

/-- `stop_remote`; the task goes on. -/
def stopRemote (s : Hosts) (id : List Char) : Hosts :=
  match s.remote id with
  | some n =>
    { s with
      remote := s.remote.erase id
      sessions := s.sessions.modify n fun session => { session with state := .disconnected } }
  | none => s

end Hosts

/-- The check of a profile, with the text of its error. -/
def RemoteProfile.check (profile : RemoteProfile) : Except String Unit :=
  profile.validate.mapError RemoteProfileError.text

def addRemoteProfile (s : Hosts) (disk : Disk) (profile : RemoteProfile) : Except String Hosts := do
  profile.check
  let profiles ← s.load disk
  s.save disk (profiles ++ [profile])

def updateRemoteProfile (s : Hosts) (disk : Disk) (profile : RemoteProfile) :
    Except String Hosts := do
  profile.check
  let profiles ← s.load disk
  let profiles ← Keyed.editFirst RemoteProfile.id profile.id (fun _ => .ok profile)
    ("no profile with id " ++ String.ofList profile.id) profiles
  s.save disk profiles

/-- `delete_remote_profile`, after the session was stopped. -/
def deleteRemoteProfile (s : Hosts) (disk : Disk) (id : List Char) : Except String Hosts := do
  let profiles ← s.load disk
  let rest := Keyed.others RemoteProfile.id id profiles
  if rest.length = profiles.length then .error ("no profile with id " ++ String.ofList id)
  else s.save disk rest

/-- The profile with a fingerprint in the place for a kind of risk. -/
def RemoteProfile.acknowledge (profile : RemoteProfile) (kind : RiskKind)
    (fingerprint : List Char) : RemoteProfile :=
  { profile with
    riskAcknowledgements :=
      match kind with
      | .rootExecution =>
        { profile.riskAcknowledgements with rootFingerprint := some fingerprint }
      | .ephemeralData =>
        { profile.riskAcknowledgements with ephemeralFingerprint := some fingerprint } }

/-- The edit of a profile by `acknowledge_risk`. -/
def RemoteProfile.acknowledged (kind : RiskKind) (fingerprint : List Char)
    (profile : RemoteProfile) : Except String RemoteProfile := do
  (profile.acknowledge kind fingerprint).check
  return profile.acknowledge kind fingerprint

/-- What a session shows of a kind of risk. -/
def RemoteSession.grant (session : RemoteSession) (kind : RiskKind) : Grant :=
  ⟨kind, (session.observed.map (kind.fields session.profile)).getD []⟩

def acknowledgeRisk (s : Hosts) (disk : Disk) (id : List Char) (riskId : String)
    (fingerprint : List Char) : Except String Hosts :=
  match s.session id with
  | none => .error ("no active connection for " ++ String.ofList id)
  | some session =>
    match session.state with
    | .awaitingAcknowledgement _ pendingRisks =>
      match pendingRisks.find? fun risk =>
          risk.id = riskId ∧ risk.fingerprint = String.ofList fingerprint with
      | none => .error "pending risk fingerprint no longer matches; retry preflight"
      | some risk => do
        let profiles ← s.load disk
        let profiles ← Keyed.editFirst RemoteProfile.id id
          (RemoteProfile.acknowledged risk.kind fingerprint)
          ("no remote profile with id " ++ String.ofList id) profiles
        let s' ← s.save disk profiles
        return { s'.stopRemote id with accepted := session.grant risk.kind :: s.accepted }
    | _ => .error "connection is not awaiting acknowledgement"

/-- A new session of an id. -/
def Hosts.start (s : Hosts) (id : List Char) (profile : RemoteProfile) : Hosts :=
  { s with
    sessions := s.sessions ++ [⟨profile, .probing, .testingSsh, none⟩]
    remote := s.remote.insert id s.sessions.length }

/-- `ensure_remote_host`; `port` is the error of looking for a free port, if there is. -/
def ensureRemoteHost (s : Hosts) (disk : Disk) (port : Option String) (id : List Char) :
    Except String Hosts := do
  let profiles ← s.load disk
  match profiles.find? (·.id = id) with
  | none => .error ("no remote profile with id " ++ String.ofList id)
  | some profile =>
    profile.check
    if (s.remote id).isSome then return s
    match port with
    | some e => .error ("couldn't acquire a free loopback port for the bridge: " ++ e)
    | none => return s.start id profile

/-! ### Runs -/

inductive ProfileCommand
  | add (profile : RemoteProfile)
  | update (profile : RemoteProfile)
  | delete (id : List Char)
  | acknowledge (id : List Char) (riskId : String) (fingerprint : List Char)

/-- The id that a command names. -/
def ProfileCommand.id : ProfileCommand → List Char
  | .add profile | .update profile => profile.id
  | .delete id | .acknowledge id _ _ => id

/-- A command, in the state in which it edits the file. -/
def ProfileCommand.edit (s : Hosts) (disk : Disk) : ProfileCommand → Except String Hosts
  | .add profile => addRemoteProfile s disk profile
  | .update profile => updateRemoteProfile s disk profile
  | .delete id => deleteRemoteProfile (s.stopRemote id) disk id
  | .acknowledge id riskId fingerprint => acknowledgeRisk s disk id riskId fingerprint

/-- What a command leaves when its edit fails: a delete has stopped the session by then. -/
def ProfileCommand.failed (s : Hosts) : ProfileCommand → Hosts
  | .delete id => s.stopRemote id
  | _ => s

def ConnectionState.isAwaiting : ConnectionState → Bool
  | .awaitingAcknowledgement _ _ => true
  | _ => false

inductive HostsAction
  | command (disk : Disk) (c : ProfileCommand)
  | ensure (disk : Disk) (port : Option String) (id : List Char)
  /-- `disconnect_host` -/
  | disconnect (id : List Char)
  /-- The preflight of a session, with the answers of the remote host. -/
  | probe (n : ℕ) (run : List Char → Except String CommandOutput)
  /-- What else the task of a session tells. -/
  | tell (n : ℕ) (state : ConnectionState)

namespace Hosts

variable (json : DockerJson) (sha : List UInt8 → List Char)

def setSession (s : Hosts) (n : ℕ) (session : RemoteSession) : Hosts :=
  { s with sessions := s.sessions.set n session }

/-- The task of a session until its preflight is over. -/
def probe (s : Hosts) (n : ℕ) (session : RemoteSession)
    (run : List Char → Except String CommandOutput) : Hosts :=
  match session.profile.executionTarget with
  | .host => s.setSession n { session with task := .bridging, state := .connecting }
  | .dockerContainer _ _ _ _ =>
    let observed := (observe json sha session.profile run).toOption
    let digested := observed.toList.flatMap fun o =>
      [RiskKind.rootExecution, .ephemeralData].map fun kind =>
        message (kind.fields session.profile o)
    let s' := { s with digested := digested ++ s.digested }
    match preflightDocker json sha session.profile run with
    | .ok (.ready _) =>
      s'.setSession n
        { session with task := .bridging, state := .connecting, observed := observed }
    | .ok (.awaitingAcknowledgement phase pendingRisks) =>
      s'.setSession n
        { session with
          task := .returned
          state := .awaitingAcknowledgement phase pendingRisks
          observed := observed }
    | .error e =>
      s'.setSession n
        { session with
          task := .returned, state := .failed .provisioningFailed e, observed := observed }

def step (s : Hosts) : HostsAction → Hosts
  | .command disk c =>
    match c.edit s disk with
    | .ok s' => s'
    | .error _ => c.failed s
  | .ensure disk port id =>
    match ensureRemoteHost s disk port id with
    | .ok s' => s'
    | .error _ => s
  | .disconnect id => s.stopRemote id
  | .probe n run =>
    match s.sessions[n]? with
    | some session => if session.task = .probing then s.probe json sha n session run else s
    | none => s
  | .tell n state =>
    match s.sessions[n]? with
    | some session =>
      if session.task = .bridging ∧ state.isAwaiting = false then
        s.setSession n { session with state := state }
      else s
    | none => s

/-- An empty file, and no session. -/
def boot : Hosts := ⟨[], [], PMap.empty, [], []⟩

def run (acts : List HostsAction) : Hosts := acts.foldl (step json sha) boot

end Hosts

/-! ### What is asked -/

/-- `list_hosts`, by the ids: the local host, and the profiles in their order. -/
def hostIds (file : List RemoteProfile) : List (List Char) :=
  "local".toList :: file.map RemoteProfile.id

/-- The file is a map. -/
structure IsMap (file : List RemoteProfile) : Prop where
  valid : ∀ profile ∈ file, profile.validate = .ok ()
  nodup : (hostIds file).Nodup

/-- What a command that succeeds makes of the profiles it names. -/
def ProfileCommand.Edits (c : ProfileCommand) (before after : List RemoteProfile) : Prop :=
  match c with
  | .add profile => before = [] ∧ after = [profile]
  | .update profile => (∃ old, before = [old]) ∧ after = [profile]
  | .delete _ => (∃ old, before = [old]) ∧ after = []
  | .acknowledge _ _ fingerprint =>
    ∃ old kind, before = [old] ∧ after = [old.acknowledge kind fingerprint]

/-- The file stays a map; a command that succeeds changes the profile it names and no other, and
one that fails changes no profile and no session. -/
def Faithful (json : DockerJson) (sha : List UInt8 → List Char) (s : Hosts) (a : HostsAction) :
    Prop :=
  IsMap (s.step json sha a).file ∧
    match a with
    | .command disk c =>
      match c.edit s disk with
      | .ok s' =>
        Keyed.others RemoteProfile.id c.id s'.file = Keyed.others RemoteProfile.id c.id s.file ∧
          c.Edits (Keyed.named RemoteProfile.id c.id s.file)
            (Keyed.named RemoteProfile.id c.id s'.file)
      | .error _ => (c.failed s).file = s.file ∧ (c.failed s).session = s.session
    | _ => (s.step json sha a).file = s.file

/-- A profile that can be added has an id that no host has, and a delete whose session is stopped
finds its profile and writes the file. -/
def Distinct (s : Hosts) : HostsAction → Prop
  | .command disk (.add profile) =>
    profile.validate = .ok () → disk.load = none → disk.save = none → profile.id ∉ hostIds s.file
  | .command disk (.delete id) =>
    (s.session id).isSome → disk.load = none ∧ disk.save = none ∧ id ∈ s.file.map RemoteProfile.id
  | _ => True

/-! ### What the commands do -/

theorem bind_eq_ok {ε : Type*} {α β : Type} {x : Except ε α} {f : α → Except ε β} {b : β} :
    (x >>= f) = .ok b ↔ ∃ a, x = .ok a ∧ f a = .ok b := by
  constructor
  · intro h
    cases x with
    | error e => cases h
    | ok a => exact ⟨a, rfl, h⟩
  · rintro ⟨a, rfl, h⟩
    exact h

section Commands

variable {s s' : Hosts} {disk : Disk} {profile : RemoteProfile} {profiles : List RemoteProfile}
  {id fingerprint : List Char} {riskId : String}

theorem load_eq_ok : s.load disk = .ok profiles ↔ disk.load = none ∧ profiles = s.file := by
  unfold Hosts.load
  cases disk.load with
  | none => exact ⟨fun h => ⟨rfl, (Except.ok.inj h).symm⟩, fun h => by rw [h.2]⟩
  | some e => simp

theorem save_eq_ok : s.save disk profiles = .ok s' ↔
    disk.save = none ∧ s' = { s with file := profiles } := by
  unfold Hosts.save
  cases disk.save with
  | none => exact ⟨fun h => ⟨rfl, (Except.ok.inj h).symm⟩, fun h => by rw [h.2]⟩
  | some e => simp

theorem check_eq_ok {u : Unit} : profile.check = .ok u ↔ profile.validate = .ok () := by
  unfold RemoteProfile.check
  cases profile.validate with
  | ok u => simp [Except.mapError]
  | error e => simp [Except.mapError]

theorem addRemoteProfile_eq_ok : addRemoteProfile s disk profile = .ok s' ↔
    profile.validate = .ok () ∧ disk.load = none ∧ disk.save = none ∧
      s' = { s with file := s.file ++ [profile] } := by
  unfold addRemoteProfile
  simp only [bind_eq_ok, check_eq_ok, load_eq_ok, save_eq_ok]
  constructor
  · rintro ⟨-, hvalid, profiles, ⟨hload, rfl⟩, hsave, hs'⟩
    exact ⟨hvalid, hload, hsave, hs'⟩
  · rintro ⟨hvalid, hload, hsave, hs'⟩
    exact ⟨(), hvalid, _, ⟨hload, rfl⟩, hsave, hs'⟩

theorem updateRemoteProfile_eq_ok (h : updateRemoteProfile s disk profile = .ok s') :
    profile.validate = .ok () ∧ disk.load = none ∧ disk.save = none ∧
      ∃ (missing : String) (profiles : List RemoteProfile),
        Keyed.editFirst RemoteProfile.id profile.id (fun _ => .ok profile) missing s.file =
          .ok profiles ∧ s' = { s with file := profiles } := by
  unfold updateRemoteProfile at h
  simp only [bind_eq_ok, check_eq_ok, load_eq_ok, save_eq_ok] at h
  obtain ⟨-, hvalid, file, ⟨hload, rfl⟩, profiles, hedit, hsave, hs'⟩ := h
  exact ⟨hvalid, hload, hsave, _, profiles, hedit, hs'⟩

theorem length_others_eq {l : List RemoteProfile} :
    (Keyed.others RemoteProfile.id id l).length = l.length ↔ id ∉ l.map RemoteProfile.id := by
  rw [← Keyed.others_eq_self_iff, Keyed.others]
  exact ⟨List.filter_sublist.eq_of_length, congrArg List.length⟩

theorem deleteRemoteProfile_eq_ok : deleteRemoteProfile s disk id = .ok s' ↔
    disk.load = none ∧ disk.save = none ∧ id ∈ s.file.map RemoteProfile.id ∧
      s' = { s with file := Keyed.others RemoteProfile.id id s.file } := by
  unfold deleteRemoteProfile
  simp only [bind_eq_ok, load_eq_ok]
  constructor
  · rintro ⟨profiles, ⟨hload, rfl⟩, h⟩
    split at h
    · cases h
    · next hlength =>
      rw [length_others_eq, not_not] at hlength
      obtain ⟨hsave, hs'⟩ := save_eq_ok.mp h
      exact ⟨hload, hsave, hlength, hs'⟩
  · rintro ⟨hload, hsave, hmem, hs'⟩
    refine ⟨_, ⟨hload, rfl⟩, ?_⟩
    rw [if_neg (by rw [length_others_eq, not_not]; exact hmem)]
    exact save_eq_ok.mpr ⟨hsave, hs'⟩

/-- **A call that is accepted was for a risk that the session shows as pending.** -/
theorem acknowledgeRisk_eq_ok (h : acknowledgeRisk s disk id riskId fingerprint = .ok s') :
    ∃ session phase pendingRisks, s.session id = some session ∧
      session.state = .awaitingAcknowledgement phase pendingRisks ∧
      ∃ risk ∈ pendingRisks, risk.id = riskId ∧ risk.fingerprint = String.ofList fingerprint ∧
        ∃ (missing : String) (profiles : List RemoteProfile), Keyed.editFirst RemoteProfile.id id
            (RemoteProfile.acknowledged risk.kind fingerprint) missing s.file = .ok profiles ∧
          s' = { ({ s with file := profiles } : Hosts).stopRemote id with
            accepted := session.grant risk.kind :: s.accepted } := by
  unfold acknowledgeRisk at h
  cases hsession : s.session id with
  | none =>
    rw [hsession] at h
    cases h
  | some session =>
    rw [hsession] at h
    dsimp only at h
    split at h
    · next phase pendingRisks hstate =>
      split at h
      · cases h
      · next risk hfind =>
        obtain ⟨hid, hprint⟩ : risk.id = riskId ∧ risk.fingerprint = String.ofList fingerprint := by
          simpa using List.find?_some hfind
        simp only [bind_eq_ok, load_eq_ok, save_eq_ok] at h
        obtain ⟨file, ⟨-, rfl⟩, profiles, hedit, s'', ⟨-, rfl⟩, h⟩ := h
        exact ⟨session, phase, pendingRisks, rfl, hstate, risk, List.mem_of_find?_eq_some hfind,
          hid, hprint, _, profiles, hedit, (Except.ok.inj h).symm⟩
    · cases h

theorem acknowledged_eq_ok {kind : RiskKind} {profile' : RemoteProfile} :
    RemoteProfile.acknowledged kind fingerprint profile = .ok profile' ↔
      (profile.acknowledge kind fingerprint).validate = .ok () ∧
        profile' = profile.acknowledge kind fingerprint := by
  unfold RemoteProfile.acknowledged
  simp only [bind_eq_ok, check_eq_ok]
  constructor
  · rintro ⟨-, hvalid, h⟩
    exact ⟨hvalid, (Except.ok.inj h).symm⟩
  · rintro ⟨hvalid, rfl⟩
    exact ⟨(), hvalid, rfl⟩

end Commands

/-! ### The file as a map -/

section Maps

variable {s : Hosts} {disk : Disk} {profile : RemoteProfile} {file file' : List RemoteProfile}
  {id : List Char}

theorem IsMap.nodup_ids (h : IsMap file) : (file.map RemoteProfile.id).Nodup :=
  (List.nodup_cons.mp h.nodup).2

theorem hostIds_append : hostIds (file ++ [profile]) = hostIds file ++ [profile.id] := by
  rw [hostIds, hostIds, List.map_append, List.map_singleton, List.cons_append]

theorem IsMap.append (h : IsMap file) (hvalid : profile.validate = .ok ())
    (hid : profile.id ∉ hostIds file) : IsMap (file ++ [profile]) where
  valid p hp := by
    obtain hp | hp := List.mem_append.mp hp
    · exact h.valid p hp
    · rw [List.mem_singleton.mp hp]
      exact hvalid
  nodup := by
    rw [hostIds_append]
    exact List.Nodup.append h.nodup (List.nodup_singleton _)
      (List.disjoint_singleton.mpr hid)

theorem IsMap.others (h : IsMap file) (id : List Char) :
    IsMap (Keyed.others RemoteProfile.id id file) where
  valid p hp := h.valid p (List.mem_of_mem_filter hp)
  nodup := h.nodup.sublist ((List.filter_sublist.map _).cons_cons _)

/-- An edit of one profile that keeps its id. -/
theorem IsMap.edit (h : IsMap file) {missing : String}
    {edit : RemoteProfile → Except String RemoteProfile}
    (hid : ∀ a b, a.id = id → edit a = .ok b → b.id = id)
    (hvalid : ∀ a b, edit a = .ok b → b.validate = .ok ())
    (hedit : Keyed.editFirst RemoteProfile.id id edit missing file = .ok file') : IsMap file' where
  valid p hp := by
    obtain hp | ⟨a, -, -, ha⟩ := Keyed.mem_editFirst hedit hp
    · exact h.valid p hp
    · exact hvalid a p ha
  nodup := by
    rw [hostIds, Keyed.map_editFirst hid hedit]
    exact h.nodup

/-! ### Sessions -/

theorem stopRemote_file (s : Hosts) (id : List Char) : (s.stopRemote id).file = s.file := by
  unfold Hosts.stopRemote
  split <;> rfl

theorem stopRemote_remote (s : Hosts) (id : List Char) :
    (s.stopRemote id).remote = s.remote.erase id := by
  unfold Hosts.stopRemote
  split
  · rfl
  · next hnone =>
    funext id'
    rw [PMap.erase_apply]
    split
    · next heq => rw [heq, hnone]
    · rfl

theorem length_stopRemote (s : Hosts) (id : List Char) :
    (s.stopRemote id).sessions.length = s.sessions.length := by
  unfold Hosts.stopRemote
  split
  · exact List.length_modify _ _ _
  · rfl

theorem session_stopRemote (s : Hosts) (id : List Char) : (s.stopRemote id).session id = none := by
  rw [Hosts.session, stopRemote_remote, PMap.erase_self, Option.bind_none]

/-- What a call that finds the profile does. -/
theorem ensureRemoteHost_eq_ok {port : Option String} {s' : Hosts} :
    ensureRemoteHost s disk port id = .ok s' ↔ disk.load = none ∧
      ∃ profile, s.file.find? (·.id = id) = some profile ∧ profile.validate = .ok () ∧
        ((s.remote id).isSome = true ∧ s' = s ∨
          s.remote id = none ∧ port = none ∧ s' = s.start id profile) := by
  unfold ensureRemoteHost
  rw [bind_eq_ok]
  constructor
  · rintro ⟨profiles, hprofiles, h⟩
    obtain ⟨hload, rfl⟩ := load_eq_ok.mp hprofiles
    refine ⟨hload, ?_⟩
    cases hfind : s.file.find? (·.id = id) with
    | none =>
      rw [hfind] at h
      cases h
    | some profile =>
      rw [hfind] at h
      obtain ⟨u, hcheck, h⟩ := bind_eq_ok.mp h
      refine ⟨profile, rfl, check_eq_ok.mp hcheck, ?_⟩
      split at h
      · next hremote => exact Or.inl ⟨hremote, (Except.ok.inj h).symm⟩
      · next hremote =>
        rw [Option.not_isSome_iff_eq_none] at hremote
        cases port with
        | some e => cases h
        | none => exact Or.inr ⟨hremote, rfl, (Except.ok.inj h).symm⟩
  · rintro ⟨hload, profile, hfind, hvalid, hs'⟩
    refine ⟨s.file, load_eq_ok.mpr ⟨hload, rfl⟩, ?_⟩
    rw [hfind]
    refine bind_eq_ok.mpr ⟨(), check_eq_ok.mpr hvalid, ?_⟩
    obtain ⟨hremote, rfl⟩ | ⟨hremote, rfl, rfl⟩ := hs'
    · rw [if_pos hremote]
      rfl
    · rw [if_neg (by rw [hremote]; decide)]
      rfl

/-- What the proofs keep of a run: the file is a map, and a session that an id has was started. -/
structure Kept (s : Hosts) : Prop where
  map : IsMap s.file
  started : ∀ id n, s.remote id = some n → n < s.sessions.length

/-- An id without a session has nothing to stop. -/
theorem Kept.stopRemote_of_none (h : Kept s) (hid : s.session id = none) :
    s.stopRemote id = s := by
  unfold Hosts.stopRemote
  split
  · next n hn =>
    rw [Hosts.session, hn, Option.bind_some,
      List.getElem?_eq_getElem (h.started id n hn)] at hid
    cases hid
  · rfl

/-! ### Steps -/

variable {json : DockerJson} {sha : List UInt8 → List Char} {a : HostsAction}

theorem probe_file (s : Hosts) (n : ℕ) (session : RemoteSession)
    (run : List Char → Except String CommandOutput) :
    (s.probe json sha n session run).file = s.file := by
  unfold Hosts.probe
  split
  · rfl
  · dsimp only
    split <;> rfl

/-- **What a step can lead to**: what a command writes, a session that is stopped, started or set,
or what a preflight sees. -/
theorem step_cases {P : Hosts → Prop} (s : Hosts) (a : HostsAction) (hsame : P s)
    (hedit : ∀ disk c s', a = .command disk c → c.edit s disk = .ok s' → P s')
    (hstop : ∀ id, P (s.stopRemote id))
    (hstart : ∀ id, ∀ profile ∈ s.file, P (s.start id profile))
    (hprobe : ∀ n run, ∀ session ∈ s.sessions, P (s.probe json sha n session run))
    (htell : ∀ n, ∀ session ∈ s.sessions, ∀ state : ConnectionState, state.isAwaiting = false →
      P (s.setSession n { session with state := state })) : P (s.step json sha a) := by
  unfold Hosts.step
  cases a with
  | command disk c =>
    dsimp only
    split
    · next s' hok => exact hedit disk c s' rfl hok
    · cases c with
      | delete id => exact hstop id
      | _ => exact hsame
  | ensure disk port id =>
    dsimp only
    split
    · next s' hok =>
      obtain ⟨-, profile, hfind, -, ⟨-, rfl⟩ | ⟨-, -, rfl⟩⟩ := ensureRemoteHost_eq_ok.mp hok
      · exact hsame
      · exact hstart id profile (List.mem_of_find?_eq_some hfind)
    · exact hsame
  | disconnect id => exact hstop id
  | probe n run =>
    dsimp only
    split
    · next session hsession =>
      split
      · exact hprobe n run session (List.mem_of_getElem? hsession)
      · exact hsame
    · exact hsame
  | tell n state =>
    dsimp only
    split
    · next session hsession =>
      split
      · next hstate => exact htell n session (List.mem_of_getElem? hsession) state hstate.2
      · exact hsame
    · exact hsame

/-- The commands are the only steps that write the file. -/
theorem file_step_of_no_command (s : Hosts) (ha : ∀ disk c, a ≠ .command disk c) :
    (s.step json sha a).file = s.file :=
  step_cases (P := fun t => t.file = s.file) s a rfl (fun disk c _ hac _ => absurd hac (ha disk c))
    (stopRemote_file s) (fun _ _ _ => rfl) (fun n run session _ => probe_file s n session run)
    (fun _ _ _ _ _ => rfl)

theorem length_probe (s : Hosts) (n : ℕ) (session : RemoteSession)
    (run : List Char → Except String CommandOutput) :
    (s.probe json sha n session run).sessions.length = s.sessions.length ∧
      (s.probe json sha n session run).remote = s.remote := by
  unfold Hosts.probe
  split
  · exact ⟨List.length_set, rfl⟩
  · dsimp only
    split
    · exact ⟨List.length_set, rfl⟩
    · exact ⟨List.length_set, rfl⟩
    · exact ⟨List.length_set, rfl⟩

/-- What a command edits, with the sessions it leaves. -/
theorem edit_sessions {c : ProfileCommand} {s' : Hosts} (h : c.edit s disk = .ok s') :
    s'.sessions.length = s.sessions.length ∧
      ∀ id n, s'.remote id = some n → s.remote id = some n := by
  have hstop : ∀ (t : Hosts) id, t.sessions = s.sessions → t.remote = s.remote →
      (t.stopRemote id).sessions.length = s.sessions.length ∧
        ∀ id' n, (t.stopRemote id).remote id' = some n → s.remote id' = some n := by
    intro t id hsessions hremote
    rw [length_stopRemote, stopRemote_remote, hsessions, hremote]
    refine ⟨rfl, fun id' n hn => ?_⟩
    rw [PMap.erase_apply] at hn
    split at hn
    · cases hn
    · exact hn
  cases c with
  | add profile =>
    obtain ⟨-, -, -, rfl⟩ := addRemoteProfile_eq_ok.mp h
    exact ⟨rfl, fun _ _ hn => hn⟩
  | update profile =>
    obtain ⟨-, -, -, -, profiles, -, rfl⟩ := updateRemoteProfile_eq_ok h
    exact ⟨rfl, fun _ _ hn => hn⟩
  | delete id =>
    obtain ⟨-, -, -, rfl⟩ := deleteRemoteProfile_eq_ok.mp h
    exact hstop s id rfl rfl
  | acknowledge id riskId fingerprint =>
    obtain ⟨session, -, -, -, -, risk, -, -, -, -, profiles, -, rfl⟩ := acknowledgeRisk_eq_ok h
    exact hstop _ id rfl rfl

/-- A session that an id has was started. -/
theorem started_step (h : ∀ id n, s.remote id = some n → n < s.sessions.length) :
    ∀ id n, (s.step json sha a).remote id = some n → n < (s.step json sha a).sessions.length := by
  refine step_cases (P := fun t => ∀ id n, t.remote id = some n → n < t.sessions.length) s a h
    ?_ ?_ ?_ ?_ ?_
  · intro disk c s' _ hok
    obtain ⟨hlength, hremote⟩ := edit_sessions hok
    intro id n hn
    rw [hlength]
    exact h id n (hremote id n hn)
  · intro id' id n hn
    rw [stopRemote_remote, PMap.erase_apply] at hn
    rw [length_stopRemote]
    split at hn
    · cases hn
    · exact h id n hn
  · intro id' profile _ id n hn
    unfold Hosts.start at hn ⊢
    dsimp only at hn ⊢
    rw [List.length_append, List.length_singleton]
    rw [PMap.insert_apply] at hn
    split at hn
    · cases hn
      exact Nat.lt_succ_self _
    · exact Nat.lt_succ_of_lt (h id n hn)
  · intro n run session _
    obtain ⟨hlength, hremote⟩ := (length_probe s n session run :
      (s.probe json sha n session run).sessions.length = _ ∧ _)
    rw [hlength, hremote]
    exact h
  · intro n session _ state _
    unfold Hosts.setSession
    dsimp only
    rw [List.length_set]
    exact h

/-- What an acknowledgement makes of a profile. -/
theorem acknowledged_keeps (id fingerprint : List Char) (kind : RiskKind) :
    (∀ a b, a.id = id → RemoteProfile.acknowledged kind fingerprint a = .ok b → b.id = id) ∧
      ∀ a b, RemoteProfile.acknowledged kind fingerprint a = .ok b → b.validate = .ok () := by
  constructor
  · intro a b ha hb
    obtain ⟨-, rfl⟩ := acknowledged_eq_ok.mp hb
    exact ha
  · intro a b hb
    obtain ⟨hvalid, rfl⟩ := acknowledged_eq_ok.mp hb
    exact hvalid

theorem failed_file (s : Hosts) (c : ProfileCommand) : (c.failed s).file = s.file := by
  cases c with
  | delete id => exact stopRemote_file s id
  | _ => rfl

/-- What is written was validated. -/
theorem valid_step (h : ∀ p ∈ s.file, p.validate = .ok ()) :
    ∀ p ∈ (s.step json sha a).file, p.validate = .ok () := by
  refine step_cases (P := fun t => ∀ p ∈ t.file, p.validate = .ok ()) s a h ?_
    (fun id => by rw [stopRemote_file]; exact h) (fun _ _ _ => h)
    (fun n run session _ => by rw [probe_file]; exact h) (fun _ _ _ _ _ => h)
  intro disk c s' _ hedit p hp
  cases c with
  | add profile =>
    obtain ⟨hvalid, -, -, rfl⟩ := addRemoteProfile_eq_ok.mp hedit
    obtain hp | hp := List.mem_append.mp hp
    · exact h p hp
    · rw [List.mem_singleton.mp hp]
      exact hvalid
  | update profile =>
    obtain ⟨hvalid, -, -, missing, profiles, hprofiles, rfl⟩ := updateRemoteProfile_eq_ok hedit
    obtain hp | ⟨b, -, -, hb⟩ := Keyed.mem_editFirst hprofiles hp
    · exact h p hp
    · cases hb
      exact hvalid
  | delete id =>
    obtain ⟨-, -, -, rfl⟩ := deleteRemoteProfile_eq_ok.mp hedit
    dsimp only at hp
    rw [stopRemote_file] at hp
    exact h p (List.mem_of_mem_filter hp)
  | acknowledge id riskId fingerprint =>
    obtain ⟨session, -, -, -, -, risk, -, -, -, missing, profiles, hprofiles, rfl⟩ :=
      acknowledgeRisk_eq_ok hedit
    dsimp only at hp
    rw [stopRemote_file] at hp
    obtain hp | ⟨b, -, -, hb⟩ := Keyed.mem_editFirst hprofiles hp
    · exact h p hp
    · exact (acknowledged_keeps id fingerprint risk.kind).2 b p hb

/-- A command that fails leaves the file a map. -/
theorem Kept.failed (h : Kept s) (c : ProfileCommand) : IsMap (c.failed s).file := by
  rw [failed_file]
  exact h.map

/-- **A command that edits the file edits the profile it names and no other**, when an added profile
has a new id. -/
theorem Kept.edit (h : Kept s) {c : ProfileCommand} (hd : Distinct s (.command disk c)) {s' : Hosts}
    (hok : c.edit s disk = .ok s') :
    IsMap s'.file ∧
      Keyed.others RemoteProfile.id c.id s'.file = Keyed.others RemoteProfile.id c.id s.file ∧
      c.Edits (Keyed.named RemoteProfile.id c.id s.file)
        (Keyed.named RemoteProfile.id c.id s'.file) := by
  cases c with
  | add profile =>
    obtain ⟨hvalid, hload, hsave, rfl⟩ := addRemoteProfile_eq_ok.mp hok
    have hid := hd hvalid hload hsave
    have hnew : profile.id ∉ s.file.map RemoteProfile.id :=
      fun hmem => hid (List.mem_cons_of_mem _ hmem)
    refine ⟨h.map.append hvalid hid, ?_, Keyed.named_eq_nil_iff.mpr hnew, ?_⟩
    · show Keyed.others RemoteProfile.id profile.id (s.file ++ [profile]) = _
      rw [Keyed.others_append, Keyed.others_cons_of_eq rfl]
      exact List.append_nil _
    · show Keyed.named RemoteProfile.id profile.id (s.file ++ [profile]) = [profile]
      rw [Keyed.named_append, Keyed.named_eq_nil_iff.mpr hnew, Keyed.named_cons_of_eq rfl]
      rfl
  | update profile =>
    obtain ⟨hvalid, -, -, missing, profiles, hedit, rfl⟩ := updateRemoteProfile_eq_ok hok
    have hid : ∀ a b : RemoteProfile, a.id = profile.id →
        (Except.ok profile : Except String RemoteProfile) = .ok b → b.id = profile.id := by
      rintro a b - ⟨⟩
      rfl
    obtain ⟨a, b, ha, hb, hb'⟩ := Keyed.named_editFirst hid h.map.nodup_ids hedit
    cases hb
    exact ⟨h.map.edit hid (fun a b hb => (by cases hb; exact hvalid)) hedit,
      Keyed.others_editFirst hid hedit, ⟨a, ha⟩, hb'⟩
  | delete id =>
    obtain ⟨-, -, hmem, rfl⟩ := deleteRemoteProfile_eq_ok.mp hok
    dsimp only
    rw [stopRemote_file] at hmem ⊢
    refine ⟨h.map.others id, Keyed.others_others, ?_, Keyed.named_others⟩
    obtain ⟨profile, hprofile, rfl⟩ := List.mem_map.mp hmem
    exact ⟨profile, Keyed.named_eq_singleton h.map.nodup_ids hprofile⟩
  | acknowledge id riskId fingerprint =>
    obtain ⟨session, -, -, -, -, risk, -, -, -, missing, profiles, hedit, rfl⟩ :=
      acknowledgeRisk_eq_ok hok
    obtain ⟨hid, hvalid⟩ := acknowledged_keeps id fingerprint risk.kind
    obtain ⟨a, b, ha, hb, hb'⟩ := Keyed.named_editFirst hid h.map.nodup_ids hedit
    obtain ⟨-, rfl⟩ := acknowledged_eq_ok.mp hb
    dsimp only
    rw [stopRemote_file]
    exact ⟨h.map.edit hid hvalid hedit, Keyed.others_editFirst hid hedit, a, risk.kind, ha, hb'⟩

/-- **A step that is distinct uses the file as a map.** -/
theorem Kept.faithful (h : Kept s) (hd : Distinct s a) : Faithful json sha s a := by
  by_cases ha : ∃ disk c, a = .command disk c
  · obtain ⟨disk, c, rfl⟩ := ha
    unfold Faithful Hosts.step
    dsimp only
    cases hedit : c.edit s disk with
    | ok s' =>
      obtain ⟨hmap, hothers, hedits⟩ := h.edit hd hedit
      exact ⟨hmap, hothers, hedits⟩
    | error e =>
      refine ⟨h.failed c, ?_⟩
      cases c with
      | delete id =>
        -- a delete that fails had no session to stop
        have hnone : s.session id = none := by
          by_contra hsession
          obtain ⟨hload, hsave, hmem⟩ := hd (Option.isSome_iff_ne_none.mpr hsession)
          have hok : deleteRemoteProfile (s.stopRemote id) disk id = .ok _ :=
            deleteRemoteProfile_eq_ok.mpr
              ⟨hload, hsave, by rw [stopRemote_file]; exact hmem, rfl⟩
          cases hok.symm.trans hedit
        show (s.stopRemote id).file = s.file ∧ (s.stopRemote id).session = s.session
        rw [h.stopRemote_of_none hnone]
        exact ⟨rfl, rfl⟩
      | _ => exact ⟨rfl, rfl⟩
  · have hfile : (s.step json sha a).file = s.file :=
      file_step_of_no_command s fun disk c hac => ha ⟨disk, c, hac⟩
    refine ⟨by rw [hfile]; exact h.map, ?_⟩
    cases a with
    | command disk c => exact absurd ⟨disk, c, rfl⟩ ha
    | _ => exact hfile

/-- **A step that uses the file as a map is distinct.** -/
theorem distinct_of_faithful (hf : Faithful json sha s a) : Distinct s a := by
  cases a with
  | command disk c =>
    cases c with
    | add profile =>
      intro hvalid hload hsave hmem
      -- the id would have two places
      have hok : addRemoteProfile s disk profile = .ok { s with file := s.file ++ [profile] } :=
        addRemoteProfile_eq_ok.mpr ⟨hvalid, hload, hsave, rfl⟩
      have hmap := hf.1
      unfold Hosts.step ProfileCommand.edit at hmap
      dsimp only at hmap
      rw [hok] at hmap
      have hnodup := hmap.nodup
      rw [hostIds_append] at hnodup
      exact (List.disjoint_of_nodup_append hnodup) hmem (List.mem_singleton_self _)
    | delete id =>
      intro hsession
      have hkept := hf.2
      dsimp only at hkept
      cases hedit : ProfileCommand.edit s disk (.delete id) with
      | ok s' =>
        obtain ⟨hload, hsave, hmem, -⟩ := deleteRemoteProfile_eq_ok.mp hedit
        rw [stopRemote_file] at hmem
        exact ⟨hload, hsave, hmem⟩
      | error e =>
        rw [hedit] at hkept
        have hstopped : (s.stopRemote id).session = s.session := hkept.2
        rw [← hstopped, session_stopRemote] at hsession
        cases hsession
    | _ => trivial
  | _ => trivial

theorem Kept.step (h : Kept s) (hd : Distinct s a) : Kept (s.step json sha a) where
  map := (h.faithful hd).1
  started := started_step h.started

theorem Kept.boot : Kept Hosts.boot where
  map := ⟨fun _ h => absurd h List.not_mem_nil, List.nodup_singleton _⟩
  started _ _ h := by cases h

end Maps

/-- **The stored profiles validate in every run.** -/
theorem hosts_valid (json : DockerJson) (sha : List UInt8 → List Char) (acts : List HostsAction) :
    ∀ p ∈ (Hosts.run json sha acts).file, p.validate = .ok () :=
  foldl_invariant (I := fun s : Hosts => ∀ p ∈ s.file, p.validate = .ok ())
    (fun _ _ hs => valid_step hs) (fun _ hp => absurd hp List.not_mem_nil) acts

/-- **The file is used as a map exactly in the runs whose steps are distinct.** -/
theorem faithful_iff (json : DockerJson) (sha : List UInt8 → List Char)
    (acts : List HostsAction) :
    Along (Hosts.step json sha) Distinct .boot acts ↔
      Along (Hosts.step json sha) (Faithful json sha) .boot acts :=
  along_iff_along (fun _ _ hs hd => hs.step hd)
    (fun _ _ hs => ⟨fun hd => hs.faithful hd, distinct_of_faithful⟩) Kept.boot acts

/-- A profile of a host. -/
def studio : RemoteProfile where
  id := "studio".toList
  label := "Studio".toList
  sshDestination := "user@studio".toList
  port := none
  polytokenPolicy := .requireExisting
  remoteRootOverride := none
  serverPath := none
  xdgMode := .isolated
  executionTarget := .host
  riskAcknowledgements := ⟨none, none⟩

/-- The profile is added twice. -/
def addedTwice : List HostsAction :=
  [.command ⟨none, none⟩ (.add studio), .command ⟨none, none⟩ (.add studio)]

/-- Two hosts have the same id then. -/
theorem not_faithful :
    ¬ Along (Hosts.step ⟨fun _ => none, fun _ => none⟩ fun _ => [])
      (Faithful ⟨fun _ => none, fun _ => none⟩ fun _ => []) .boot addedTwice := by
  rintro ⟨-, ⟨hmap, -⟩, -⟩
  exact absurd hmap.nodup (by decide)

end Pantoken.Desktop
