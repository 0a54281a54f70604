import Pantoken.Desktop.Bridge
import Pantoken.Desktop.Persistence
import Pantoken.Desktop.RemoteRoot
import Pantoken.Lib.Cut
import Pantoken.Lib.Netstring
import Pantoken.Remote.Semver

/-!
# The preflight of a container

Before an attempt runs anything in a container, it asks the remote host for the container and the
container for its user, and looks where the root of the profile is kept.  A user that is root, and
data that a replacement of the container loses, are risks.  The facts of a risk are digested into a
fingerprint, and the attempt goes on when the profile has the fingerprint of each risk there is.

## Main definitions

* `resolveExactRunning`, `observe` — the container, and what is seen of it.
* `fingerprint`, `RiskKind.fields` — the fingerprints, and the facts of a risk.
* `Observed.present`, `pendingRisks` — the risks there are, and those not acknowledged.
* `preflightDocker` — the preflight.

## Main results

* `fields_of_fingerprint_eq` — where the digest has no collision, a fingerprint is that of its
  facts.
* `preflightDocker_ready` — **a container is ready exactly when each risk there is has its
  fingerprint in the profile.**
* `pending_iff_fields_ne` — an acknowledgement that is carried over to other facts.
* `acknowledgement_exact` — **an acknowledgement holds for its facts and no others.**
-/

namespace Pantoken.Desktop

/-! ### What Docker answers -/

/-- The text of a `DockerTargetError`. -/
def DockerTargetError.text : DockerTargetError → String
  | .unsafePath => "path must be a safe absolute POSIX path"
  | .malformedList => "Docker returned malformed container-list output"
  | .containerNotFound => "container was not found by exact name"
  | .ambiguousContainer => "multiple containers had the exact requested name"
  | .containerUnavailable state => "container is not running (" ++ state ++ ")"
  | .malformedInspect => "Docker returned malformed inspect output"
  | .readOnlyMount => "the deepest mount covering the Pantoken root is read-only"

structure CommandOutput where
  stdout : List Char
  stderr : List Char
  exitCode : Option ℤ

def CommandOutput.isSuccess (output : CommandOutput) : Bool := output.exitCode = some 0

/-- `str::lines` -/
def lines (s : List Char) : List (List Char) :=
  let parts := s.splitOn '\n'
  let last := parts.getLast?.getD []
  (parts.dropLast.map fun line => if line.getLast? = some '\r' then line.dropLast else line) ++
    if last = [] then [] else [last]

/-- `classify_command_failure` -/
def classifyCommandFailure (output : CommandOutput) (context : String) : String :=
  context ++ ": " ++ ((lines output.stderr).head?.map String.ofList).getD "command failed"

/-- The output of a command that has to succeed. -/
def succeed (context : String) (answer : Except String CommandOutput) :
    Except String CommandOutput := do
  let output ← answer
  if output.isSuccess then return output else .error (classifyCommandFailure output context)

/-- `ContainerListRecord`, as far as it is read. -/
structure ContainerListRecord where
  id : List Char
  names : List Char
  state : String

/-- `DockerInspect`, as far as it is read. -/
structure DockerInspect where
  id : List Char
  running : Bool
  paused : Bool
  restarting : Bool
  dead : Bool
  mounts : List DockerMount

/-- How JSON is read: a line of the list, and the output of an inspection. -/
structure DockerJson where
  record : List Char → Option ContainerListRecord
  inspect : List Char → Option (List DockerInspect)

def parseContainerList (json : DockerJson) (stdout : List Char) :
    Except DockerTargetError (List ContainerListRecord) :=
  ((lines stdout).filter fun line => !isBlank line).mapM fun line =>
    match json.record line with
    | some record => .ok record
    | none => .error .malformedList

def resolveExactRunning (records : List ContainerListRecord) (exactName : List Char) :
    Except DockerTargetError ContainerListRecord :=
  match records.filter (·.names = exactName) with
  | [] => .error .containerNotFound
  | [record] =>
    if record.state.map Char.toLower = "running" then .ok record
    else .error (.containerUnavailable record.state)
  | _ => .error .ambiguousContainer

def parseInspect (json : DockerJson) (stdout : List Char) :
    Except DockerTargetError DockerInspect :=
  match json.inspect stdout with
  | some [inspect] => .ok inspect
  | _ => .error .malformedInspect

/-- `str::parse::<u64>` -/
def parseUnsigned (s : List Char) : Option ℕ :=
  let digits := match s with
    | '+' :: rest => rest
    | _ => s
  if digits ≠ [] ∧ digits.all Char.isDigit then Remote.Semver.parseU64 digits else none

/-- The user and the group that the probe of the user prints. -/
def parseIdentity (stdout : List Char) : Except String (ℕ × ℕ) :=
  match (Cut.trim Cut.isWhitespace stdout).splitOn '|' with
  | [user, group, _] =>
    match parseUnsigned user, parseUnsigned group with
    | some uid, some gid => .ok (uid, gid)
    | none, _ => .error "container identity probe returned invalid UID"
    | some _, none => .error "container identity probe returned invalid GID"
  | _ => .error "container identity probe returned malformed output"

/-! ### Fingerprints -/

/-- The bytes that are digested for some facts. -/
def message (fields : List (List Char)) : List UInt8 := decimal.fields (fields.map Utf8.encode)

/-- `fingerprint`, where `sha` is the digest in hexadecimal digits. -/
def fingerprint (sha : List UInt8 → List Char) (fields : List (List Char)) : List Char :=
  sha (message fields)

/-- What `root_risk_fingerprint` digests: the facts of a root execution, below the version of
their schema. -/
def rootFields (profileId containerName containerId user : List Char) (uid gid : ℕ) :
    List (List Char) :=
  [decimalDigits 1, profileId, containerName, containerId, user, decimalDigits uid,
    decimalDigits gid]

/-- The word for a classification. -/
def PersistenceClassification.word : PersistenceClassification → String
  | .persistentBind => "persistentBind"
  | .persistentVolume => "persistentVolume"
  | .ephemeralTmpfs => "tmpfs"
  | .ephemeralWritableLayer => "writableLayer"

/-- What `ephemeral_risk_fingerprint` digests: the facts of a loss of data. -/
def ephemeralFields (profileId containerName containerId root : List Char)
    (facts : PersistenceFacts) : List (List Char) :=
  [decimalDigits 1, profileId, containerName, containerId, root, facts.classification.word.toList,
    facts.mountDestination, facts.mountType.toList, facts.readWrite.toList,
    facts.backingIdentityHash]

/-! ### Risks -/

/-- What a preflight sees of a container. -/
structure Observed where
  containerId : List Char
  uid : ℕ
  gid : ℕ
  persistence : PersistenceFacts

/-- The container has the risk. -/
def Observed.present (o : Observed) : RiskKind → Bool
  | .rootExecution => o.uid = 0
  | .ephemeralData =>
    match o.persistence.classification with
    | .ephemeralTmpfs | .ephemeralWritableLayer => true
    | .persistentBind | .persistentVolume => false

/-- The facts of a risk of a profile. -/
def RiskKind.fields (kind : RiskKind) (profile : RemoteProfile) (o : Observed) :
    List (List Char) :=
  match profile.executionTarget with
  | .host => []
  | .dockerContainer containerName user _ root =>
    match kind with
    | .rootExecution => rootFields profile.id containerName o.containerId user o.uid o.gid
    | .ephemeralData => ephemeralFields profile.id containerName o.containerId root o.persistence

def RiskKind.text : RiskKind → String
  | .rootExecution => "rootExecution"
  | .ephemeralData => "ephemeralData"

/-- The fingerprint that is kept for a kind of risk. -/
def RiskAcknowledgements.slot (risks : RiskAcknowledgements) : RiskKind → Option (List Char)
  | .rootExecution => risks.rootFingerprint
  | .ephemeralData => risks.ephemeralFingerprint

section Preflight

variable (json : DockerJson) (sha : List UInt8 → List Char) (profile : RemoteProfile)
  (run : List Char → Except String CommandOutput)

/-- `preflight_docker`, up to the facts.  What is run on the remote host is answered by `run`. -/
def observe : Except String Observed :=
  match profile.executionTarget with
  | .host => .error "Docker preflight requires a Docker profile"
  | .dockerContainer containerName user workdir root => do
    let _ ← succeed "Docker CLI unavailable or permission denied"
      (run "docker version --format '\x7b\x7b.Client.Version\x7d\x7d'".toList)
    let listed ← succeed "could not list Docker containers" (run (shellJoin ["docker".toList,
      "container".toList, "ls".toList, "-a".toList, "--format".toList,
      "\x7b\x7bjson .\x7d\x7d".toList]))
    let records ← (parseContainerList json listed.stdout).mapError DockerTargetError.text
    let record ← (resolveExactRunning records containerName).mapError DockerTargetError.text
    let inspected ← succeed "could not inspect Docker container" (run (shellJoin ["docker".toList,
      "container".toList, "inspect".toList, record.id]))
    let inspect ← (parseInspect json inspected.stdout).mapError DockerTargetError.text
    if inspect.id ≠ record.id ∨ !inspect.running ∨ inspect.paused ∨ inspect.restarting ∨
        inspect.dead then
      throw "container stopped or was replaced during preflight"
    let target : ResolvedDockerTarget := ⟨inspect.id, user, workdir, root, []⟩
    let identity ← succeed "container user, shell, Pantoken root, or workdir is unavailable"
      (run (shellJoin (target.commandWords (identityScript root (workdir.getD root)).render)))
    let (uid, gid) ← parseIdentity identity.stdout
    let persistence ← (persistenceFacts (fun value => sha (Utf8.encode value)) root
      inspect.mounts).mapError DockerTargetError.text
    return ⟨inspect.id, uid, gid, persistence⟩

/-- The risks there are that the profile has not acknowledged. -/
def pendingRisks (o : Observed) : List PendingRisk :=
  [RiskKind.rootExecution, RiskKind.ephemeralData].filterMap fun kind =>
    let print := fingerprint sha (kind.fields profile o)
    if o.present kind ∧ profile.riskAcknowledgements.slot kind ≠ some print then
      some ⟨kind.text, kind, String.ofList print⟩
    else none

inductive PreflightOutcome
  | ready (target : ResolvedDockerTarget)
  | awaitingAcknowledgement (phase : PreflightPhase) (pendingRisks : List PendingRisk)

/-- The target that a preflight pins. -/
def Observed.target (o : Observed) (user : List Char) (workdir : Option (List Char))
    (root : List Char) : ResolvedDockerTarget where
  containerId := o.containerId
  user := user
  workdir := workdir
  pantokenRoot := root
  env := [("PANTOKEN_REMOTE_ROOT".toList, root),
    ("PANTOKEN_SERVE_MODE".toList, "stdio-proxy".toList)]

/-- `preflight_docker` -/
def preflightDocker : Except String PreflightOutcome :=
  match profile.executionTarget with
  | .host => .error "Docker preflight requires a Docker profile"
  | .dockerContainer _ user workdir root => do
    let o ← observe json sha profile run
    let pending := pendingRisks sha profile o
    if pending = [] then return .ready (o.target user workdir root)
    else return .awaitingAcknowledgement .checkingPersistence pending

end Preflight

/-! ### What a preflight decides -/

/-- Facts are read off the bytes that are digested for them. -/
theorem message_injective : Function.Injective message :=
  Numeral.fields_injective.comp (List.map_injective_iff.mpr Utf8.encode_injective)

/-- Where the digest has no collision, a fingerprint is that of its facts. -/
theorem fields_of_fingerprint_eq {sha : List UInt8 → List Char} {messages : Set (List UInt8)}
    (hsha : Set.InjOn sha messages) {fields fields' : List (List Char)}
    (hfields : message fields ∈ messages) (hfields' : message fields' ∈ messages)
    (h : fingerprint sha fields = fingerprint sha fields') : fields = fields' :=
  message_injective (hsha hfields hfields' h)

section Decisions

variable {json : DockerJson} {sha : List UInt8 → List Char} {profile profile' : RemoteProfile}
  {run : List Char → Except String CommandOutput} {o : Observed}

theorem RiskKind.mem_kinds (kind : RiskKind) : kind ∈ [RiskKind.rootExecution, .ephemeralData] := by
  cases kind <;> decide

/-- The facts of a risk are of the target and the id of a profile. -/
theorem RiskKind.fields_congr (hid : profile'.id = profile.id)
    (h : profile'.executionTarget = profile.executionTarget) (kind : RiskKind) :
    kind.fields profile' o = kind.fields profile o := by
  unfold RiskKind.fields
  rw [h, hid]

/-- **What a preflight shows**: the risks there are whose fingerprint the profile has not. -/
theorem mem_pendingRisks {risk : PendingRisk} :
    risk ∈ pendingRisks sha profile o ↔
      o.present risk.kind = true ∧
        profile.riskAcknowledgements.slot risk.kind ≠
          some (fingerprint sha (risk.kind.fields profile o)) ∧
        risk = ⟨risk.kind.text, risk.kind,
          String.ofList (fingerprint sha (risk.kind.fields profile o))⟩ := by
  rw [pendingRisks, List.mem_filterMap]
  constructor
  · rintro ⟨kind, -, h⟩
    dsimp only at h
    split at h
    · next hpending =>
      cases h
      exact ⟨hpending.1, hpending.2, rfl⟩
    · cases h
  · rintro ⟨hpresent, hslot, h⟩
    refine ⟨risk.kind, risk.kind.mem_kinds, ?_⟩
    dsimp only
    rw [if_pos ⟨hpresent, hslot⟩, ← h]

theorem pendingRisks_eq_nil_iff : pendingRisks sha profile o = [] ↔
    ∀ kind, o.present kind = true →
      profile.riskAcknowledgements.slot kind = some (fingerprint sha (kind.fields profile o)) := by
  rw [List.eq_nil_iff_forall_not_mem]
  constructor
  · intro h kind hpresent
    by_contra hslot
    exact h ⟨kind.text, kind, String.ofList (fingerprint sha (kind.fields profile o))⟩
      (mem_pendingRisks.mpr ⟨hpresent, hslot, rfl⟩)
  · intro h risk hrisk
    obtain ⟨hpresent, hslot, -⟩ := mem_pendingRisks.mp hrisk
    exact hslot (h _ hpresent)

/-- A container is seen for a profile that has one. -/
theorem target_of_observe (ho : observe json sha profile run = .ok o) :
    ∃ containerName user workdir root,
      profile.executionTarget = .dockerContainer containerName user workdir root := by
  cases htarget : profile.executionTarget with
  | host =>
    unfold observe at ho
    rw [htarget] at ho
    cases ho
  | dockerContainer containerName user workdir root => exact ⟨_, _, _, _, rfl⟩

/-- What a preflight that sees the container comes to. -/
theorem preflightDocker_of_observe {containerName user root : List Char}
    {workdir : Option (List Char)}
    (htarget : profile.executionTarget = .dockerContainer containerName user workdir root)
    (ho : observe json sha profile run = .ok o) :
    preflightDocker json sha profile run =
      .ok (if pendingRisks sha profile o = [] then .ready (o.target user workdir root)
        else .awaitingAcknowledgement .checkingPersistence (pendingRisks sha profile o)) := by
  unfold preflightDocker
  rw [htarget, ho]
  show (if pendingRisks sha profile o = [] then _ else _) = _
  split <;> rfl

/-- A preflight that comes to its end has seen the container. -/
theorem observe_of_preflightDocker {outcome : PreflightOutcome}
    (h : preflightDocker json sha profile run = .ok outcome) :
    ∃ containerName user workdir root o,
      profile.executionTarget = .dockerContainer containerName user workdir root ∧
      observe json sha profile run = .ok o := by
  unfold preflightDocker at h
  cases htarget : profile.executionTarget with
  | host =>
    rw [htarget] at h
    cases h
  | dockerContainer containerName user workdir root =>
    rw [htarget] at h
    cases ho : observe json sha profile run with
    | error e =>
      rw [ho] at h
      cases h
    | ok o => exact ⟨containerName, user, workdir, root, o, rfl, rfl⟩

/-- **A container is ready exactly when each risk there is has its fingerprint in the profile.** -/
theorem preflightDocker_ready (ho : observe json sha profile run = .ok o) :
    (∃ target, preflightDocker json sha profile run = .ok (.ready target)) ↔
      ∀ kind, o.present kind = true → profile.riskAcknowledgements.slot kind =
        some (fingerprint sha (kind.fields profile o)) := by
  rw [← pendingRisks_eq_nil_iff]
  constructor
  · rintro ⟨target, h⟩
    obtain ⟨containerName, user, workdir, root, -, htarget, -⟩ := observe_of_preflightDocker h
    rw [preflightDocker_of_observe htarget ho] at h
    by_contra hpending
    rw [if_neg hpending] at h
    cases h
  · intro hpending
    obtain ⟨containerName, user, workdir, root, htarget⟩ := target_of_observe ho
    exact ⟨_, by rw [preflightDocker_of_observe htarget ho, if_pos hpending]⟩

end Decisions

/-! ### Whose acknowledgement it is -/

/-- What enters the fingerprint of a risk from a profile. -/
def RiskKind.profileFields (kind : RiskKind) (profile : RemoteProfile) : List (List Char) :=
  match profile.executionTarget, kind with
  | .host, _ => []
  | .dockerContainer containerName user _ _, .rootExecution => [profile.id, containerName, user]
  | .dockerContainer containerName _ _ root, .ephemeralData => [profile.id, containerName, root]

section Transplants

variable {sha : List UInt8 → List Char} {messages : Set (List UInt8)}
  {profile profile' : RemoteProfile} {o o' : Observed} {kind : RiskKind}

theorem RiskKind.profileFields_of_fields_eq
    (h : kind.fields profile' o' = kind.fields profile o) :
    kind.profileFields profile' = kind.profileFields profile := by
  unfold RiskKind.fields RiskKind.profileFields at *
  cases htarget : profile.executionTarget with
  | host =>
    cases htarget' : profile'.executionTarget with
    | host => rfl
    | dockerContainer containerName' user' workdir' root' =>
      rw [htarget, htarget'] at h
      cases kind <;> cases h
  | dockerContainer containerName user workdir root =>
    cases htarget' : profile'.executionTarget with
    | host =>
      rw [htarget, htarget'] at h
      cases kind <;> cases h
    | dockerContainer containerName' user' workdir' root' =>
      rw [htarget, htarget'] at h
      cases kind with
      | rootExecution =>
        simp only [rootFields, List.cons.injEq] at h
        obtain ⟨-, hid, hname, -, huser, -⟩ := h
        dsimp only
        rw [hid, hname, huser]
      | ephemeralData =>
        simp only [ephemeralFields, List.cons.injEq] at h
        obtain ⟨-, hid, hname, -, hroot, -⟩ := h
        dsimp only
        rw [hid, hname, hroot]

/-- A risk that is there is pending unless the profile has its fingerprint. -/
theorem exists_pending_iff (hpresent : o.present kind = true) :
    (∃ risk ∈ pendingRisks sha profile o, risk.kind = kind) ↔
      profile.riskAcknowledgements.slot kind ≠
        some (fingerprint sha (kind.fields profile o)) := by
  constructor
  · rintro ⟨risk, hrisk, rfl⟩
    exact (mem_pendingRisks.mp hrisk).2.1
  · intro hslot
    exact ⟨⟨kind.text, kind, String.ofList (fingerprint sha (kind.fields profile o))⟩,
      mem_pendingRisks.mpr ⟨hpresent, hslot, rfl⟩, rfl⟩

/-- **An acknowledgement that is carried over to other facts** leaves the risk pending exactly
when one of the facts is another. -/
theorem pending_iff_fields_ne (hsha : Set.InjOn sha messages)
    (hfields : message (kind.fields profile o) ∈ messages)
    (hfields' : message (kind.fields profile' o') ∈ messages)
    (hpresent : o'.present kind = true)
    (hslot : profile'.riskAcknowledgements.slot kind =
      some (fingerprint sha (kind.fields profile o))) :
    (∃ risk ∈ pendingRisks sha profile' o', risk.kind = kind) ↔
      kind.fields profile' o' ≠ kind.fields profile o := by
  rw [exists_pending_iff hpresent, hslot]
  refine not_congr ⟨fun h => ?_, fun h => by rw [h]⟩
  exact (fields_of_fingerprint_eq hsha hfields hfields' (Option.some.inj h)).symm

/-- **An acknowledgement holds for its facts and no others.**  The bytes that are digested are
those of the facts alone; the fingerprint that is asked for is that of the facts there are; and
where the digest has no collision, a profile that takes over the fingerprint of other facts, or
one of whose own fields that enter it has changed, has its risk pending again. -/
theorem acknowledgement_exact (sha : List UInt8 → List Char) :
    (∀ fields fields', message fields = message fields' ↔ fields = fields') ∧
    (∀ (profile : RemoteProfile) (o : Observed) (kind : RiskKind), o.present kind = true →
      ((∀ risk ∈ pendingRisks sha profile o, risk.kind ≠ kind) ↔
        profile.riskAcknowledgements.slot kind =
          some (fingerprint sha (kind.fields profile o)))) ∧
    ∀ messages, Set.InjOn sha messages →
      ∀ (profile profile' : RemoteProfile) (o o' : Observed) (kind : RiskKind),
      message (kind.fields profile o) ∈ messages → message (kind.fields profile' o') ∈ messages →
      o'.present kind = true →
      profile'.riskAcknowledgements.slot kind =
        some (fingerprint sha (kind.fields profile o)) →
      ((∃ risk ∈ pendingRisks sha profile' o', risk.kind = kind) ↔
        kind.fields profile' o' ≠ kind.fields profile o) ∧
      (kind.profileFields profile' ≠ kind.profileFields profile →
        ∃ risk ∈ pendingRisks sha profile' o', risk.kind = kind) := by
  refine ⟨fun fields fields' => message_injective.eq_iff, ?_, ?_⟩
  · intro profile o kind hpresent
    have hpending : (¬ ∃ risk ∈ pendingRisks sha profile o, risk.kind = kind) ↔
        ¬ profile.riskAcknowledgements.slot kind ≠
          some (fingerprint sha (kind.fields profile o)) :=
      not_congr (exists_pending_iff hpresent)
    rw [not_not] at hpending
    rw [← hpending]
    exact ⟨fun h ⟨risk, hrisk, hkind⟩ => h risk hrisk hkind,
      fun h risk hrisk hkind => h ⟨risk, hrisk, hkind⟩⟩
  · intro messages hsha profile profile' o o' kind hfields hfields' hpresent hslot
    have hiff := pending_iff_fields_ne hsha hfields hfields' hpresent hslot
    exact ⟨hiff, fun hne => hiff.mpr (mt RiskKind.profileFields_of_fields_eq hne)⟩

end Transplants

end Pantoken.Desktop
