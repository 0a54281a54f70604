import Pantoken.Desktop.DockerTarget
import Pantoken.Lib.Cut

/-!
# Remote profiles

What the user stores of a remote host: how it is reached, whether Pantoken runs on it or in a
container there, and where its files are.  A profile is validated when it is stored and before
each attempt to connect.

## Main definitions

* `RemoteProfile`, `RemoteProfile.validate` — a profile and what it is rejected for.
* `RemoteProfile.remoteRoot`, `RemoteProfile.binaryPath` — the values in effect.

## Main results

* `validateAbsolutePath_ok_iff` — a path is valid exactly where it can be normalized.
-/

namespace Pantoken.Desktop

inductive ExecutionTargetProfile
  | host
  | dockerContainer (containerName user : List Char) (workdir : Option (List Char))
    (pantokenRoot : List Char)
  deriving DecidableEq

structure RiskAcknowledgements where
  rootFingerprint : Option (List Char)
  ephemeralFingerprint : Option (List Char)
  deriving DecidableEq

inductive PolytokenPolicy
  | requireExisting | offerInstall
  deriving DecidableEq

inductive XdgMode
  | isolated | shared
  deriving DecidableEq

structure RemoteProfile where
  id : List Char
  label : List Char
  sshDestination : List Char
  port : Option UInt16
  polytokenPolicy : PolytokenPolicy
  remoteRootOverride : Option (List Char)
  serverPath : Option (List Char)
  xdgMode : XdgMode
  executionTarget : ExecutionTargetProfile
  riskAcknowledgements : RiskAcknowledgements
  deriving DecidableEq

inductive RemoteProfileError
  | emptyId | emptyLabel | emptyDestination
  | invalidPort (port : UInt16)
  | emptyContainerName | invalidContainerUser
  | invalidPath (path : List Char)
  | invalidFingerprint (fingerprint : List Char)
  deriving DecidableEq

/-- `s.trim().is_empty()` -/
def isBlank (s : List Char) : Bool := s.all Cut.isWhitespace

/-- `valid_docker_user` -/
def validDockerUser (s : List Char) : Bool :=
  if s = [] ∨ s.any fun c => isControl c || Cut.isWhitespace c || c = '/' then false
  else if s.all Char.isDigit then true
  else if ':' ∈ s then
    let u := s.takeWhile (· ≠ ':')
    let g := (s.dropWhile (· ≠ ':')).tail
    u ≠ [] && g ≠ [] && u.all Char.isDigit && g.all Char.isDigit
  else s.all fun c => c.isAlphanum || ['.', '_', '-'].contains c

/-- `validate_absolute_path` -/
def validateAbsolutePath (path : List Char) : Except RemoteProfileError Unit :=
  if ¬ ['/'] <+: path ∨ path = [] ∨ path.any isControl ∨ "..".toList ∈ components path then
    .error (.invalidPath path)
  else .ok ()

/-- `valid_fingerprint` -/
def validFingerprint (s : List Char) : Bool :=
  s.length = 64 && s.all fun c => c.isDigit || ['a', 'b', 'c', 'd', 'e', 'f'].contains c

/-- What `validate` asks of the target. -/
def ExecutionTargetProfile.validate : ExecutionTargetProfile → Except RemoteProfileError Unit
  | .host => .ok ()
  | .dockerContainer containerName user workdir pantokenRoot =>
    if isBlank containerName then .error .emptyContainerName
    else if ¬ validDockerUser user then .error .invalidContainerUser
    else do
      validateAbsolutePath pantokenRoot
      match workdir with
      | some path => validateAbsolutePath path
      | none => pure ()

/-- The first of the acknowledged fingerprints that is none. -/
def RiskAcknowledgements.invalid (risks : RiskAcknowledgements) : Option (List Char) :=
  ([risks.rootFingerprint, risks.ephemeralFingerprint].filterMap fun s => s).find? fun s =>
    !validFingerprint s

namespace RemoteProfile

/-- `validate` -/
def validate (profile : RemoteProfile) : Except RemoteProfileError Unit :=
  if isBlank profile.id then .error .emptyId
  else if isBlank profile.label then .error .emptyLabel
  else if isBlank profile.sshDestination then .error .emptyDestination
  else if profile.port = some 0 then .error (.invalidPort 0)
  else do
    profile.executionTarget.validate
    match profile.riskAcknowledgements.invalid with
    | some s => .error (.invalidFingerprint s)
    | none => pure ()

/-- `remote_root` -/
def remoteRoot (profile : RemoteProfile) : List Char :=
  (profile.remoteRootOverride.filter (· ≠ [])).getD "~/.local/share/pantoken".toList

/-- `server_path` -/
def binaryPath (profile : RemoteProfile) : List Char :=
  (profile.serverPath.filter (· ≠ [])).getD "pantoken-server".toList

theorem remoteRoot_ne_nil (profile : RemoteProfile) : profile.remoteRoot ≠ [] := by
  unfold remoteRoot
  cases h : profile.remoteRootOverride.filter (· ≠ []) with
  | none => decide
  | some root =>
    simpa using (Option.filter_eq_some_iff.mp h).2

end RemoteProfile

/-- **A path is valid exactly where it can be normalized.** -/
theorem validateAbsolutePath_ok_iff {path : List Char} :
    validateAbsolutePath path = .ok () ↔ ∃ q, normalizeAbsolutePath path = .ok q := by
  unfold validateAbsolutePath
  constructor
  · intro h
    split_ifs at h with hbad
    simp only [not_or, not_not, Bool.not_eq_true] at hbad
    obtain ⟨hslash, -, hcontrol, hdots⟩ := hbad
    exact ⟨_, normalizeAbsolutePath_ok_iff.mpr ⟨⟨hcontrol, hslash, hdots⟩, rfl⟩⟩
  · rintro ⟨q, h⟩
    obtain ⟨⟨hcontrol, hslash, hdots⟩, -⟩ := normalizeAbsolutePath_ok_iff.mp h
    rw [if_neg]
    rintro (h | rfl | h | h)
    · exact h hslash
    · exact absurd hslash (by decide)
    · rw [hcontrol] at h
      cases h
    · exact hdots h

/-- The container root of a valid profile can be normalized. -/
theorem RemoteProfile.normalize_of_validate {profile : RemoteProfile}
    {containerName user root : List Char} {workdir : Option (List Char)}
    (hdocker : profile.executionTarget = .dockerContainer containerName user workdir root)
    (h : profile.validate = .ok ()) : ∃ q, normalizeAbsolutePath root = .ok q := by
  rw [← validateAbsolutePath_ok_iff]
  unfold RemoteProfile.validate at h
  split_ifs at h
  have htarget : profile.executionTarget.validate = .ok () := by
    cases hvalid : profile.executionTarget.validate with
    | error e =>
      rw [hvalid] at h
      cases h
    | ok u => rfl
  rw [hdocker] at htarget
  dsimp only [ExecutionTargetProfile.validate] at htarget
  split_ifs at htarget
  cases hpath : validateAbsolutePath root with
  | error e =>
    rw [hpath] at htarget
    cases htarget
  | ok u => rfl

end Pantoken.Desktop
