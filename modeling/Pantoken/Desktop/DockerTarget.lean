import Pantoken.Desktop.RemoteShell
import Pantoken.Lib.UnixPath

/-!
# Docker targets

Target operations of a Docker profile are `docker exec` commands for the remote shell.  A
script goes to a shell in the container; a path that is uploaded to, and the server that is
run, are arguments of their own, which are normalized first.

## Main definitions

* `normalizeAbsolutePath` — a safe absolute path.
* `ResolvedDockerTarget.commandWords`, `uploadWords`, `proxyWords` — the commands.

## Main results

* `normalizeAbsolutePath_ok_iff` — the paths that are not rejected.
* `components_normalizeAbsolutePath` — a normalized path has the same names.
-/

namespace Pantoken.Desktop

inductive DockerTargetError
  | unsafePath | malformedList | containerNotFound | ambiguousContainer
  | containerUnavailable (state : String) | malformedInspect | readOnlyMount
  deriving DecidableEq

/-- `char::is_control` -/
def isControl (c : Char) : Bool := c.toNat < 0x20 ∨ (0x7f ≤ c.toNat ∧ c.toNat < 0xa0)

/-- `normalize_absolute_path` -/
def normalizeAbsolutePath (value : List Char) : Except DockerTargetError (List Char) :=
  if value = [] ∨ value.any isControl ∨ ¬ ['/'] <+: value then .error .unsafePath
  else if "..".toList ∈ components value then .error .unsafePath
  else .ok (joinNames (components value))

structure ResolvedDockerTarget where
  containerId : List Char
  user : List Char
  workdir : Option (List Char)
  pantokenRoot : List Char
  env : List (List Char × List Char)

namespace ResolvedDockerTarget

/-- `exec_prefix` -/
def execPrefix (target : ResolvedDockerTarget) : List (List Char) :=
  ["docker".toList, "exec".toList, "-i".toList, "--user".toList, target.user] ++
    (match target.workdir with
      | some workdir => ["--workdir".toList, workdir]
      | none => []) ++
    target.env.flatMap (fun (key, value) => ["--env".toList, key ++ '=' :: value]) ++
    [target.containerId]

/-- `command_words` -/
def commandWords (target : ResolvedDockerTarget) (script : List Char) : List (List Char) :=
  target.execPrefix ++ ["sh".toList, "-c".toList, script]

/-- `upload_words` -/
def uploadWords (target : ResolvedDockerTarget) (destination : List Char) :
    Except DockerTargetError (List (List Char)) := do
  let destination ← normalizeAbsolutePath destination
  return target.execPrefix ++
    ["sh".toList, "-c".toList, "cat > \"$1\"".toList, "sh".toList, destination]

/-- `proxy_words` -/
def proxyWords (target : ResolvedDockerTarget) (serverPath : List Char) :
    Except DockerTargetError (List (List Char)) := do
  let serverPath ← normalizeAbsolutePath serverPath
  return target.execPrefix ++ [serverPath]

end ResolvedDockerTarget

/-! ### Safe paths -/

section Paths

variable {p q : List Char}

/-- **A path is accepted where it is absolute, without control characters and parents**, and
keeps its names. -/
theorem normalizeAbsolutePath_ok_iff :
    normalizeAbsolutePath p = .ok q ↔ (p.any isControl = false ∧ ['/'] <+: p ∧
      "..".toList ∉ components p) ∧ q = joinNames (components p) := by
  unfold normalizeAbsolutePath
  split_ifs with hbad hdots
  · have hne : ¬ (p.any isControl = false ∧ ['/'] <+: p) := by
      rintro ⟨hcontrol, hslash⟩
      rcases hbad with rfl | h | h
      · exact absurd hslash (by decide)
      · rw [hcontrol] at h
        cases h
      · exact h hslash
    simp only [false_iff]
    exact fun h => hne ⟨h.1.1, h.1.2.1⟩
  · simp only [false_iff]
    exact fun h => h.1.2.2 hdots
  · have hgood : p.any isControl = false ∧ ['/'] <+: p := by
      refine ⟨?_, ?_⟩
      · by_contra h
        exact hbad (.inr (.inl (by simpa using h)))
      · by_contra h
        exact hbad (.inr (.inr h))
    rw [Except.ok.injEq]
    constructor
    · rintro rfl
      exact ⟨⟨hgood.1, hgood.2, hdots⟩, rfl⟩
    · rintro ⟨-, rfl⟩
      rfl

theorem components_normalizeAbsolutePath (h : normalizeAbsolutePath p = .ok q) :
    components q = components p := by
  rw [(normalizeAbsolutePath_ok_iff.mp h).2]
  exact components_joinNames fun _ => mem_components

theorem normalizeAbsolutePath_absolute (h : normalizeAbsolutePath p = .ok q) : ['/'] <+: q := by
  rw [(normalizeAbsolutePath_ok_iff.mp h).2]
  exact ⟨_, rfl⟩

end Paths

end Pantoken.Desktop
