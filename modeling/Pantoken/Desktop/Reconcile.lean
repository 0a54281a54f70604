import Mathlib.Logic.Function.Iterate
import Pantoken.Desktop.RemoteRoot
import Pantoken.Lib.PMap
import Pantoken.Remote.Semver

/-!
# Provisioning again

Each connect provisions the remote host: it asks which polytoken the `PATH` of the host has,
installs one below the managed root if that is missing or too old, and installs the server below
the root unless it is there.  A host that was provisioned is provisioned again by the next
connect, which is to find everything in place.

## Main definitions

* `HostState` — the executable files of a host and what its probe says.
* `checkCompatibility` — the version that is found, against the one that is wanted.
* `reconcileOn` — one run: its outcome, the host after it, and what it did.
* `Idempotent` — every further run does nothing and resolves the same paths.

## Main results

* `sends_reconcileOn` — a run sends what an attempt does.
* `reconcileOn_settled` — a run on a host with all in place.
* `idempotent_iff` — **a provisioned host stays as it is exactly if its `PATH` had the polytoken
  from the start.**
-/

namespace Pantoken.Desktop

open Lexicographic
open Remote.Semver (parseVersion compareSemver)

namespace Provisioning

/-! ### The version on the host -/

/-- `PolytokenCompat` -/
inductive Compat
  | missing
  | tooOld (found target : List Char)
  | compatible (found target : List Char) (newerThanTarget : Bool)
  | unparseable (raw : List Char)
  deriving DecidableEq

/-- The loop of `parse_semver_prefix`: the characters it takes, by the number of dots so far. -/
def semverPrefix (seenDot : ℕ) : List Char → List Char × ℕ
  | [] => ([], seenDot)
  | c :: cs =>
    if c = '.' then
      let (taken, dots) := semverPrefix (seenDot + 1) cs
      (c :: taken, dots)
    else if c = '-' ∧ seenDot = 2 ∨ c.isAlphanum then
      let (taken, dots) := semverPrefix seenDot cs
      (c :: taken, dots)
    else ([], seenDot)

def parseSemverPrefix (s : List Char) : Option (List Char) :=
  let (candidate, seenDot) := semverPrefix 0 s
  if seenDot < 2 then none
  else if (parseVersion candidate).isSome then some candidate else none

/-- `extract_semver_from_line` -/
def extractSemverFromLine (line : List Char) : Option (List Char) :=
  line.tails.findSome? fun rest =>
    match rest with
    | c :: _ => if c.isDigit then parseSemverPrefix rest else none
    | [] => none

def classifyCompat (found : Option (List Char)) (target : List Char) : Compat :=
  match found with
  | none => .missing
  | some found =>
    if (parseVersion found).isNone then .unparseable found
    else
      match compareSemver found target with
      | .lt => .tooOld found target
      | .eq => .compatible found target false
      | .gt => .compatible found target true

/-! ### The host -/

/-- A remote host, as far as provisioning asks and changes it. -/
structure HostState where
  os : List Char
  arch : List Char
  libc : List Char
  shell : RemoteShell
  /-- What the `grep` of the probe takes of a version line. -/
  grep : List Char → List Char
  /-- The places where `polytoken` is looked up, in the order of `PATH`. -/
  search : List (List Char)
  /-- The executable files, with the first line that `--version` prints. -/
  files : PMap (List Char) (List Char)

/-- `ProbeResult`, of the fields that are read. -/
structure ProbeResult where
  os : List Char
  arch : List Char
  libc : List Char
  polytokenVersion : Option (List Char)
  deriving DecidableEq

namespace HostState

/-- What the polytoken that `PATH` resolves to prints as its version. -/
def onPath (h : HostState) : Option (List Char) := h.search.findSome? h.files

/-- `probe_remote` -/
def probe (h : HostState) : ProbeResult where
  os := h.os
  arch := h.arch
  libc := h.libc
  polytokenVersion := (h.onPath.map h.grep).filter (· ≠ [])

/-- `check_compatibility`, after the probe. -/
def checkCompatibility (h : HostState) : Compat :=
  classifyCompat (h.probe.polytokenVersion.or (h.onPath.bind extractSemverFromLine))
    polytokenVersion

/-- `test -x` -/
def executable (h : HostState) (path : List Char) : Bool := (h.files (h.shell.quoted path)).isSome

/-- An install script: the directory is replaced by one with the binary in it. -/
def installed (h : HostState) (dir binary line : List Char) : HostState :=
  { h with
    files := fun p =>
      if p = h.shell.quoted binary then some line
      else if h.shell.quoted dir ++ ['/'] <+: p then none
      else h.files p }

end HostState

def ProbeResult.targetTriple (probe : ProbeResult) : Option Target :=
  if probe.os = "linux".toList ∧ probe.arch = "x86_64".toList ∧ probe.libc = "glibc".toList then
    some .linux
  else if probe.os = "darwin".toList ∧
      (probe.arch = "aarch64".toList ∨ probe.arch = "arm64".toList) ∧
      probe.libc = "darwin".toList then some .macos
  else none

def polytokenPathFromProbe (probe : ProbeResult) : Option (List Char) :=
  if probe.polytokenVersion.isSome then some "polytoken".toList else none

/-! ### A run -/

/-- What a run does. -/
inductive Deed
  | probe
  | versionCheck
  | fetch (url : List Char)
  | send (step : Step)

/-- A download, an upload or a script other than the check for a file. -/
def Deed.Installs : Deed → Prop
  | .probe | .versionCheck => False
  | .fetch _ => True
  | .send (.script script) => ∀ binary, script ≠ binaryCheckScript binary
  | .send _ => True

/-- `ReconcileOutcome`, without the provenance. -/
inductive Outcome
  | ready (probe : ProbeResult) (compat : Compat) (polytokenBinaryPath : Option (List Char))
    (serverBinaryPath : List Char)
  | installed (probe : ProbeResult) (polytokenBinaryPath : Option (List Char))
    (serverBinaryPath : List Char)
  | missing (probe : ProbeResult)
  | unsupportedTarget (probe : ProbeResult)
  | failed (detail : List Char)

/-- The paths of polytoken and of the server, where there are any. -/
def Outcome.paths : Outcome → Option (Option (List Char) × List Char)
  | .ready _ _ polytoken server | .installed _ polytoken server => some (polytoken, server)
  | _ => none

/-- What the downloads hold, and the text of a provenance. -/
structure Release where
  polytokenLine : List Char
  serverLine : List Char
  provenance : String

/-- `resolve_artifact_urls`, of the wanted version: the archive and the checksums. -/
def artifactUrls (target : Target) : List (List Char) :=
  let base := "https://dl.polytoken.dev/unstable/".toList ++ polytokenVersion
  match target with
  | .linux =>
    [base ++ "/linux-amd64/polytoken.tar.gz".toList, base ++ "/SHA256SUMS.linux".toList]
  | .macos =>
    [base ++ "/macos-arm64/polytoken.zip".toList, base ++ "/SHA256SUMS.macos".toList]

/-- The artifact of the embedded manifest. -/
def serverUrl (target : Target) : List Char :=
  "https://github.com/TimoFreiberg/pantoken/releases/download/v".toList ++ releaseVersion ++
    '/' :: target.serverArchive.toList

/-- What the scripts of an attempt depend on. -/
def found (h : HostState) (target : Target) (release : Release) (root : List Char) : Found where
  target := target
  compat :=
    match h.checkCompatibility with
    | .compatible .. => .compatible
    | .missing | .tooOld .. => .missingOrTooOld
    | .unparseable _ => .unparseable
  serverInstalled := h.executable (releaseArtifact root target)
  provenance := release.provenance

/-- `install_server` with its checks before, `ensure_server_installed`.  The downloads are good
and everything that is sent is done. -/
def ensureServer (h : HostState) (target : Target) (release : Release) (root : List Char) :
    HostState × List Deed :=
  let check := .send (.script (binaryCheckScript (releaseArtifact root target)))
  if h.executable (releaseArtifact root target) then (h, [check])
  else
    (h.installed (releaseDir root target) (releaseArtifact root target) release.serverLine,
      [check, .fetch (serverUrl target)] ++
        (installServer root (found h target release root)).map .send)

/-- The deeds before the decision. -/
def looks (h : HostState) : List Deed :=
  .probe :: if h.probe.polytokenVersion.isSome then [] else [.versionCheck]

/-- `reconcile`, where it installs polytoken. -/
def installAll (profile : RemoteProfile) (release : Release) (h : HostState) (target : Target) :
    Outcome × HostState × List Deed :=
  let root := profile.remoteRoot
  let h' := h.installed (polytokenDir root target) (polytokenBinary root target)
    release.polytokenLine
  let (h'', deeds) := ensureServer h' target release root
  (.installed h.probe (some (polytokenBinary root target)) (releaseArtifact root target), h'',
    looks h ++ [.send (.script (cleanupScript (polytokenDir root target)))] ++
      (artifactUrls target).map .fetch ++
      (installPolytoken root (found h target release root)).map .send ++ deeds)

/-- `reconcile` -/
def reconcileOn (profile : RemoteProfile) (release : Release) (h : HostState) :
    Outcome × HostState × List Deed :=
  let root := profile.remoteRoot
  match h.probe.targetTriple with
  | none => (.unsupportedTarget h.probe, h, [.probe])
  | some target =>
    match h.checkCompatibility with
    | .compatible f t newer =>
      let (h', deeds) := ensureServer h target release root
      (.ready h.probe (.compatible f t newer) (polytokenPathFromProbe h.probe)
        (releaseArtifact root target), h', looks h ++ deeds)
    | .missing | .tooOld .. =>
      if profile.polytokenPolicy = .requireExisting then (.missing h.probe, h, looks h)
      else installAll profile release h target
    | .unparseable raw =>
      (.failed ("polytoken version unparseable: ".toList ++ raw), h, looks h)

/-- The host before the run of this number. -/
def hostBefore (profile : RemoteProfile) (release : ℕ → Release) (h : HostState) : ℕ → HostState
  | 0 => h
  | n + 1 => (reconcileOn profile (release n) (hostBefore profile release h n)).2.1

/-- The run of this number. -/
def runAt (profile : RemoteProfile) (release : ℕ → Release) (h : HostState) (n : ℕ) :
    Outcome × HostState × List Deed :=
  reconcileOn profile (release n) (hostBefore profile release h n)

/-- **Every further run does no install and resolves the paths of the first one.** -/
def Idempotent (profile : RemoteProfile) (release : ℕ → Release) (h : HostState) : Prop :=
  ∀ n, (∀ d ∈ (runAt profile release h (n + 1)).2.2, ¬ d.Installs) ∧
    (runAt profile release h (n + 1)).1.paths = (runAt profile release h 0).1.paths

/-- The polytoken of the host is the wanted one, or newer. -/
def HostState.Compatible (h : HostState) : Prop :=
  ∃ found target newer, h.checkCompatibility = .compatible found target newer

/-- The `PATH` has a polytoken that fits, and still has one when the server has got its
directory. -/
def PathFits (profile : RemoteProfile) (release : Release) (h : HostState) : Prop :=
  ∀ target, h.probe.targetTriple = some target →
    let h' := (ensureServer h target release profile.remoteRoot).1
    h.Compatible ∧ h'.Compatible ∧
      (h'.probe.polytokenVersion.isSome ↔ h.probe.polytokenVersion.isSome)

/-! ### Runs on a provisioned host -/

section Runs

variable {profile : RemoteProfile} {release : Release} {h : HostState} {target : Target}
  {root : List Char}

/-- The server is in place after it was ensured. -/
theorem executable_ensureServer :
    (ensureServer h target release root).1.executable (releaseArtifact root target) = true := by
  rw [ensureServer]
  split_ifs with hthere
  · exact hthere
  · simp [HostState.executable, HostState.installed]

theorem ensureServer_of_executable
    (hthere : h.executable (releaseArtifact root target) = true) :
    ensureServer h target release root =
      (h, [.send (.script (binaryCheckScript (releaseArtifact root target)))]) := if_pos hthere

theorem targetTriple_ensureServer :
    (ensureServer h target release root).1.probe.targetTriple = h.probe.targetTriple := by
  rw [ensureServer]
  split_ifs <;> rfl

theorem not_installs_looks : ∀ d ∈ looks h, ¬ d.Installs := by
  intro d hd
  rw [looks] at hd
  split_ifs at hd
  · rw [List.mem_singleton.mp hd]
    exact id
  · rcases List.mem_cons.mp hd with rfl | hd
    · exact id
    · rw [List.mem_singleton.mp hd]
      exact id

theorem reconcileOn_of_compatible (htarget : h.probe.targetTriple = some target)
    {f t : List Char} {newer : Bool} (hcompat : h.checkCompatibility = .compatible f t newer) :
    reconcileOn profile release h =
      (.ready h.probe (.compatible f t newer) (polytokenPathFromProbe h.probe)
        (releaseArtifact profile.remoteRoot target),
        (ensureServer h target release profile.remoteRoot).1,
        looks h ++ (ensureServer h target release profile.remoteRoot).2) := by
  rw [reconcileOn, htarget]
  dsimp only
  rw [hcompat]

/-- **A run on a host that has all in place** leaves it as it is and only looks. -/
theorem reconcileOn_settled (profile : RemoteProfile) (release : Release)
    (htarget : h.probe.targetTriple = some target) (hfits : h.Compatible)
    (hthere : h.executable (releaseArtifact profile.remoteRoot target) = true) :
    (reconcileOn profile release h).2.1 = h ∧
      (∀ d ∈ (reconcileOn profile release h).2.2, ¬ d.Installs) ∧
      (reconcileOn profile release h).1.paths =
        some (polytokenPathFromProbe h.probe, releaseArtifact profile.remoteRoot target) := by
  obtain ⟨f, t, newer, hcompat⟩ := hfits
  rw [reconcileOn_of_compatible htarget hcompat, ensureServer_of_executable hthere]
  refine ⟨rfl, fun d hd => ?_, rfl⟩
  rcases List.mem_append.mp hd with hd | hd
  · exact not_installs_looks d hd
  · rw [List.mem_singleton.mp hd]
    exact fun hne => hne _ rfl

theorem reconcileOn_of_not_compatible (htarget : h.probe.targetTriple = some target)
    (hfits : ¬ h.Compatible) (hpaths : (reconcileOn profile release h).1.paths.isSome) :
    reconcileOn profile release h = installAll profile release h target := by
  rw [reconcileOn, htarget] at hpaths ⊢
  dsimp only at hpaths ⊢
  cases hcompat : h.checkCompatibility with
  | missing =>
    rw [hcompat] at hpaths
    dsimp only at hpaths ⊢
    split_ifs at hpaths ⊢
    · cases hpaths
    · rfl
  | tooOld f t =>
    rw [hcompat] at hpaths
    dsimp only at hpaths ⊢
    split_ifs at hpaths ⊢
    · cases hpaths
    · rfl
  | compatible f t newer => exact absurd ⟨f, t, newer, hcompat⟩ hfits
  | unparseable raw =>
    rw [hcompat] at hpaths
    cases hpaths

/-- A run that resolves its paths has a target. -/
theorem target_of_paths (hpaths : (reconcileOn profile release h).1.paths.isSome) :
    ∃ target, h.probe.targetTriple = some target := by
  rcases htarget : h.probe.targetTriple with _ | target
  · rw [reconcileOn, htarget] at hpaths
    cases hpaths
  · exact ⟨target, rfl⟩

theorem installAll_installs (profile : RemoteProfile) (release : Release) (h : HostState)
    (target : Target) : ∃ d ∈ (installAll profile release h target).2.2, d.Installs := by
  obtain ⟨url, urls, hurls⟩ : ∃ url urls, artifactUrls target = url :: urls := by
    cases target <;> exact ⟨_, _, rfl⟩
  refine ⟨.fetch url, ?_, trivial⟩
  rw [installAll, hurls]
  simp

/-- What a deed sends to the host, if it is not a look. -/
def Deed.sent : Deed → Option Step
  | .send step => some step
  | _ => none

theorem sent_map_send (steps : List Step) : (steps.map Deed.send).filterMap Deed.sent = steps := by
  rw [List.filterMap_map]
  exact List.filterMap_some

theorem sent_looks (h : HostState) : (looks h).filterMap Deed.sent = [] := by
  rw [looks]
  split_ifs <;> rfl

theorem sent_ensureServer (compat : PolytokenCompat) :
    (ensureServer h target release root).2.filterMap Deed.sent =
      ensureServerInstalled root ⟨target, compat,
        h.executable (releaseArtifact root target), release.provenance⟩ := by
  rw [ensureServer, ensureServerInstalled]
  by_cases hthere : h.executable (releaseArtifact root target) = true
  · simp only [hthere, if_true]
    rfl
  · simp only [hthere, Bool.false_eq_true, if_false, List.filterMap_append, sent_map_send]
    rfl

theorem sent_fetches (urls : List (List Char)) :
    (urls.map Deed.fetch).filterMap Deed.sent = [] := by
  rw [List.filterMap_map]
  exact List.filterMap_none _

/-- **A run sends what an attempt of its host does**, with the check for the server on the host
as it is then. -/
theorem sends_reconcileOn (htarget : h.probe.targetTriple = some target) :
    ∃ serverInstalled, (reconcileOn profile release h).2.2.filterMap Deed.sent =
      (reconcile profile { found h target release profile.remoteRoot with
        serverInstalled := serverInstalled }).1 := by
  cases hcompat : h.checkCompatibility with
  | compatible f t newer =>
    refine ⟨h.executable (releaseArtifact profile.remoteRoot target), ?_⟩
    rw [reconcileOn_of_compatible htarget hcompat, List.filterMap_append, sent_looks,
      List.nil_append, sent_ensureServer .compatible, reconcile]
    simp only [found, hcompat]
  | missing | tooOld f t =>
    refine ⟨(h.installed (polytokenDir profile.remoteRoot target)
      (polytokenBinary profile.remoteRoot target) release.polytokenLine).executable
        (releaseArtifact profile.remoteRoot target), ?_⟩
    rw [reconcileOn, htarget, reconcile]
    simp only [hcompat, found]
    split_ifs
    · exact sent_looks h
    · simp only [installAll, List.filterMap_append, sent_looks, sent_fetches, sent_map_send,
        sent_ensureServer .missingOrTooOld, hcompat, found, List.append_nil]
      rfl
  | unparseable raw =>
    refine ⟨true, ?_⟩
    rw [reconcileOn, htarget, reconcile]
    simp only [hcompat, found]
    exact sent_looks h

/-- The managed polytoken is not the name that is looked up. -/
theorem polytokenBinary_ne (root : List Char) (target : Target) :
    polytokenBinary root target ≠ "polytoken".toList := by
  intro heq
  have hname := length_joinPath (polytokenDir root target) "polytoken".toList (by decide)
  have hdir := length_joinPath (joinPath (polytokenTools root) polytokenVersion) target.triple
    (by cases target <;> decide)
  have htriple : 0 < target.triple.length := by cases target <;> decide
  have hlen : (joinPath (polytokenDir root target) "polytoken".toList).length =
      "polytoken".toList.length := congrArg List.length heq
  have hdir' : (polytokenDir root target).length =
    (joinPath (joinPath (polytokenTools root) polytokenVersion) target.triple).length := rfl
  omega

theorem polytokenPathFromProbe_ne (probe : ProbeResult) (root : List Char) (target : Target) :
    polytokenPathFromProbe probe ≠ some (polytokenBinary root target) := by
  rw [polytokenPathFromProbe]
  split_ifs
  · exact fun heq => polytokenBinary_ne root target (Option.some.inj heq).symm
  · exact Option.some_ne_none _ ∘ Eq.symm

theorem polytokenPathFromProbe_eq_iff (probe probe' : ProbeResult) :
    polytokenPathFromProbe probe = polytokenPathFromProbe probe' ↔
      (probe.polytokenVersion.isSome ↔ probe'.polytokenVersion.isSome) := by
  rw [polytokenPathFromProbe, polytokenPathFromProbe]
  split_ifs with h h' h' <;> simp [h, h']

end Runs

/-! ### The next run -/

section Next

variable {profile : RemoteProfile} {release : ℕ → Release} {h : HostState} {target : Target}

/-- All further runs find the host as the first one left it, if the second one does. -/
theorem hostBefore_succ (htarget : h.probe.targetTriple = some target)
    (hfits : PathFits profile (release 0) h) (n : ℕ) :
    hostBefore profile release h (n + 1) =
      (ensureServer h target (release 0) profile.remoteRoot).1 := by
  obtain ⟨⟨f, t, newer, hcompat⟩, hfits', -⟩ := hfits target htarget
  induction n with
  | zero => rw [hostBefore, hostBefore, reconcileOn_of_compatible htarget hcompat]
  | succ n ih =>
    rw [hostBefore, ih]
    exact (reconcileOn_settled _ _ (targetTriple_ensureServer.trans htarget) hfits'
      executable_ensureServer).1

/-- **A host that was provisioned stays as it is exactly if its `PATH` had the polytoken from the
start**, and not in the directory the server gets. -/
theorem idempotent_iff (profile : RemoteProfile) (release : ℕ → Release) (h : HostState)
    (hfirst : (runAt profile release h 0).1.paths.isSome = true) :
    Idempotent profile release h ↔ PathFits profile (release 0) h := by
  have hrun : runAt profile release h 0 = reconcileOn profile (release 0) h := rfl
  have hhost : hostBefore profile release h 1 = (reconcileOn profile (release 0) h).2.1 := rfl
  rw [hrun] at hfirst
  obtain ⟨target, htarget⟩ := target_of_paths hfirst
  have hsome : ∀ target', h.probe.targetTriple = some target' → target' = target :=
    fun target' htarget' => Option.some.inj (htarget'.symm.trans htarget)
  constructor
  · intro hidem
    obtain ⟨hquiet, hpaths⟩ := hidem 0
    have hnext : (reconcileOn profile (release 1)
        (hostBefore profile release h 1)).1.paths.isSome := by
      rw [show (reconcileOn profile (release 1) (hostBefore profile release h 1)).1.paths =
        (reconcileOn profile (release 0) h).1.paths from hpaths]
      exact hfirst
    obtain ⟨target', htarget'⟩ := target_of_paths hnext
    -- the second run installs nothing, so it found a polytoken that fits
    have hfits' : (hostBefore profile release h 1).Compatible := by
      by_contra hnot
      obtain ⟨d, hd, hinstalls⟩ := installAll_installs profile (release 1)
        (hostBefore profile release h 1) target'
      rw [← reconcileOn_of_not_compatible htarget' hnot hnext] at hd
      exact hquiet d hd hinstalls
    obtain ⟨f', t', newer', hcompat'⟩ := hfits'
    rw [hrun, runAt, reconcileOn_of_compatible htarget' hcompat'] at hpaths
    -- the first run did too, or it would have returned the managed one
    have hfits : h.Compatible := by
      by_contra hnot
      rw [reconcileOn_of_not_compatible htarget hnot hfirst] at hpaths
      exact polytokenPathFromProbe_ne _ _ _ (Prod.mk.inj (Option.some.inj hpaths)).1
    obtain ⟨f, t, newer, hcompat⟩ := hfits
    rw [reconcileOn_of_compatible htarget hcompat] at hpaths hhost
    rw [hhost] at hpaths hcompat'
    intro target'' htarget''
    obtain rfl := hsome target'' htarget''
    exact ⟨⟨f, t, newer, hcompat⟩, ⟨f', t', newer', hcompat'⟩,
      (polytokenPathFromProbe_eq_iff _ _).mp (Prod.mk.inj (Option.some.inj hpaths)).1⟩
  · intro hfits n
    obtain ⟨⟨f, t, newer, hcompat⟩, hfits', hname⟩ := hfits target htarget
    have hsettled := reconcileOn_settled profile (release (n + 1))
      (targetTriple_ensureServer.trans htarget) hfits' executable_ensureServer
    rw [hrun, runAt, hostBefore_succ htarget hfits n, reconcileOn_of_compatible htarget hcompat]
    refine ⟨hsettled.2.1, hsettled.2.2.trans ?_⟩
    rw [(polytokenPathFromProbe_eq_iff _ _).mpr hname]
    rfl

end Next

/-- A Linux host with these executable files. -/
def linuxHost (search : List (List Char)) (files : PMap (List Char) (List Char)) : HostState where
  os := "linux".toList
  arch := "x86_64".toList
  libc := "glibc".toList
  shell := ⟨fun _ => "/home/dev".toList, "/home/dev".toList⟩
  grep line := (extractSemverFromLine line).getD []
  search := search
  files := files

/-- A profile that lets polytoken be installed below `/srv`. -/
def offering : RemoteProfile where
  id := "dev".toList
  label := "dev".toList
  sshDestination := "dev".toList
  port := none
  polytokenPolicy := .offerInstall
  remoteRootOverride := some "/srv".toList
  serverPath := none
  xdgMode := .isolated
  executionTarget := .host
  riskAcknowledgements := ⟨none, none⟩

/-- What the downloads hold. -/
def currentRelease : Release :=
  ⟨"polytoken 0.5.0-unstable.9".toList, "pantoken-server 0.2.88".toList, ""⟩

/-- A host that has the wanted polytoken in `/usr/bin`. -/
def currentHost : HostState :=
  linuxHost ["/usr/bin/polytoken".toList]
    (PMap.empty.insert "/usr/bin/polytoken".toList "polytoken 0.5.0-unstable.9".toList)

theorem idempotent_currentHost : Idempotent offering (fun _ => currentRelease) currentHost :=
  (idempotent_iff offering (fun _ => currentRelease) currentHost (by decide)).mpr
    fun target htarget => by
      obtain rfl : target = .linux := by
        have : currentHost.probe.targetTriple = some .linux := by decide
        exact Option.some.inj (htarget.symm.trans this)
      exact ⟨⟨_, _, _, rfl⟩, ⟨_, _, _, rfl⟩, by decide⟩

/-- Without polytoken on its `PATH` the host gets it again and again. -/
theorem not_idempotent :
    ¬ ∀ (profile : RemoteProfile) (release : ℕ → Release) (h : HostState),
      (runAt profile release h 0).1.paths.isSome = true → Idempotent profile release h := by
  intro hall
  have hidem := hall offering (fun _ => currentRelease)
    (linuxHost ["/usr/bin/polytoken".toList] PMap.empty) (by decide)
  -- the second run finds no polytoken either
  set h' := hostBefore offering (fun _ => currentRelease)
    (linuxHost ["/usr/bin/polytoken".toList] PMap.empty) 1 with hh'
  have hmissing : h'.checkCompatibility = .missing := by
    rw [hh']
    decide
  have hnot : ¬ h'.Compatible := by
    rintro ⟨f, t, newer, hcompat⟩
    cases hmissing.symm.trans hcompat
  have htarget : h'.probe.targetTriple = some .linux := by
    rw [hh']
    decide
  obtain ⟨d, hd, hinstalls⟩ := installAll_installs offering currentRelease h' .linux
  rw [← reconcileOn_of_not_compatible htarget hnot (by rw [hh']; decide)] at hd
  exact (hidem 0).1 d hd hinstalls

end Provisioning

end Pantoken.Desktop
