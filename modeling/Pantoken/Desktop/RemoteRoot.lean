import Pantoken.Desktop.Install
import Pantoken.Desktop.RemoteProfile

/-!
# The root of a remote attempt

An attempt to connect installs binaries on the remote host and runs a proxy there.  The paths
it names are below the root of the profile: in the scripts, which quote them one way, in the
uploads and the command of the proxy, which quote them another way or normalize them, and in
the environment of the proxy.  The shell expands a tilde in some of them.

## Main definitions

* `releaseDir`, `polytokenDir`, `polytokenXdg` — the layout below a root.
* `Script`, `Step` — what an attempt sends, with the paths it names.
* `attempt` — preflight, reconciliation and proxy.
* `Step.locate` — the places these paths have on the remote host.
* `OneRoot` — all of them are in one directory.

## Main results

* `render_installScript`, `render_serverInstallScript` — the scripts are those of the install.
* `received_script` — a script reaches the shell in a container as it is.
* `oneRoot_iff` — **the attempts of a profile stay in one directory exactly where its root
  means the same everywhere.**
* `not_oneRoot_default` — the default root does not.
-/

namespace Pantoken.Desktop

open Shell

/-! ### The layout -/

/-- The targets that are provisioned. -/
inductive Target
  | linux | macos
  deriving DecidableEq

/-- `target_triple` -/
def Target.triple : Target → List Char
  | .linux => "x86_64-unknown-linux-gnu".toList
  | .macos => "aarch64-apple-darwin".toList

/-- The release version of the embedded manifest. -/
def releaseVersion : List Char := "0.2.88".toList

/-- `POLYTOKEN_DAEMON_TARGET_VERSION` -/
def polytokenVersion : List Char := "0.5.0-unstable.9".toList

/-- `release_artifact`, without its last name. -/
def releaseDir (root : List Char) (target : Target) : List Char :=
  joinPath (joinPath (joinPath root "releases".toList) releaseVersion) target.triple

/-- `release_artifact` -/
def releaseArtifact (root : List Char) (target : Target) : List Char :=
  joinPath (releaseDir root target) "pantoken-server".toList

/-- `tools_dir`, for polytoken. -/
def polytokenTools (root : List Char) : List Char :=
  joinPath (joinPath root "tools".toList) "polytoken".toList

/-- `polytoken_binary`, without its last name. -/
def polytokenDir (root : List Char) (target : Target) : List Char :=
  joinPath (joinPath (polytokenTools root) polytokenVersion) target.triple

/-- `polytoken_binary` -/
def polytokenBinary (root : List Char) (target : Target) : List Char :=
  joinPath (polytokenDir root target) "polytoken".toList

/-- `install_metadata` -/
def installMetadata (root : List Char) : List Char := joinPath root "install.json".toList

/-- `polytoken_xdg_config`, `polytoken_xdg_data` and `polytoken_xdg_cache`, by the last name. -/
def polytokenXdg (root : List Char) (name : String) : List Char :=
  joinPath (joinPath (polytokenTools root) "xdg".toList) name.toList

/-! ### Scripts -/

/-- A part of a script: text, or a word that is quoted. -/
inductive Piece
  | text (t : String)
  /-- A path that is the attempt's own. -/
  | path (p : List Char)
  /-- Such a path where a dash at its start makes no option of it: what `test` tests, what an
  option of `tar` takes, or a file that is written to. -/
  | argument (p : List Char)
  /-- The directory the user works in. -/
  | workdir (p : List Char)

abbrev Script := List Piece

def Piece.render : Piece → List Char
  | .text t => t.toList
  | .path p | .argument p | .workdir p => posixQuote p

/-- The text of a script. -/
def Script.render (script : Script) : List Char := script.flatMap Piece.render

def Piece.ownPath : Piece → Option (List Char)
  | .path p | .argument p => some p
  | _ => none

/-- The paths a script names. -/
def Script.paths (script : Script) : List (List Char) := script.filterMap Piece.ownPath

/-- The script of `preflight_docker` that probes the user and the root. -/
def identityScript (root workdir : List Char) : Script :=
  [.text "uid=$(id -u) && gid=$(id -g) && home=$\x7bHOME:-\x7d && test -n \"$home\"",
    .text " && command -v sh >/dev/null 2>&1 && mkdir -p ", .path root, .text " && test -w ",
    .argument root, .text " && test -d ", .workdir workdir, .text " && test -w ", .workdir workdir,
    .text " && printf '%s|%s|%s\\n' \"$uid\" \"$gid\" \"$home\""]

/-- `build_binary_check_command` -/
def binaryCheckScript (binary : List Char) : Script :=
  [.text "test -x ", .argument binary, .text " && echo exists || echo missing"]

/-- The script that makes the cache directory. -/
def mkdirScript (dir : List Char) : Script := [.text "mkdir -p ", .path dir]

/-- `build_cleanup_staging_command` -/
def cleanupScript (finalDir : List Char) : Script :=
  [.text "rm -rf ", .path finalDir, .text ".staging-* 2>/dev/null; true"]

/-- `build_write_install_json_command`, of the polytoken binary and of the server. -/
def writeJsonScript (marker : String) (path : List Char) (json : String) : Script :=
  [.text "cat > ", .argument path, .text (" << '" ++ marker ++ "'\n" ++ json ++ "\n" ++ marker)]

/-- `build_install_command` -/
def installScript (finalDir archivePath : List Char) (format : ArchiveFormat) : Script :=
  let stagingDir := finalDir ++ ".staging-$$".toList
  let binaryInStaging := stagingDir ++ "/polytoken".toList
  let extract : Script := match format with
    | .tarGz => [.text "tar xzf ", .argument archivePath, .text " -C ", .argument stagingDir]
    | .zip => [.text "unzip -o ", .path archivePath, .text " -d ", .path stagingDir]
  [.text "set -e; mkdir -p ", .path stagingDir, .text "; "] ++ extract ++
    [.text "; chmod +x ", .path binaryInStaging, .text "; test -x ", .argument binaryInStaging,
      .text "; mkdir -p ", .path finalDir, .text "; rm -rf ", .path finalDir,
      .text "; mv ", .path stagingDir, .text " ", .path finalDir, .text "; rm -f ",
      .path archivePath, .text "; echo ok"]

/-- `build_server_install_command` -/
def serverInstallScript (finalDir archivePath : List Char) (format : ArchiveFormat) : Script :=
  let stagingDir := finalDir ++ ".staging-$$".toList
  let binaryNested := stagingDir ++ '/' :: serverBinaryInArchive
  let binaryRoot := stagingDir ++ "/pantoken-server".toList
  let extract : Script := match format with
    | .tarGz =>
      [.text "tar xzf ", .argument archivePath, .text " -C ", .argument stagingDir,
        .text " bin/pantoken-server"]
    | .zip =>
      [.text "unzip -o ", .path archivePath, .text " bin/pantoken-server -d ", .path stagingDir]
  [.text "set -e; mkdir -p ", .path stagingDir, .text "; "] ++ extract ++
    [.text "; chmod +x ", .path binaryNested, .text "; test -x ", .argument binaryNested,
      .text "; mv ", .path binaryNested, .text " ", .path binaryRoot,
      .text "; mkdir -p ", .path finalDir, .text "; rm -rf ", .path finalDir,
      .text "; mv ", .path stagingDir, .text " ", .path finalDir, .text "; rm -f ",
      .path archivePath, .text "; echo ok"]

theorem render_installScript (finalDir archivePath : List Char) (format : ArchiveFormat) :
    (installScript finalDir archivePath format).render =
      buildInstallCommand finalDir archivePath format := by
  cases format <;>
  · simp only [installScript, buildInstallCommand, Script.render, Piece.render, joinCommands,
      joinWords, List.flatMap_cons, List.flatMap_nil, List.append_assoc, List.cons_append,
      List.nil_append, List.append_nil]
    rfl

theorem render_serverInstallScript (finalDir archivePath : List Char) (format : ArchiveFormat) :
    (serverInstallScript finalDir archivePath format).render =
      buildServerInstallCommand finalDir archivePath format := by
  cases format <;>
  · simp only [serverInstallScript, buildServerInstallCommand, Script.render, Piece.render,
      joinCommands, joinWords, List.flatMap_cons, List.flatMap_nil, List.append_assoc,
      List.cons_append, List.nil_append, List.append_nil]
    rfl

theorem render_cleanupScript (finalDir : List Char) :
    (cleanupScript finalDir).render = buildCleanupStagingCommand finalDir := by
  simp only [cleanupScript, buildCleanupStagingCommand, Script.render, Piece.render, joinCommands,
    joinWords, List.flatMap_cons, List.flatMap_nil, List.append_assoc, List.cons_append,
    List.append_nil]
  rfl

/-! ### The attempt -/

/-- The characters the bridge's `shell_quote` leaves alone. -/
def bridgeSafe (c : Char) : Bool := c.isAlphanum || ['/', '.', '-', '_', '~'].contains c

/-- `shell_quote`, of the bridge. -/
def shellQuote (word : List Char) : List Char := quoteWith bridgeSafe word

abbrev Env := List (String × List Char)

/-- `SshCommand`, of what the remote command says. -/
structure SshCommand where
  remoteRoot : List Char
  serverPath : List Char
  extraEnv : Env

/-- `SshCommand::from` -/
def SshCommand.from (profile : RemoteProfile) : SshCommand where
  remoteRoot := profile.remoteRoot
  serverPath := profile.binaryPath
  extraEnv := match profile.xdgMode with
    | .isolated =>
      [("XDG_CONFIG_HOME", polytokenXdg profile.remoteRoot "config"),
        ("XDG_DATA_HOME", polytokenXdg profile.remoteRoot "data"),
        ("XDG_CACHE_HOME", polytokenXdg profile.remoteRoot "cache")]
    | .shared => []

/-- The variables `remote_command` sets. -/
def SshCommand.env (command : SshCommand) : Env :=
  [("PANTOKEN_SERVE_MODE", "stdio-proxy".toList), ("PANTOKEN_REMOTE_ROOT", command.remoteRoot)] ++
    command.extraEnv

/-- The words of `remote_command`. -/
def SshCommand.words (command : SshCommand) : List (List Char) :=
  command.env.map (fun (key, value) => key.toList ++ '=' :: shellQuote value) ++
    ["exec".toList, shellQuote command.serverPath]

/-- `remote_command` -/
def SshCommand.remoteCommand (command : SshCommand) : List Char := joinWords command.words

/-- What an attempt sends. -/
inductive Step
  | script (script : Script)
  /-- `persistence_facts` of a root. -/
  | persistence (root : List Char)
  | upload (destination : List Char)
  | spawnProxy (serverPath : List Char) (env : Env)

/-- `check_compatibility`, as far as it decides what is installed. -/
inductive PolytokenCompat
  | compatible | missingOrTooOld | unparseable
  deriving DecidableEq

/-- What an attempt finds on the remote host, and the provenance it writes. -/
structure Found where
  target : Target
  compat : PolytokenCompat
  serverInstalled : Bool
  provenance : String

/-- The archive of polytoken, as `archive_filename` names it. -/
def Target.polytokenArchive : Target → String
  | .linux => "polytoken-linux-amd64.tar.gz"
  | .macos => "polytoken-macos-arm64.zip"

def Target.polytokenFormat : Target → ArchiveFormat
  | .linux => .tarGz
  | .macos => .zip

/-- The archive of the server, in the embedded manifest. -/
def Target.serverArchive : Target → String
  | .linux => "pantoken-headless-linux-x86_64.tar.gz"
  | .macos => "pantoken-headless-macos-aarch64.tar.gz"

/-- Where an archive is uploaded to. -/
def cachePath (root : List Char) (filename : String) : List Char :=
  root ++ "/.cache/".toList ++ filename.toList

/-- `install_polytoken` -/
def installPolytoken (root : List Char) (found : Found) : List Step :=
  let archive := cachePath root found.target.polytokenArchive
  [.script (mkdirScript (root ++ "/.cache".toList)), .upload archive,
    .script (installScript (polytokenDir root found.target) archive found.target.polytokenFormat),
    .script (writeJsonScript "PANTOKEN_INSTALL_JSON_EOF" (installMetadata root) found.provenance)]

/-- `install_server` -/
def installServer (root : List Char) (found : Found) : List Step :=
  let archive := cachePath root found.target.serverArchive
  [.script (mkdirScript (root ++ "/.cache".toList)), .upload archive,
    .script (serverInstallScript (releaseDir root found.target) archive .tarGz),
    .script (writeJsonScript "PANTOKEN_SERVER_INSTALL_JSON_EOF"
      (releaseDir root found.target ++ "/install.json".toList) found.provenance)]

/-- `ensure_server_installed` -/
def ensureServerInstalled (root : List Char) (found : Found) : List Step :=
  .script (binaryCheckScript (releaseArtifact root found.target)) ::
    if found.serverInstalled then [] else installServer root found

/-- `reconcile`: what it sends, and the path of polytoken where it succeeds. -/
def reconcile (profile : RemoteProfile) (found : Found) : List Step × Option (List Char) :=
  let root := profile.remoteRoot
  match found.compat with
  | .compatible => (ensureServerInstalled root found, some "polytoken".toList)
  | .missingOrTooOld =>
    if profile.polytokenPolicy = .requireExisting then ([], none)
    else
      (.script (cleanupScript (polytokenDir root found.target)) :: installPolytoken root found ++
        ensureServerInstalled root found, some (polytokenBinary root found.target))
  | .unparseable => ([], none)

/-- `preflight_docker`, as far as it names the root. -/
def preflight : ExecutionTargetProfile → List Step
  | .host => []
  | .dockerContainer _ _ workdir root =>
    [.script (identityScript root (workdir.getD root)), .persistence root]

/-- The proxy, with what `apply_outcome_to_command` takes from `reconcile`. -/
def proxy (profile : RemoteProfile) (found : Found) : List Step :=
  match (reconcile profile found).2 with
  | some binary =>
    [.spawnProxy (releaseArtifact profile.remoteRoot found.target)
      ((SshCommand.from profile).extraEnv ++ [("PANTOKEN_POLYTOKEN_BIN", binary)])]
  | none => []

/-- An attempt that goes through: preflight, `reconcile` and the proxy. -/
def attempt (profile : RemoteProfile) (found : Found) : List Step :=
  preflight profile.executionTarget ++ (reconcile profile found).1 ++ proxy profile found

/-! ### Places -/

/-- The remote host and the container: their shells, and the container's id. -/
structure Machines where
  host : RemoteShell
  container : RemoteShell
  containerId : List Char
  pid : List Char

/-- The path a command takes a word for, unless it looks like an option. -/
def RemoteShell.operand (sh : RemoteShell) (pid word : List Char) : Option (List Char) :=
  if ['-'] <+: sh.word pid word then none else some (sh.resolve (sh.word pid word))

/-- The place of a piece, if it is a path of the attempt's own; none for an option. -/
def Piece.place (sh : RemoteShell) (pid : List Char) : Piece → Option (Option (List Char))
  | .path p => some (sh.operand pid (posixQuote p))
  | .argument p => some (some (sh.path pid (posixQuote p)))
  | _ => none

/-- The places of the paths a script names. -/
def Script.places (script : Script) (sh : RemoteShell) (pid : List Char) :
    List (Option (List Char)) :=
  script.filterMap (Piece.place sh pid)

/-- The variables that hold a path.  A bare name is looked up elsewhere. -/
def Env.paths (env : Env) : List (List Char) :=
  (env.filter fun (key, value) =>
    key ≠ "PANTOKEN_SERVE_MODE" ∧ (key = "PANTOKEN_POLYTOKEN_BIN" → '/' ∈ value)).map Prod.snd

/-- `preflight_docker`, the target it returns. -/
def Machines.target (m : Machines) (user : List Char) (workdir : Option (List Char))
    (root : List Char) : ResolvedDockerTarget where
  containerId := m.containerId
  user := user
  workdir := workdir
  pantokenRoot := root
  env := [("PANTOKEN_REMOTE_ROOT".toList, root),
    ("PANTOKEN_SERVE_MODE".toList, "stdio-proxy".toList)]

/-- The words of a `docker exec` command, as the shell of the host passes them on. -/
def Machines.received (m : Machines) (words : List (List Char)) : List (List Char) :=
  (m.host.argv m.pid (shellJoin words)).flatten

/-- The last word of a command, where that is not rejected. -/
def Machines.lastWord (m : Machines) (words : Except DockerTargetError (List (List Char))) :
    Option (List Char) :=
  match words with
  | .ok words => (m.received words).getLast?
  | .error _ => none

/-- A variable as the container gets it: what follows the name in the word for it. -/
def Machines.variable (m : Machines) (key : String) (value : List Char) : List Char :=
  (m.host.word m.pid (posixQuote (key.toList ++ '=' :: value))).drop (key.toList.length + 1)

/-- **The places of the paths a step names**; none stands for one that is rejected. -/
def Step.locate (m : Machines) (profile : RemoteProfile) (step : Step) :
    List (Option (List Char)) :=
  match profile.executionTarget, step with
  | .host, .script s => s.places m.host m.pid
  | .host, .persistence _ => []
  | .host, .upload destination => [some (m.host.path m.pid (shellQuote destination))]
  | .host, .spawnProxy serverPath env =>
    let command := SshCommand.from profile
    let command := { command with serverPath, extraEnv := command.extraEnv ++ env }
    command.env.paths.map (fun p => some (m.host.path m.pid (shellQuote p))) ++
      [m.host.operand m.pid (shellQuote command.serverPath)]
  | .dockerContainer _ _ _ _, .script s => s.places m.container m.pid
  | .dockerContainer _ _ _ _, .persistence root => [(normalizeAbsolutePath root).toOption]
  | .dockerContainer _ user workdir root, .upload destination =>
    let words := (m.target user workdir root).uploadWords destination
    [(m.lastWord words).map m.container.resolve]
  | .dockerContainer _ user workdir root, .spawnProxy serverPath env =>
    let target := m.target user workdir root
    let env : Env := [("PANTOKEN_REMOTE_ROOT", root),
      ("PANTOKEN_SERVE_MODE", "stdio-proxy".toList)] ++ env
    let received : Env := env.map fun (key, value) => (key, m.variable key value)
    received.paths.map (fun p => some (m.container.resolve p)) ++
      [(m.lastWord (target.proxyWords serverPath)).map m.container.resolve]

/-- The directory of an attempt: what `PANTOKEN_REMOTE_ROOT` says, which is the root in the
container for a Docker target. -/
def rootDir (m : Machines) (profile : RemoteProfile) : List Char :=
  match profile.executionTarget with
  | .host => m.host.path m.pid (shellQuote profile.remoteRoot)
  | .dockerContainer _ _ _ root => root

/-- The path is in the directory. -/
def Within (dir p : List Char) : Prop := components dir <+: components p

/-- **Every path that an attempt names is accepted, and in the one directory.** -/
def OneRoot (m : Machines) (profile : RemoteProfile) (found : Found) : Prop :=
  ∀ step ∈ attempt profile found, ∀ place ∈ step.locate m profile,
    ∃ p, place = some p ∧ Within (rootDir m profile) p

instance (dir p : List Char) : Decidable (Within dir p) := inferInstanceAs (Decidable (_ <+: _))

/-- The root means the same wherever it is used. -/
def RemoteProfile.RootFits (profile : RemoteProfile) : Prop :=
  match profile.executionTarget with
  | .host =>
    ¬ ['-'] <+: profile.remoteRoot ∧
      (['~'] <+: profile.remoteRoot → profile.remoteRoot.all posixSafe = false)
  | .dockerContainer _ _ _ root =>
    (normalizeAbsolutePath profile.remoteRoot).toOption.isSome ∧ Within root profile.remoteRoot

instance (profile : RemoteProfile) : Decidable profile.RootFits := by
  unfold RemoteProfile.RootFits
  cases profile.executionTarget <;> infer_instance

/-! ### What is sent is what is read -/

theorem bridgeSafe_posixSafe {c : Char} (h : bridgeSafe c = true) : posixSafe c = true := by
  unfold bridgeSafe at h
  unfold posixSafe
  simp only [Bool.or_eq_true, List.contains_eq_mem, decide_eq_true_eq, List.mem_cons,
    List.not_mem_nil, or_false] at h ⊢
  tauto

theorem word_shellQuote (w : List Char) : Word (shellQuote w) :=
  word_quoteWith (fun _ h => posixSafe_isPlain (bridgeSafe_posixSafe h)) w

/-- **The remote command is read as its words**, where the names of its variables are plain. -/
theorem SshCommand.readCommands_remoteCommand {command : SshCommand}
    (h : ∀ var ∈ command.extraEnv, var.1.toList.all isPlain = true) :
    readCommands command.remoteCommand = [command.words] := by
  have henv : ∀ var ∈ command.env, var.1.toList.all isPlain = true := by
    intro var hvar
    rcases List.mem_append.mp hvar with hvar | hvar
    · simp only [List.mem_cons, List.not_mem_nil, or_false] at hvar
      rcases hvar with rfl | rfl
      · decide
      · exact (by decide : "PANTOKEN_REMOTE_ROOT".toList.all isPlain = true)
    · exact h var hvar
  have hwords : ∀ w ∈ command.words, Word w := by
    intro w hw
    rcases List.mem_append.mp hw with hw | hw
    · obtain ⟨⟨key, value⟩, hvar, rfl⟩ := List.mem_map.mp hw
      have hkey := henv _ hvar
      have hquote := word_shellQuote value
      exact ⟨by simp,
        (whole_plain hkey (by decide)).append ⟨by decide, hquote.command⟩,
        (whole_plain hkey (by decide)).append ⟨by decide, hquote.word⟩⟩
    · simp only [List.mem_cons, List.not_mem_nil, or_false] at hw
      rcases hw with rfl | rfl
      · decide
      · exact word_shellQuote _
  have hjoin : command.remoteCommand = joinCommands [command.words] := rfl
  rw [hjoin, readCommands_joinCommands (List.cons_ne_nil _ _)]
  intro ws hws
  rw [List.mem_singleton.mp hws]
  exact hwords

theorem Machines.received_eq (m : Machines) (words : List (List Char)) :
    m.received words = words.map fun w => m.host.word m.pid (posixQuote w) := by
  rw [Machines.received, RemoteShell.argv_shellJoin, List.flatten_singleton]

/-- A word with a blank or without a tilde at its start is passed on as it is. -/
theorem RemoteShell.word_posixQuote (sh : RemoteShell) (pid : List Char) {w : List Char}
    (h : ' ' ∈ w ∨ ¬ ['~'] <+: w) : sh.word pid (posixQuote w) = w := by
  rw [RemoteShell.word, posixQuote, expand_quoteWith fun _ => posixSafe_isPlain]
  split_ifs with hall
  · rcases h with h | h
    · exact absurd (List.all_eq_true.mp hall ' ' h) (by decide)
    · exact tildeExpand_of_not_prefix _ h
  · rfl

/-- **A script reaches the shell in the container as it is.** -/
theorem Machines.received_script (m : Machines) (target : ResolvedDockerTarget)
    {script : List Char} (h : ' ' ∈ script) :
    (m.received (target.commandWords script)).getLast? = some script := by
  rw [Machines.received_eq, ResolvedDockerTarget.commandWords, List.map_append,
    List.getLast?_append]
  simp [m.host.word_posixQuote m.pid (.inl h)]

/-! ### Below the root -/

/-- A name, or some with slashes between them, that is joined to a path. -/
def IsName (name : List Char) : Prop :=
  name ≠ [] ∧ ¬ ['/'] <+: name ∧ name.any isControl = false ∧ "..".toList ∉ components name

instance (name : List Char) : Decidable (IsName name) := inferInstanceAs (Decidable (_ ∧ _))

/-- The path is the root with names joined to it. -/
structure Below (r p : List Char) : Prop where
  pre : r <+: p
  names : ∃ names, components p = components r ++ names ∧ "..".toList ∉ names
  control : p.any isControl = r.any isControl

section Below

variable {r p q name : List Char}

theorem Below.refl (r : List Char) : Below r r :=
  ⟨List.prefix_refl r, ⟨[], (List.append_nil _).symm, List.not_mem_nil⟩, rfl⟩

theorem Below.ne_nil (h : Below r p) (hr : r ≠ []) : p ≠ [] := by
  rintro rfl
  exact hr (List.prefix_nil.mp h.pre)

theorem Below.join (h : Below r p) (hr : r ≠ []) (hname : IsName name) :
    Below r (joinPath p name) := by
  obtain ⟨-, habs, hcontrol, hdots⟩ := hname
  have hp := h.ne_nil hr
  obtain ⟨names, hnames, hdots'⟩ := h.names
  refine ⟨h.pre.trans (prefix_joinPath p habs), ⟨names ++ components name, ?_, ?_⟩, ?_⟩
  · rw [components_joinPath hp habs, hnames, List.append_assoc]
  · rw [List.mem_append, not_or]
    exact ⟨hdots', hdots⟩
  · rw [any_joinPath (by decide) p habs, hcontrol, Bool.or_false, h.control]

theorem Below.slash (h : Below r p) (hname : IsName name) : Below r (p ++ '/' :: name) := by
  have hslash : isControl '/' = false := by decide
  obtain ⟨-, -, hcontrol, hdots⟩ := hname
  obtain ⟨names, hnames, hdots'⟩ := h.names
  refine ⟨h.pre.trans (List.prefix_append _ _), ⟨names ++ components name, ?_, ?_⟩, ?_⟩
  · rw [components_append, hnames, List.append_assoc]
  · rw [List.mem_append, not_or]
    exact ⟨hdots', hdots⟩
  · rw [List.any_append, List.any_cons, hslash, hcontrol, Bool.or_false, Bool.or_false, h.control]

end Below

section Layout

variable {root : List Char} {found : Found}

theorem below_releases (hr : root ≠ []) :
    Below root (joinPath (joinPath root "releases".toList) releaseVersion) :=
  ((Below.refl root).join hr (by decide)).join hr (by decide)

theorem below_polytokenTools (hr : root ≠ []) : Below root (polytokenTools root) :=
  ((Below.refl root).join hr (by decide)).join hr (by decide)

theorem components_releaseDir (hr : root ≠ []) (target : Target) :
    ∃ names,
      components (releaseDir root target) = components root ++ "releases".toList :: names := by
  refine ⟨components releaseVersion ++ components target.triple, ?_⟩
  have hreleases : Below root (joinPath root "releases".toList) :=
    (Below.refl root).join hr (by decide)
  rw [releaseDir, components_joinPath ((below_releases hr).ne_nil hr) (by cases target <;> decide),
    components_joinPath (hreleases.ne_nil hr) (by decide), components_joinPath hr (by decide)]
  simp only [List.append_assoc]
  rfl

theorem below_releaseDir (hr : root ≠ []) (target : Target) :
    Below root (releaseDir root target) :=
  (below_releases hr).join hr (by cases target <;> decide)

theorem below_polytokenDir (hr : root ≠ []) (target : Target) :
    Below root (polytokenDir root target) :=
  ((below_polytokenTools hr).join hr (by decide)).join hr (by cases target <;> decide)

/-- The staging directories are beside the final ones. -/
theorem below_releaseStaging (hr : root ≠ []) (target : Target) :
    Below root (releaseDir root target ++ ".staging-$$".toList) := by
  rw [releaseDir, joinPath_append _ (by cases target <;> decide)]
  exact (below_releases hr).join hr (by cases target <;> decide)

theorem below_polytokenStaging (hr : root ≠ []) (target : Target) :
    Below root (polytokenDir root target ++ ".staging-$$".toList) := by
  rw [polytokenDir, joinPath_append _ (by cases target <;> decide)]
  exact ((below_polytokenTools hr).join hr (by decide)).join hr (by cases target <;> decide)

theorem below_cachePath (root : List Char) {filename : String}
    (h : IsName (".cache/".toList ++ filename.toList)) : Below root (cachePath root filename) := by
  have heq : cachePath root filename = root ++ '/' :: (".cache/".toList ++ filename.toList) := by
    rw [cachePath, List.append_assoc]
    rfl
  rw [heq]
  exact (Below.refl root).slash h

/-- The paths a step of `reconcile` names. -/
def Step.paths : Step → List (List Char)
  | .script s => s.paths
  | .persistence _ => []
  | .upload destination => [destination]
  | .spawnProxy serverPath env => serverPath :: env.paths

theorem forall_mem_installScript {P : List Char → Prop} {finalDir archivePath : List Char}
    {format : ArchiveFormat} (hfinal : P finalDir) (harchive : P archivePath)
    (hstaging : P (finalDir ++ ".staging-$$".toList))
    (hbinary : P (finalDir ++ ".staging-$$".toList ++ "/polytoken".toList)) :
    ∀ p ∈ (installScript finalDir archivePath format).paths, P p := by
  cases format <;>
  · simp only [installScript, Script.paths, List.cons_append, List.nil_append,
      List.filterMap_cons, List.filterMap_nil, Piece.ownPath, List.forall_mem_cons, hfinal,
      harchive, hstaging, hbinary, true_and]
    exact fun _ h => absurd h List.not_mem_nil

theorem forall_mem_serverInstallScript {P : List Char → Prop} {finalDir archivePath : List Char}
    {format : ArchiveFormat} (hfinal : P finalDir) (harchive : P archivePath)
    (hstaging : P (finalDir ++ ".staging-$$".toList))
    (hnested : P (finalDir ++ ".staging-$$".toList ++ '/' :: serverBinaryInArchive))
    (hbinary : P (finalDir ++ ".staging-$$".toList ++ "/pantoken-server".toList)) :
    ∀ p ∈ (serverInstallScript finalDir archivePath format).paths, P p := by
  cases format <;>
  · simp only [serverInstallScript, Script.paths, List.cons_append, List.nil_append,
      List.filterMap_cons, List.filterMap_nil, Piece.ownPath, List.forall_mem_cons, hfinal,
      harchive, hstaging, hnested, hbinary, true_and]
    exact fun _ h => absurd h List.not_mem_nil

theorem below_installPolytoken (hr : root ≠ []) :
    ∀ step ∈ installPolytoken root found, ∀ p ∈ step.paths, Below root p := by
  have hcache : Below root (root ++ "/.cache".toList) :=
    (Below.refl root).slash (by decide : IsName ".cache".toList)
  have harchive : Below root (cachePath root found.target.polytokenArchive) :=
    below_cachePath root (by cases found.target <;> decide)
  have hstaging := below_polytokenStaging hr found.target
  have hbinary := hstaging.slash (by decide : IsName "polytoken".toList)
  have hjson : Below root (installMetadata root) := (Below.refl root).join hr (by decide)
  simp only [installPolytoken, List.forall_mem_cons]
  refine ⟨?_, ?_, ?_, ?_, fun _ h => absurd h List.not_mem_nil⟩
  · rintro p (_ | ⟨_, ⟨⟩⟩)
    exact hcache
  · rintro p (_ | ⟨_, ⟨⟩⟩)
    exact harchive
  · exact forall_mem_installScript (below_polytokenDir hr found.target) harchive hstaging hbinary
  · rintro p (_ | ⟨_, ⟨⟩⟩)
    exact hjson

theorem below_installServer (hr : root ≠ []) :
    ∀ step ∈ installServer root found, ∀ p ∈ step.paths, Below root p := by
  have hcache : Below root (root ++ "/.cache".toList) :=
    (Below.refl root).slash (by decide : IsName ".cache".toList)
  have harchive : Below root (cachePath root found.target.serverArchive) :=
    below_cachePath root (by cases found.target <;> decide)
  have hfinal := below_releaseDir hr found.target
  have hstaging := below_releaseStaging hr found.target
  have hnested := hstaging.slash (by decide : IsName serverBinaryInArchive)
  have hbinary := hstaging.slash (by decide : IsName "pantoken-server".toList)
  have hjson := hfinal.slash (by decide : IsName "install.json".toList)
  simp only [installServer, List.forall_mem_cons]
  refine ⟨?_, ?_, ?_, ?_, fun _ h => absurd h List.not_mem_nil⟩
  · rintro p (_ | ⟨_, ⟨⟩⟩)
    exact hcache
  · rintro p (_ | ⟨_, ⟨⟩⟩)
    exact harchive
  · exact forall_mem_serverInstallScript hfinal harchive hstaging hnested hbinary
  · rintro p (_ | ⟨_, ⟨⟩⟩)
    exact hjson

theorem below_releaseArtifact (hr : root ≠ []) (target : Target) :
    Below root (releaseArtifact root target) :=
  (below_releaseDir hr target).join hr (by decide)

theorem below_ensureServerInstalled (hr : root ≠ []) :
    ∀ step ∈ ensureServerInstalled root found, ∀ p ∈ step.paths, Below root p := by
  unfold ensureServerInstalled
  rw [List.forall_mem_cons]
  constructor
  · rintro p (_ | ⟨_, ⟨⟩⟩)
    exact below_releaseArtifact hr found.target
  · split_ifs
    · exact fun _ h => absurd h List.not_mem_nil
    · exact below_installServer hr

end Layout

section Attempt

variable {profile : RemoteProfile} {found : Found} {root : List Char}

theorem below_reconcile : ∀ step ∈ (reconcile profile found).1, ∀ p ∈ step.paths,
    Below profile.remoteRoot p := by
  have hr := profile.remoteRoot_ne_nil
  have hserver : ∀ step ∈ ensureServerInstalled profile.remoteRoot found, ∀ p ∈ step.paths,
      Below profile.remoteRoot p := below_ensureServerInstalled hr
  unfold reconcile
  cases found.compat with
  | compatible => exact hserver
  | unparseable => exact fun _ h => absurd h List.not_mem_nil
  | missingOrTooOld =>
    dsimp only
    split_ifs
    · exact fun _ h => absurd h List.not_mem_nil
    · rw [List.cons_append, List.forall_mem_cons, List.forall_mem_append]
      refine ⟨?_, below_installPolytoken hr, hserver⟩
      rintro p (_ | ⟨_, ⟨⟩⟩)
      exact below_polytokenDir hr found.target

theorem Env.paths_append (env env' : Env) : (env ++ env').paths = env.paths ++ env'.paths := by
  unfold Env.paths
  rw [List.filter_append, List.map_append]

theorem below_polytokenXdg (hr : root ≠ []) (name : String) (hname : IsName name.toList) :
    Below root (polytokenXdg root name) :=
  ((below_polytokenTools hr).join hr (by decide)).join hr hname

theorem below_extraEnv : ∀ p ∈ (SshCommand.from profile).extraEnv.paths,
    Below profile.remoteRoot p := by
  have hr := profile.remoteRoot_ne_nil
  intro p hp
  obtain ⟨⟨key, value⟩, hvar, rfl⟩ := List.mem_map.mp hp
  have hmem := List.mem_of_mem_filter hvar
  unfold SshCommand.from at hmem
  cases hmode : profile.xdgMode with
  | shared =>
    rw [hmode] at hmem
    exact absurd hmem List.not_mem_nil
  | isolated =>
    rw [hmode] at hmem
    simp only [List.mem_cons, Prod.mk.injEq, List.not_mem_nil, or_false] at hmem
    rcases hmem with ⟨-, rfl⟩ | ⟨-, rfl⟩ | ⟨-, rfl⟩
    · exact below_polytokenXdg hr "config" (by decide)
    · exact below_polytokenXdg hr "data" (by decide)
    · exact below_polytokenXdg hr "cache" (by decide)

/-- Where `reconcile` succeeds, polytoken is looked up by its name or is below the root. -/
theorem below_polytoken {binary : List Char} (h : (reconcile profile found).2 = some binary) :
    ∀ p ∈ Env.paths [("PANTOKEN_POLYTOKEN_BIN", binary)], Below profile.remoteRoot p := by
  have hr := profile.remoteRoot_ne_nil
  unfold reconcile at h
  cases hcompat : found.compat with
  | compatible =>
    rw [hcompat] at h
    cases h
    intro p hp
    exact absurd hp List.not_mem_nil
  | unparseable =>
    rw [hcompat] at h
    cases h
  | missingOrTooOld =>
    rw [hcompat] at h
    dsimp only at h
    split_ifs at h
    cases h
    intro p hp
    obtain ⟨var, hvar, rfl⟩ := List.mem_map.mp hp
    rw [List.mem_singleton.mp (List.mem_of_mem_filter hvar)]
    exact (below_polytokenDir hr found.target).join hr (by decide : IsName "polytoken".toList)

/-! ### A root that fits -/

theorem prefix_singleton_iff {r p : List Char} (hr : r ≠ []) (hpre : r <+: p) (c : Char) :
    [c] <+: p ↔ [c] <+: r := by
  obtain ⟨d, ds, rfl⟩ := List.exists_cons_of_ne_nil hr
  obtain ⟨rest, rfl⟩ := hpre
  simp

/-- A path below a root that is quoted as a whole, or has no tilde, is read as it is. -/
theorem expand_below {safe : Char → Bool} (hsafe : ∀ c, safe c = true → posixSafe c = true)
    {r p : List Char} (hr : r ≠ []) (htilde : ['~'] <+: r → r.all posixSafe = false)
    (hpre : r <+: p) (tilde : List Char → List Char) (pid : List Char) :
    expand tilde pid (quoteWith safe p) = p := by
  rw [expand_quoteWith fun c hc => posixSafe_isPlain (hsafe c hc)]
  split_ifs with hall
  · refine tildeExpand_of_not_prefix _ fun hp => ?_
    have hfalse := htilde ((prefix_singleton_iff hr hpre '~').mp hp)
    have htrue : r.all posixSafe = true := by
      rw [List.all_eq_true] at hall ⊢
      exact fun c hc => hsafe c (hall c (hpre.subset hc))
    rw [htrue] at hfalse
    cases hfalse
  · rfl

/-- **Below a root, the places are in the place of the root.** -/
theorem Below.within_resolve {r p : List Char} (h : Below r p) (hr : r ≠ []) (sh : RemoteShell) :
    Within (sh.resolve r) (sh.resolve p) := by
  obtain ⟨names, hnames, -⟩ := h.names
  unfold Within RemoteShell.resolve
  by_cases habs : ['/'] <+: r
  · rw [if_pos habs, if_pos ((prefix_singleton_iff hr h.pre '/').mpr habs), hnames]
    exact List.prefix_append _ _
  · rw [if_neg habs, if_neg fun hp => habs ((prefix_singleton_iff hr h.pre '/').mp hp),
      components_append, components_append, hnames, ← List.append_assoc]
    exact List.prefix_append _ _

theorem below_proxy : ∀ step ∈ proxy profile found, ∀ p ∈ step.paths,
    Below profile.remoteRoot p := by
  unfold proxy
  cases hbinary : (reconcile profile found).2 with
  | none => exact fun _ h => absurd h List.not_mem_nil
  | some binary =>
    intro step hstep p hp
    rw [List.mem_singleton.mp hstep] at hp
    rcases List.mem_cons.mp hp with rfl | hp
    · exact below_releaseArtifact profile.remoteRoot_ne_nil found.target
    · rw [Env.paths_append] at hp
      rcases List.mem_append.mp hp with hp | hp
      · exact below_extraEnv p hp
      · exact below_polytoken hbinary p hp

/-- What holds of the places of all paths of a script, as operands or not, holds of its places. -/
theorem Script.forall_mem_places {P : Option (List Char) → Prop} {script : Script}
    {sh : RemoteShell} {pid : List Char}
    (h : ∀ p ∈ script.paths,
      P (sh.operand pid (posixQuote p)) ∧ P (some (sh.path pid (posixQuote p)))) :
    ∀ place ∈ script.places sh pid, P place := by
  intro place hplace
  obtain ⟨piece, hpiece, hat⟩ := List.mem_filterMap.mp hplace
  cases piece with
  | text | workdir => cases hat
  | path p =>
    cases hat
    exact (h p (List.mem_filterMap.mpr ⟨_, hpiece, rfl⟩)).1
  | argument p =>
    cases hat
    exact (h p (List.mem_filterMap.mpr ⟨_, hpiece, rfl⟩)).2

/-- On the host, the places of a step below a root that fits are in its place. -/
theorem oneRoot_host_step (m : Machines) (hhost : profile.executionTarget = .host)
    (hfits : profile.RootFits) {step : Step}
    (hbelow : ∀ p ∈ step.paths, Below profile.remoteRoot p) :
    ∀ place ∈ step.locate m profile, ∃ p, place = some p ∧ Within (rootDir m profile) p := by
  have hr := profile.remoteRoot_ne_nil
  unfold RemoteProfile.RootFits at hfits
  rw [hhost] at hfits
  obtain ⟨hdash, htilde⟩ := hfits
  have hposix : ∀ p, Below profile.remoteRoot p → m.host.word m.pid (posixQuote p) = p :=
    fun p hp => expand_below (fun _ h => h) hr htilde hp.pre _ _
  have hbridge : ∀ p, Below profile.remoteRoot p → m.host.word m.pid (shellQuote p) = p :=
    fun p hp => expand_below (fun _ h => bridgeSafe_posixSafe h) hr htilde hp.pre _ _
  have hdir : rootDir m profile = m.host.resolve profile.remoteRoot := by
    unfold rootDir
    rw [hhost]
    exact congrArg m.host.resolve (hbridge _ (.refl _))
  have hwithin : ∀ p, Below profile.remoteRoot p → Within (rootDir m profile) (m.host.resolve p) :=
    fun p hp => hdir ▸ hp.within_resolve hr m.host
  have hoperand : ∀ p w, Below profile.remoteRoot p → m.host.word m.pid w = p →
      ∃ q, m.host.operand m.pid w = some q ∧ Within (rootDir m profile) q := by
    intro p w hp hw
    have hopt : ¬ ['-'] <+: p := fun h => hdash ((prefix_singleton_iff hr hp.pre '-').mp h)
    refine ⟨m.host.resolve p, ?_, hwithin p hp⟩
    rw [RemoteShell.operand, hw, if_neg hopt]
  unfold Step.locate
  rw [hhost]
  cases step with
  | script s =>
    refine Script.forall_mem_places fun p hp => ⟨?_, m.host.resolve p, ?_, ?_⟩
    · exact hoperand p _ (hbelow p hp) (hposix p (hbelow p hp))
    · exact congrArg (fun w => some (m.host.resolve w)) (hposix p (hbelow p hp))
    · exact hwithin p (hbelow p hp)
  | persistence root => exact fun _ h => absurd h List.not_mem_nil
  | upload destination =>
    rintro place hplace
    rw [List.mem_singleton.mp hplace]
    have hp := hbelow destination List.mem_cons_self
    refine ⟨m.host.resolve destination, ?_, hwithin _ hp⟩
    exact congrArg (fun w => some (m.host.resolve w)) (hbridge _ hp)
  | spawnProxy serverPath env =>
    intro place hplace
    rcases List.mem_append.mp hplace with hplace | hplace
    · obtain ⟨p, hp, rfl⟩ := List.mem_map.mp hplace
      have hb : Below profile.remoteRoot p := by
        unfold SshCommand.env at hp
        rw [Env.paths_append, Env.paths_append] at hp
        rcases List.mem_append.mp hp with hp | hp
        · rw [List.mem_singleton.mp hp]
          exact .refl _
        · rcases List.mem_append.mp hp with hp | hp
          · exact below_extraEnv p hp
          · exact hbelow p (List.mem_cons_of_mem _ hp)
      refine ⟨m.host.resolve p, ?_, hwithin p hb⟩
      exact congrArg (fun w => some (m.host.resolve w)) (hbridge p hb)
    · rw [List.mem_singleton.mp hplace]
      have hp := hbelow serverPath List.mem_cons_self
      exact hoperand serverPath _ hp (hbridge _ hp)

/-- A variable reaches the container as it is. -/
theorem Machines.variable_eq (m : Machines) {key : String} (h : ¬ ['~'] <+: key.toList)
    (value : List Char) : m.variable key value = value := by
  have htilde : ¬ ['~'] <+: key.toList ++ '=' :: value := by
    cases hkey : key.toList with
    | nil => simp
    | cons c cs =>
      rw [hkey] at h
      simpa using h
  rw [Machines.variable, RemoteShell.word_posixQuote _ _ (.inr htilde)]
  simp

theorem Machines.variables_eq (m : Machines) {vars : Env}
    (h : ∀ var ∈ vars, ¬ ['~'] <+: var.1.toList) :
    (vars.map fun (key, value) => (key, m.variable key value)) = vars := by
  refine (List.map_congr_left fun var hvar => ?_).trans (List.map_id vars)
  exact Prod.ext rfl (m.variable_eq (h var hvar) var.2)

theorem not_prefix_of_absolute {p : List Char} (h : ['/'] <+: p) {c : Char} (hc : c ≠ '/') :
    ¬ [c] <+: p := by
  rintro ⟨rest, rfl⟩
  exact hc (List.cons_prefix_cons.mp h).1.symm

theorem RemoteShell.resolve_absolute (sh : RemoteShell) {p : List Char} (h : ['/'] <+: p) :
    sh.resolve p = p := if_pos h

/-- An absolute path stands for itself. -/
theorem RemoteShell.path_absolute (sh : RemoteShell) (pid : List Char) {p : List Char}
    (h : ['/'] <+: p) : sh.path pid (posixQuote p) = p := by
  have hword : sh.word pid (posixQuote p) = p :=
    sh.word_posixQuote pid (.inr (not_prefix_of_absolute h (by decide)))
  rw [RemoteShell.path, ← RemoteShell.word, hword, sh.resolve_absolute h]

/-- It is an operand as well. -/
theorem RemoteShell.operand_absolute (sh : RemoteShell) (pid : List Char) {p : List Char}
    (h : ['/'] <+: p) : sh.operand pid (posixQuote p) = some p := by
  have hword : sh.word pid (posixQuote p) = p :=
    sh.word_posixQuote pid (.inr (not_prefix_of_absolute h (by decide)))
  rw [RemoteShell.operand, hword, if_neg (not_prefix_of_absolute h (by decide)),
    sh.resolve_absolute h]

/-- An absolute path that a script names is one of its places. -/
theorem Script.mem_places_of_absolute {script : Script} {p : List Char} (h : ['/'] <+: p)
    (hp : p ∈ script.paths) (sh : RemoteShell) (pid : List Char) :
    some p ∈ script.places sh pid := by
  obtain ⟨piece, hpiece, hown⟩ := List.mem_filterMap.mp hp
  refine List.mem_filterMap.mpr ⟨piece, hpiece, ?_⟩
  cases piece with
  | text | workdir => cases hown
  | path p' =>
    cases hown
    rw [Piece.place, sh.operand_absolute pid h]
  | argument p' =>
    cases hown
    rw [Piece.place, sh.path_absolute pid h]

/-- The places of absolute paths in a directory are these. -/
theorem Script.within_of_absolute {script : Script} {dir : List Char}
    (h : ∀ p ∈ script.paths, ['/'] <+: p ∧ Within dir p) (sh : RemoteShell) (pid : List Char) :
    ∀ place ∈ script.places sh pid, ∃ p, place = some p ∧ Within dir p :=
  Script.forall_mem_places fun p hp =>
    ⟨⟨p, sh.operand_absolute pid (h p hp).1, (h p hp).2⟩,
      ⟨p, congrArg some (sh.path_absolute pid (h p hp).1), (h p hp).2⟩⟩

/-- A path that is normalized reaches the container as the last word. -/
theorem Machines.lastWord_ok (m : Machines) {p q : List Char}
    (hq : normalizeAbsolutePath p = .ok q) (front back : List (List Char)) :
    (m.lastWord (.ok (front ++ (back ++ [q])))).map m.container.resolve = some q := by
  have habs := normalizeAbsolutePath_absolute hq
  have htilde : ¬ ['~'] <+: q := by
    rintro ⟨rest, rfl⟩
    exact absurd (List.cons_prefix_cons.mp habs).1 (by decide)
  rw [Machines.lastWord, Machines.received_eq, ← List.append_assoc, List.map_append,
    List.map_singleton, List.getLast?_concat, m.host.word_posixQuote m.pid (.inr htilde),
    Option.map_some, m.container.resolve_absolute habs]

theorem Machines.lastWord_uploadWords (m : Machines) (target : ResolvedDockerTarget)
    {p q : List Char} (hq : normalizeAbsolutePath p = .ok q) :
    (m.lastWord (target.uploadWords p)).map m.container.resolve = some q := by
  rw [ResolvedDockerTarget.uploadWords, hq]
  exact m.lastWord_ok hq target.execPrefix
    ["sh".toList, "-c".toList, "cat > \"$1\"".toList, "sh".toList]

theorem Machines.lastWord_proxyWords (m : Machines) (target : ResolvedDockerTarget)
    {p q : List Char} (hq : normalizeAbsolutePath p = .ok q) :
    (m.lastWord (target.proxyWords p)).map m.container.resolve = some q := by
  rw [ResolvedDockerTarget.proxyWords, hq]
  exact m.lastWord_ok hq target.execPrefix []

/-- A path below a root that fits is absolute and in the container root, normalized or not. -/
theorem RemoteProfile.RootFits.docker {containerName user root' : List Char}
    {workdir : Option (List Char)}
    (hdocker : profile.executionTarget = .dockerContainer containerName user workdir root')
    (hfits : profile.RootFits) {p : List Char} (hp : Below profile.remoteRoot p) :
    ['/'] <+: p ∧ Within root' p ∧ ∃ q, normalizeAbsolutePath p = .ok q ∧ Within root' q := by
  unfold RemoteProfile.RootFits at hfits
  rw [hdocker] at hfits
  obtain ⟨hok, hin⟩ := hfits
  obtain ⟨q, hq⟩ : ∃ q, normalizeAbsolutePath profile.remoteRoot = .ok q := by
    cases hnorm : normalizeAbsolutePath profile.remoteRoot with
    | error e =>
      rw [hnorm] at hok
      cases hok
    | ok q => exact ⟨q, rfl⟩
  obtain ⟨⟨hcontrol, habs, hdots⟩, -⟩ := normalizeAbsolutePath_ok_iff.mp hq
  obtain ⟨names, hnames, hnodots⟩ := hp.names
  have hwithin : Within root' p :=
    (hnames ▸ hin.trans (List.prefix_append _ _) : components root' <+: components p)
  have hdots' : "..".toList ∉ components p := by
    rw [hnames, List.mem_append, not_or]
    exact ⟨hdots, hnodots⟩
  have hp' : normalizeAbsolutePath p = .ok (joinNames (components p)) :=
    normalizeAbsolutePath_ok_iff.mpr
      ⟨⟨hp.control.trans hcontrol, habs.trans hp.pre, hdots'⟩, rfl⟩
  refine ⟨habs.trans hp.pre, hwithin, _, hp', ?_⟩
  rw [Within, components_normalizeAbsolutePath hp']
  exact hwithin

/-- In a container, the places of a step below a root that fits are in the container root. -/
theorem oneRoot_docker_step (m : Machines) {containerName user root' : List Char}
    {workdir : Option (List Char)}
    (hdocker : profile.executionTarget = .dockerContainer containerName user workdir root')
    (hroot : ['/'] <+: root') (hfits : profile.RootFits) {step : Step}
    (hbelow : ∀ p ∈ step.paths, Below profile.remoteRoot p)
    (hpersist : ∀ root, step ≠ .persistence root)
    (hkeys : ∀ serverPath env, step = .spawnProxy serverPath env →
      ∀ var ∈ env, ¬ ['~'] <+: var.1.toList) :
    ∀ place ∈ step.locate m profile, ∃ p, place = some p ∧ Within (rootDir m profile) p := by
  have hdir : rootDir m profile = root' := by
    unfold rootDir
    rw [hdocker]
  have hplace := fun p (hp : Below profile.remoteRoot p) =>
    RemoteProfile.RootFits.docker hdocker hfits hp
  rw [hdir]
  unfold Step.locate
  rw [hdocker]
  cases step with
  | script s =>
    refine Script.within_of_absolute (fun p hp => ?_) m.container m.pid
    obtain ⟨habs, hin, -⟩ := hplace p (hbelow p hp)
    exact ⟨habs, hin⟩
  | persistence root => exact absurd rfl (hpersist root)
  | upload destination =>
    intro place hmem
    obtain ⟨-, -, q, hq, hin⟩ := hplace destination (hbelow destination List.mem_cons_self)
    refine ⟨q, ?_, hin⟩
    rw [List.mem_singleton.mp hmem]
    exact m.lastWord_uploadWords _ hq
  | spawnProxy serverPath env =>
    intro place hmem
    rcases List.mem_append.mp hmem with hmem | hmem
    · obtain ⟨p, hp, rfl⟩ := List.mem_map.mp hmem
      rw [m.variables_eq] at hp
      · rw [Env.paths_append] at hp
        have hin : ['/'] <+: p ∧ Within root' p := by
          rcases List.mem_append.mp hp with hp | hp
          · rw [List.mem_singleton.mp hp]
            exact ⟨hroot, List.prefix_refl _⟩
          · obtain ⟨habs, hin, -⟩ := hplace p (hbelow p (List.mem_cons_of_mem _ hp))
            exact ⟨habs, hin⟩
        exact ⟨p, congrArg some (m.container.resolve_absolute hin.1), hin.2⟩
      · intro var hvar
        rcases List.mem_append.mp hvar with hvar | hvar
        · simp only [List.mem_cons, List.not_mem_nil, or_false] at hvar
          rcases hvar with rfl | rfl
          · exact (by decide : ¬ ['~'] <+: "PANTOKEN_REMOTE_ROOT".toList)
          · decide
        · exact hkeys serverPath env rfl var hvar
    · obtain ⟨-, -, q, hq, hin⟩ := hplace serverPath (hbelow serverPath List.mem_cons_self)
      refine ⟨q, ?_, hin⟩
      rw [List.mem_singleton.mp hmem]
      exact m.lastWord_proxyWords _ hq

theorem keys_proxy {serverPath : List Char} {env : Env}
    (h : Step.spawnProxy serverPath env ∈ proxy profile found) :
    ∀ var ∈ env, ¬ ['~'] <+: var.1.toList := by
  unfold proxy at h
  cases hbinary : (reconcile profile found).2 with
  | none =>
    rw [hbinary] at h
    exact absurd h List.not_mem_nil
  | some binary =>
    rw [hbinary] at h
    cases List.mem_singleton.mp h
    intro var hvar
    rcases List.mem_append.mp hvar with hvar | hvar
    · unfold SshCommand.from at hvar
      cases hmode : profile.xdgMode with
      | shared =>
        rw [hmode] at hvar
        exact absurd hvar List.not_mem_nil
      | isolated =>
        rw [hmode] at hvar
        simp only [List.mem_cons, List.not_mem_nil, or_false] at hvar
        rcases hvar with rfl | rfl | rfl
        · exact (by decide : ¬ ['~'] <+: "XDG_CONFIG_HOME".toList)
        · exact (by decide : ¬ ['~'] <+: "XDG_DATA_HOME".toList)
        · exact (by decide : ¬ ['~'] <+: "XDG_CACHE_HOME".toList)
    · rw [List.mem_singleton.mp hvar]
      exact (by decide : ¬ ['~'] <+: "PANTOKEN_POLYTOKEN_BIN".toList)

/-- A script or an upload. -/
def Step.isSend : Step → Bool
  | .script _ | .upload _ => true
  | _ => false

theorem isSend_ensureServerInstalled : ∀ step ∈ ensureServerInstalled root found,
    step.isSend = true := by
  unfold ensureServerInstalled installServer
  split_ifs <;> simp [Step.isSend]

/-- `reconcile` sends scripts and uploads. -/
theorem isSend_reconcile : ∀ step ∈ (reconcile profile found).1, step.isSend = true := by
  have hserver : ∀ step ∈ ensureServerInstalled profile.remoteRoot found, step.isSend = true :=
    isSend_ensureServerInstalled
  unfold reconcile
  cases found.compat with
  | compatible => exact hserver
  | unparseable => exact fun _ h => absurd h List.not_mem_nil
  | missingOrTooOld =>
    dsimp only
    split_ifs
    · exact fun _ h => absurd h List.not_mem_nil
    · rw [List.cons_append, List.forall_mem_cons, List.forall_mem_append]
      refine ⟨rfl, ?_, hserver⟩
      simp [installPolytoken, Step.isSend]

/-- The preflight looks at the container root. -/
theorem oneRoot_preflight (m : Machines) {containerName user root q : List Char}
    {workdir : Option (List Char)}
    (hdocker : profile.executionTarget = .dockerContainer containerName user workdir root)
    (hq : normalizeAbsolutePath root = .ok q) {step : Step}
    (h : step ∈ preflight profile.executionTarget) :
    ∀ place ∈ step.locate m profile, ∃ p, place = some p ∧ Within (rootDir m profile) p := by
  have habs : ['/'] <+: root := (normalizeAbsolutePath_ok_iff.mp hq).1.2.1
  have hdir : rootDir m profile = root := by
    unfold rootDir
    rw [hdocker]
  rw [hdir]
  unfold Step.locate
  rw [hdocker] at h ⊢
  simp only [preflight, List.mem_cons, List.not_mem_nil, or_false] at h
  rcases h with rfl | rfl
  · refine Script.within_of_absolute (fun p hp => ?_) m.container m.pid
    have hroot : root = p := by
      simpa [identityScript, Script.paths, Piece.ownPath] using hp
    subst hroot
    exact ⟨habs, List.prefix_refl _⟩
  · intro place hplace
    rw [List.mem_singleton.mp hplace, hq]
    refine ⟨q, rfl, ?_⟩
    rw [Within, components_normalizeAbsolutePath hq]

/-- **Where the root fits, the attempts stay in one directory.** -/
theorem oneRoot_of_fits (hvalid : profile.validate = .ok ()) (hfits : profile.RootFits)
    (m : Machines) (found : Found) : OneRoot m profile found := by
  intro step hstep
  have hbelow : step ∈ preflight profile.executionTarget ∨
      ∀ p ∈ step.paths, Below profile.remoteRoot p := by
    rcases List.mem_append.mp hstep with h | h
    · rcases List.mem_append.mp h with h | h
      · exact .inl h
      · exact .inr (below_reconcile step h)
    · exact .inr (below_proxy step h)
  cases htarget : profile.executionTarget with
  | host =>
    refine oneRoot_host_step m htarget hfits (hbelow.resolve_left fun h => ?_)
    rw [htarget] at h
    exact absurd h List.not_mem_nil
  | dockerContainer containerName user workdir root =>
    obtain ⟨q, hq⟩ := RemoteProfile.normalize_of_validate htarget hvalid
    have habs : ['/'] <+: root := (normalizeAbsolutePath_ok_iff.mp hq).1.2.1
    rcases List.mem_append.mp hstep with h | h
    · rcases List.mem_append.mp h with h | h
      · exact oneRoot_preflight m htarget hq h
      · refine oneRoot_docker_step m htarget habs hfits (below_reconcile step h) ?_ ?_
        · rintro r rfl
          exact Bool.noConfusion (isSend_reconcile _ h)
        · rintro serverPath env rfl
          exact Bool.noConfusion (isSend_reconcile _ h)
    · refine oneRoot_docker_step m htarget habs hfits (below_proxy step h) ?_ ?_
      · rintro r rfl
        unfold proxy at h
        split at h
        · exact Step.noConfusion (List.mem_singleton.mp h)
        · exact absurd h List.not_mem_nil
      · rintro serverPath env rfl
        exact keys_proxy h

/-! ### A root that does not -/

/-- A remote host without a server. -/
def fresh : Found := ⟨.linux, .compatible, false, ""⟩

theorem attempt_fresh : ∀ step ∈ ensureServerInstalled profile.remoteRoot fresh,
    step ∈ attempt profile fresh := by
  intro step hstep
  exact List.mem_append_left _ (List.mem_append_right _ hstep)

theorem prefix_of_prefix_append {α : Type} {l front back back' : List α} {a b : α} (hab : a ≠ b)
    (ha : l <+: front ++ a :: back) (hb : l <+: front ++ b :: back') : l <+: front := by
  rcases List.prefix_or_prefix_of_prefix ha (List.prefix_append front _) with h | ⟨rest, rfl⟩
  · exact h
  · rw [List.prefix_append_right_inj] at ha hb
    cases rest with
    | nil => simp
    | cons c rest =>
      exact absurd ((List.cons_prefix_cons.mp ha).1.symm.trans (List.cons_prefix_cons.mp hb).1) hab

/-- **In a container, a root that does not fit is rejected, or elsewhere.** -/
theorem fits_of_oneRoot_docker {containerName user root : List Char}
    {workdir : Option (List Char)}
    (hdocker : profile.executionTarget = .dockerContainer containerName user workdir root)
    (m : Machines) (h : OneRoot m profile fresh) : profile.RootFits := by
  have hr := profile.remoteRoot_ne_nil
  have hdir : rootDir m profile = root := by
    unfold rootDir
    rw [hdocker]
  have hplace : ∀ step ∈ ensureServerInstalled profile.remoteRoot fresh,
      ∀ place ∈ step.locate m profile, ∃ p, place = some p ∧ Within root p :=
    fun step hstep => hdir ▸ h step (attempt_fresh step hstep)
  have hcache :
      Below profile.remoteRoot (cachePath profile.remoteRoot Target.linux.serverArchive) :=
    below_cachePath _ (by decide)
  -- the upload is normalized
  obtain ⟨p, hp, -⟩ := hplace (.upload (cachePath profile.remoteRoot Target.linux.serverArchive))
    (by simp [ensureServerInstalled, installServer, fresh]) _ (by
      unfold Step.locate
      rw [hdocker]
      exact List.mem_singleton.mpr rfl)
  obtain ⟨q, hq⟩ : ∃ q, normalizeAbsolutePath
      (cachePath profile.remoteRoot Target.linux.serverArchive) = .ok q := by
    cases hnorm : normalizeAbsolutePath
        (cachePath profile.remoteRoot Target.linux.serverArchive) with
    | ok q => exact ⟨q, rfl⟩
    | error e =>
      rw [ResolvedDockerTarget.uploadWords, hnorm] at hp
      cases hp
  obtain ⟨⟨hcontrol, habs, hdots⟩, -⟩ := normalizeAbsolutePath_ok_iff.mp hq
  obtain ⟨names, hnames, -⟩ := hcache.names
  have habs' : ['/'] <+: profile.remoteRoot := (prefix_singleton_iff hr hcache.pre '/').mp habs
  have hok : normalizeAbsolutePath profile.remoteRoot =
      .ok (joinNames (components profile.remoteRoot)) := by
    refine normalizeAbsolutePath_ok_iff.mpr ⟨⟨hcache.control.symm.trans hcontrol, habs', ?_⟩, rfl⟩
    intro hmem
    exact hdots (hnames ▸ List.mem_append_left _ hmem)
  -- the cache and the release have the root in common
  have hscript : ∀ (script : Script) (p : List Char),
      .script script ∈ ensureServerInstalled profile.remoteRoot fresh → p ∈ script.paths →
        ['/'] <+: p → Within root p := by
    intro script p hmem hp habsp
    obtain ⟨q, hq, hin⟩ := hplace (.script script) hmem (some p) (by
      unfold Step.locate
      rw [hdocker]
      exact Script.mem_places_of_absolute habsp hp m.container m.pid)
    cases hq
    exact hin
  have hartifact := below_releaseArtifact hr Target.linux
  have hrelease := hscript (binaryCheckScript (releaseArtifact profile.remoteRoot .linux))
    (releaseArtifact profile.remoteRoot .linux) List.mem_cons_self List.mem_cons_self
    (habs'.trans hartifact.pre)
  have hmkdir := hscript (mkdirScript (profile.remoteRoot ++ "/.cache".toList))
    (profile.remoteRoot ++ "/.cache".toList)
    (by simp [ensureServerInstalled, installServer, fresh]) List.mem_cons_self
    (habs'.trans (List.prefix_append _ _))
  obtain ⟨releases, hreleases⟩ := components_releaseDir hr Target.linux
  have hrelease' : components root <+: components profile.remoteRoot ++ "releases".toList ::
      (releases ++ components "pantoken-server".toList) := by
    rw [Within, releaseArtifact,
      components_joinPath ((below_releaseDir hr _).ne_nil hr) (by decide), hreleases] at hrelease
    simpa using hrelease
  have hmkdir' : components root <+: components profile.remoteRoot ++ ".cache".toList :: [] := by
    have heq : components (profile.remoteRoot ++ "/.cache".toList) =
        components profile.remoteRoot ++ [".cache".toList] :=
      components_append profile.remoteRoot ".cache".toList
    rw [← heq]
    exact hmkdir
  unfold RemoteProfile.RootFits
  rw [hdocker]
  refine ⟨?_, prefix_of_prefix_append (by decide) hmkdir' hrelease'⟩
  rw [hok]
  rfl

/-- A host where the shell does not start in the home directory. -/
def elsewhere : Machines :=
  ⟨⟨fun _ => "/h".toList, "/c".toList⟩, ⟨fun _ => "/h".toList, "/c".toList⟩, [], []⟩

theorem resolve_elsewhere {p : List Char} (h : ['~'] <+: p) :
    ∃ names, components (elsewhere.host.resolve p) = "c".toList :: names := by
  have habs : ¬ ['/'] <+: p := by
    obtain ⟨rest, rfl⟩ := h
    exact fun h => absurd (List.cons_prefix_cons.mp h).1 (by decide)
  rw [RemoteShell.resolve, if_neg habs, components_append]
  exact ⟨components p, rfl⟩

theorem tilde_elsewhere {p : List Char} (h : ['~'] <+: p) :
    ['/'] <+: tildeExpand elsewhere.host.tilde p ∧
      ∃ names, components (tildeExpand elsewhere.host.tilde p) = "h".toList :: names := by
  obtain ⟨rest, rfl⟩ := h
  have hhead := List.head?_dropWhile_not (fun c => decide (c ≠ '/')) rest
  change ['/'] <+: "/h".toList ++ rest.dropWhile (· ≠ '/') ∧ ∃ names,
    components ("/h".toList ++ rest.dropWhile (· ≠ '/')) = "h".toList :: names
  refine ⟨⟨_, rfl⟩, ?_⟩
  cases hdrop : rest.dropWhile (· ≠ '/') with
  | nil => exact ⟨[], rfl⟩
  | cons c cs =>
    rw [hdrop] at hhead
    have hc : c = '/' := by simpa using hhead
    subst hc
    rw [components_append]
    exact ⟨components cs, rfl⟩

theorem not_within_of_ne {dir p first first' : List Char} {names names' : List (List Char)}
    (hne : first ≠ first') (hdir : components dir = first :: names)
    (hp : components p = first' :: names') : ¬ Within dir p := by
  rw [Within, hdir, hp]
  exact fun h => hne (List.cons_prefix_cons.mp h).1

theorem all_posixSafe_releaseArtifact {root : List Char} (h : root.all posixSafe = true)
    (target : Target) : (releaseArtifact root target).all posixSafe = true := by
  have hjoin : ∀ p name, p.all posixSafe = true → ¬ ['/'] <+: name → name.all posixSafe = true →
      (joinPath p name).all posixSafe = true := by
    intro p name hp habs hname
    rw [List.all_eq_not_any_not] at hp hname ⊢
    rw [any_joinPath (by decide) p habs]
    simpa using ⟨by simpa using hp, by simpa using hname⟩
  refine hjoin _ _ (hjoin _ _ (hjoin _ _ (hjoin _ _ h ?_ ?_) ?_ ?_) ?_ ?_) ?_ ?_ <;>
    first | decide | (cases target <;> decide)

/-- **On the host, a root that does not fit is an option, or is expanded in some places only.** -/
theorem fits_of_oneRoot_host (hhost : profile.executionTarget = .host)
    (h : OneRoot elsewhere profile fresh) : profile.RootFits := by
  have hr := profile.remoteRoot_ne_nil
  have hscript : ∀ (script : Script) (piece : Piece) (place : Option (List Char)),
      .script script ∈ ensureServerInstalled profile.remoteRoot fresh → piece ∈ script →
        piece.place elsewhere.host [] = some place →
          ∃ q, place = some q ∧ Within (rootDir elsewhere profile) q := by
    intro script piece place hmem hpiece hplace
    refine h (.script script) (attempt_fresh _ hmem) _ ?_
    unfold Step.locate
    rw [hhost]
    exact List.mem_filterMap.mpr ⟨piece, hpiece, hplace⟩
  have hartifact := below_releaseArtifact hr Target.linux
  obtain ⟨q, hq, hin⟩ := hscript (binaryCheckScript (releaseArtifact profile.remoteRoot .linux))
    (.argument (releaseArtifact profile.remoteRoot .linux)) _ List.mem_cons_self
    (by simp [binaryCheckScript]) rfl
  have hstaging := below_releaseStaging hr Target.linux
  obtain ⟨q', hq', hin'⟩ := hscript (serverInstallScript (releaseDir profile.remoteRoot .linux)
      (cachePath profile.remoteRoot Target.linux.serverArchive) .tarGz)
    (.path (releaseDir profile.remoteRoot .linux ++ ".staging-$$".toList)) _
    (by simp [ensureServerInstalled, installServer, fresh])
    (by simp [serverInstallScript]) rfl
  have hdir : rootDir elsewhere profile =
      elsewhere.host.resolve (expand elsewhere.host.tilde [] (shellQuote profile.remoteRoot)) := by
    unfold rootDir
    rw [hhost]
    rfl
  unfold RemoteProfile.RootFits
  rw [hhost]
  constructor
  · intro hdash
    -- the directory of the cache is taken for an option
    have hpre : ['-'] <+: profile.remoteRoot ++ "/.cache".toList :=
      hdash.trans (List.prefix_append _ _)
    have htilde : ¬ ['~'] <+: profile.remoteRoot ++ "/.cache".toList := by
      obtain ⟨rest, hrest⟩ := hpre
      rw [← hrest]
      exact fun h => absurd (List.cons_prefix_cons.mp h).1 (by decide)
    obtain ⟨q, hq, -⟩ := hscript (mkdirScript (profile.remoteRoot ++ "/.cache".toList))
      (.path (profile.remoteRoot ++ "/.cache".toList)) _
      (by simp [ensureServerInstalled, installServer, fresh]) (by simp [mkdirScript]) rfl
    rw [RemoteShell.operand, RemoteShell.word_posixQuote _ _ (.inr htilde), if_pos hpre] at hq
    cases hq
  · intro htilde
    by_contra hsafe
    rw [Bool.not_eq_false] at hsafe
    have hroot : elsewhere.host.word [] (shellQuote profile.remoteRoot) =
        if profile.remoteRoot.all bridgeSafe then
          tildeExpand elsewhere.host.tilde profile.remoteRoot else profile.remoteRoot :=
      expand_quoteWith (fun _ h => posixSafe_isPlain (bridgeSafe_posixSafe h)) _ _
    rw [← RemoteShell.word, hroot] at hdir
    split_ifs at hdir with hbridge
    · -- the root is expanded, the staging directory is not
      obtain ⟨habs, names, hnames⟩ := tilde_elsewhere htilde
      have hpre := (prefix_singleton_iff hr hstaging.pre '~').mpr htilde
      obtain ⟨names', hnames'⟩ := resolve_elsewhere hpre
      have hword : elsewhere.host.word [] (posixQuote
          (releaseDir profile.remoteRoot .linux ++ ".staging-$$".toList)) =
          releaseDir profile.remoteRoot .linux ++ ".staging-$$".toList := by
        rw [RemoteShell.word, posixQuote, expand_quoteWith fun _ => posixSafe_isPlain, if_neg]
        rw [List.all_eq_true]
        exact fun h => absurd (h '$' (by simp)) (by decide)
      rw [RemoteShell.operand, hword] at hq'
      split_ifs at hq'
      cases hq'
      rw [hdir, elsewhere.host.resolve_absolute habs] at hin'
      exact not_within_of_ne (by decide) hnames hnames' hin'
    · -- the release is expanded, the root is not
      obtain ⟨names, hnames⟩ := resolve_elsewhere htilde
      have hpre := (prefix_singleton_iff hr hartifact.pre '~').mpr htilde
      obtain ⟨habs, names', hnames'⟩ := tilde_elsewhere hpre
      have hword : elsewhere.host.word [] (posixQuote
          (releaseArtifact profile.remoteRoot .linux)) =
          tildeExpand elsewhere.host.tilde (releaseArtifact profile.remoteRoot .linux) := by
        rw [RemoteShell.word, posixQuote, expand_quoteWith fun _ => posixSafe_isPlain,
          if_pos (all_posixSafe_releaseArtifact hsafe .linux)]
      rw [RemoteShell.path, ← RemoteShell.word, hword, elsewhere.host.resolve_absolute habs] at hq
      cases hq
      rw [hdir] at hin
      exact not_within_of_ne (by decide) hnames hnames' hin

/-- **The attempts of a profile stay in one directory exactly where its root fits.** -/
theorem oneRoot_iff (hvalid : profile.validate = .ok ()) :
    (∀ m found, OneRoot m profile found) ↔ profile.RootFits := by
  constructor
  · intro h
    cases htarget : profile.executionTarget with
    | host => exact fits_of_oneRoot_host htarget (h elsewhere fresh)
    | dockerContainer containerName user workdir root =>
      exact fits_of_oneRoot_docker htarget elsewhere (h elsewhere fresh)
  · exact oneRoot_of_fits hvalid

end Attempt

/-- A profile of a host, with a root or the default one. -/
def hostProfile (root : Option String) : RemoteProfile where
  id := "host-a".toList
  label := "Build Server".toList
  sshDestination := "dev@build".toList
  port := none
  polytokenPolicy := .requireExisting
  remoteRootOverride := root.map String.toList
  serverPath := none
  xdgMode := .isolated
  executionTarget := .host
  riskAcknowledgements := ⟨none, none⟩

theorem oneRoot_hostProfile : OneRoot elsewhere (hostProfile (some "/srv/pantoken")) fresh :=
  (oneRoot_iff (by decide)).mpr (by decide) elsewhere fresh

/-- **The default root is not one**: the staging directory is quoted, and not expanded. -/
theorem not_oneRoot_default :
    ¬ ∀ (profile : RemoteProfile) (m : Machines) (found : Found),
      profile.validate = .ok () → OneRoot m profile found := by
  intro h
  have hfits := fits_of_oneRoot_host rfl (h (hostProfile none) elsewhere fresh (by decide))
  exact absurd hfits (by decide)

end Pantoken.Desktop
