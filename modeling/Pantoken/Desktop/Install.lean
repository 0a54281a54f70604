import Pantoken.Desktop.RemoteShell
import Pantoken.Lib.FileTree

/-!
# The scripts that install on the remote host

An install is a script that extracts an uploaded archive into a staging directory, readies it
and moves it to its final place.  The staging directory ends in `$$`, which would be the pid of
the shell; it is quoted, so that every run of the script has the same one.

## Main definitions

* `buildInstallCommand`, `buildServerInstallCommand`, `buildCleanupStagingCommand` — the
  scripts, as texts.
* `readScript` — the commands of a text, as the shell reads it.
* `Site.commands` — the commands of an install.

## Main results

* `Artifact.readScript_script` — **every run of an install script does the same**, whatever pid
  its shell has.
* `readScript_cleanup` — the script that cleans up removes every staging directory.
-/

namespace Pantoken.Desktop

open FileTree Shell

/-! ### The scripts -/

inductive ArchiveFormat
  | tarGz | zip
  deriving DecidableEq

/-- `build_install_command`, of the directory the layout gives. -/
def buildInstallCommand (finalDir archivePath : List Char) (format : ArchiveFormat) : List Char :=
  let stagingDir := finalDir ++ ".staging-$$".toList
  let stagingQ := posixQuote stagingDir
  let finalQ := posixQuote finalDir
  let archiveQ := posixQuote archivePath
  let extractCmd := match format with
    | .tarGz => ["tar".toList, "xzf".toList, archiveQ, "-C".toList, stagingQ]
    | .zip => ["unzip".toList, "-o".toList, archiveQ, "-d".toList, stagingQ]
  let binaryInStaging := posixQuote (stagingDir ++ "/polytoken".toList)
  joinCommands [
    ["set".toList, "-e".toList],
    ["mkdir".toList, "-p".toList, stagingQ],
    extractCmd,
    ["chmod".toList, "+x".toList, binaryInStaging],
    ["test".toList, "-x".toList, binaryInStaging],
    ["mkdir".toList, "-p".toList, finalQ],
    ["rm".toList, "-rf".toList, finalQ],
    ["mv".toList, stagingQ, finalQ],
    ["rm".toList, "-f".toList, archiveQ],
    ["echo".toList, "ok".toList]]

/-- `SERVER_BINARY_IN_ARCHIVE` -/
def serverBinaryInArchive : List Char := "bin/pantoken-server".toList

/-- `build_server_install_command`, of the directory the layout gives. -/
def buildServerInstallCommand (finalDir archivePath : List Char) (format : ArchiveFormat) :
    List Char :=
  let stagingDir := finalDir ++ ".staging-$$".toList
  let stagingQ := posixQuote stagingDir
  let finalQ := posixQuote finalDir
  let archiveQ := posixQuote archivePath
  let extractCmd := match format with
    | .tarGz =>
      ["tar".toList, "xzf".toList, archiveQ, "-C".toList, stagingQ, serverBinaryInArchive]
    | .zip =>
      ["unzip".toList, "-o".toList, archiveQ, serverBinaryInArchive, "-d".toList, stagingQ]
  let binaryNested := posixQuote (stagingDir ++ '/' :: serverBinaryInArchive)
  let binaryRoot := posixQuote (stagingDir ++ "/pantoken-server".toList)
  joinCommands [
    ["set".toList, "-e".toList],
    ["mkdir".toList, "-p".toList, stagingQ],
    extractCmd,
    ["chmod".toList, "+x".toList, binaryNested],
    ["test".toList, "-x".toList, binaryNested],
    ["mv".toList, binaryNested, binaryRoot],
    ["mkdir".toList, "-p".toList, finalQ],
    ["rm".toList, "-rf".toList, finalQ],
    ["mv".toList, stagingQ, finalQ],
    ["rm".toList, "-f".toList, archiveQ],
    ["echo".toList, "ok".toList]]

/-- `build_cleanup_staging_command`, of the directory the layout gives. -/
def buildCleanupStagingCommand (finalDir : List Char) : List Char :=
  joinCommands [
    ["rm".toList, "-rf".toList, posixQuote finalDir ++ ".staging-*".toList,
      "2>/dev/null".toList],
    ["true".toList]]

/-! ### Their commands -/

inductive Command
  | setE
  | mkdirP (p : List Char)
  /-- `tar` or `unzip`, of the whole archive or of one member, into a directory. -/
  | extract (format : ArchiveFormat) (archive dir : List Char) (member : Option (List Char))
  | chmodX (p : List Char)
  | testX (p : List Char)
  | mv (a b : List Char)
  | rmRf (p : List Char)
  /-- `rm -rf` of what a star completes. -/
  | rmRfGlob (start : List Char)
  | rmF (p : List Char)
  | echo
  | nothing
  deriving DecidableEq

/-- A command, by its words. -/
def parseCommand (path : List Char → List Char) (words : List (List Char)) : Option Command :=
  match words.map String.ofList, words with
  | ["set", "-e"], _ => some .setE
  | ["mkdir", "-p", _], [_, _, p] => some (.mkdirP (path p))
  | ["tar", "xzf", _, "-C", _], [_, _, a, _, d] => some (.extract .tarGz (path a) (path d) none)
  | ["tar", "xzf", _, "-C", _, _], [_, _, a, _, d, m] =>
    some (.extract .tarGz (path a) (path d) (some ('/' :: m)))
  | ["unzip", "-o", _, "-d", _], [_, _, a, _, d] => some (.extract .zip (path a) (path d) none)
  | ["unzip", "-o", _, _, "-d", _], [_, _, a, m, _, d] =>
    some (.extract .zip (path a) (path d) (some ('/' :: m)))
  | ["chmod", "+x", _], [_, _, p] => some (.chmodX (path p))
  | ["test", "-x", _], [_, _, p] => some (.testX (path p))
  | ["mv", _, _], [_, a, b] => some (.mv (path a) (path b))
  | ["rm", "-rf", _], [_, _, p] => some (.rmRf (path p))
  | ["rm", "-rf", _, "2>/dev/null"], [_, _, p, _] =>
    if p.getLast? = some '*' then some (.rmRfGlob (path p.dropLast)) else none
  | ["rm", "-f", _], [_, _, p] => some (.rmF (path p))
  | ["echo", _], _ => some .echo
  | ["true"], _ => some .nothing
  | _, _ => none

section Parse

variable (path : List Char → List Char) (p a d m : List Char)

@[simp] theorem parseCommand_setE :
    parseCommand path ["set".toList, "-e".toList] = some .setE := rfl

@[simp] theorem parseCommand_mkdirP :
    parseCommand path ["mkdir".toList, "-p".toList, p] = some (.mkdirP (path p)) := rfl

@[simp] theorem parseCommand_tar :
    parseCommand path ["tar".toList, "xzf".toList, a, "-C".toList, d] =
      some (.extract .tarGz (path a) (path d) none) := rfl

@[simp] theorem parseCommand_tar_member :
    parseCommand path ["tar".toList, "xzf".toList, a, "-C".toList, d, m] =
      some (.extract .tarGz (path a) (path d) (some ('/' :: m))) := rfl

@[simp] theorem parseCommand_unzip :
    parseCommand path ["unzip".toList, "-o".toList, a, "-d".toList, d] =
      some (.extract .zip (path a) (path d) none) := rfl

@[simp] theorem parseCommand_unzip_member :
    parseCommand path
        ["unzip".toList, "-o".toList, a, serverBinaryInArchive, "-d".toList, d] =
      some (.extract .zip (path a) (path d) (some ('/' :: serverBinaryInArchive))) := rfl

@[simp] theorem parseCommand_chmodX :
    parseCommand path ["chmod".toList, "+x".toList, p] = some (.chmodX (path p)) := rfl

@[simp] theorem parseCommand_testX :
    parseCommand path ["test".toList, "-x".toList, p] = some (.testX (path p)) := rfl

@[simp] theorem parseCommand_mv :
    parseCommand path ["mv".toList, a, d] = some (.mv (path a) (path d)) := rfl

@[simp] theorem parseCommand_rmRf :
    parseCommand path ["rm".toList, "-rf".toList, p] = some (.rmRf (path p)) := rfl

@[simp] theorem parseCommand_rmRfGlob :
    parseCommand path ["rm".toList, "-rf".toList, p ++ ['*'], "2>/dev/null".toList] =
      some (.rmRfGlob (path p)) := by
  have hstar : ∀ q, parseCommand path ["rm".toList, "-rf".toList, q, "2>/dev/null".toList] =
      if q.getLast? = some '*' then some (.rmRfGlob (path q.dropLast)) else none := fun _ => rfl
  rw [hstar, List.getLast?_concat, if_pos rfl, List.dropLast_concat]

@[simp] theorem parseCommand_rmF :
    parseCommand path ["rm".toList, "-f".toList, p] = some (.rmF (path p)) := rfl

@[simp] theorem parseCommand_echo :
    parseCommand path ["echo".toList, p] = some .echo := rfl

@[simp] theorem parseCommand_nothing : parseCommand path ["true".toList] = some .nothing := rfl

end Parse

/-- The commands of a script, as the shell with a pid reads it. -/
def readScript (sh : RemoteShell) (pid script : List Char) : List Command :=
  (readCommands script).filterMap (parseCommand (sh.path pid))

/-! ### What the scripts say -/

/-- The binaries that are installed. -/
inductive Artifact
  | polytoken | server
  deriving DecidableEq

/-- Where a script works: the directory the layout gives, below a root, and the archive. -/
structure Site where
  shell : RemoteShell
  finalDir : List Char
  archivePath : List Char
  format : ArchiveFormat
  slash : '/' ∈ finalDir

def Site.final (site : Site) : List Char := site.shell.quoted site.finalDir

/-- The staging directory of every run: a dollar sign is quoted. -/
def Site.staging (site : Site) : List Char :=
  site.shell.resolve (site.finalDir ++ ".staging-$$".toList)

def Site.archive (site : Site) : List Char := site.shell.quoted site.archivePath

/-- The script that installs an artifact. -/
def Artifact.script : Artifact → Site → List Char
  | .polytoken, site => buildInstallCommand site.finalDir site.archivePath site.format
  | .server, site => buildServerInstallCommand site.finalDir site.archivePath site.format

/-- What is extracted of the archive. -/
def Artifact.member : Artifact → Option (List Char)
  | .polytoken => none
  | .server => some ('/' :: serverBinaryInArchive)

/-- Where the binary is in the end. -/
def Artifact.binary : Artifact → List Char
  | .polytoken => "/polytoken".toList
  | .server => "/pantoken-server".toList

/-- A command on paths below a directory. -/
inductive RelCommand
  | chmodX (r : List Char)
  | testX (r : List Char)
  | mv (r r' : List Char)

def RelCommand.at (root : List Char) : RelCommand → Command
  | .chmodX r => .chmodX (root ++ r)
  | .testX r => .testX (root ++ r)
  | .mv r r' => .mv (root ++ r) (root ++ r')

/-- What is done to what was extracted. -/
def Artifact.inner : Artifact → List RelCommand
  | .polytoken => [.chmodX "/polytoken".toList, .testX "/polytoken".toList]
  | .server =>
    [.chmodX ('/' :: serverBinaryInArchive), .testX ('/' :: serverBinaryInArchive),
      .mv ('/' :: serverBinaryInArchive) "/pantoken-server".toList]

/-- The last commands of a script, which leave both directories alone. -/
def Site.closing (site : Site) : List Command := [.rmF site.archive, .echo]

/-- The commands that put the staging directory in place of the final one. -/
def Site.swap (site : Site) : List Command :=
  [.mkdirP site.final, .rmRf site.final, .mv site.staging site.final] ++ site.closing

/-- The commands that follow the extraction. -/
def Site.ready (site : Site) (inner : List RelCommand) : List Command :=
  inner.map (·.at site.staging) ++ site.swap

def Site.unpack (site : Site) (x : Artifact) : List Command :=
  .extract site.format site.archive site.staging x.member :: site.ready x.inner

/-- The commands that install an artifact. -/
def Site.commands (site : Site) (x : Artifact) : List Command :=
  [.setE, .mkdirP site.staging] ++ site.unpack x

section Read

variable (site : Site)

/-- A path below the staging directory, as the shell reads it. -/
theorem Site.path_staging (pid q : List Char) :
    site.shell.path pid (posixQuote (site.finalDir ++ ".staging-$$".toList ++ q)) =
      site.staging ++ q := by
  have hdollar : '$' ∈ site.finalDir ++ ".staging-$$".toList ++ q := by simp
  rw [RemoteShell.path_posixQuote, RemoteShell.quoted_dollar _ hdollar,
    RemoteShell.resolve_append _ (by simp)]
  rfl

/-- **Every run of an install script does the same**, whatever pid its shell has. -/
theorem Artifact.readScript_script (x : Artifact) (pid : List Char) :
    readScript site.shell pid (x.script site) = site.commands x := by
  have hstaging := site.path_staging pid []
  rw [List.append_nil, List.append_nil] at hstaging
  have hword : ∀ words : List (List (List Char)), words ≠ [] →
      (∀ ws ∈ words, ∀ w ∈ ws, Word w) → readScript site.shell pid (joinCommands words) =
        words.filterMap (parseCommand (site.shell.path pid)) := by
    intro words hne hwords
    rw [readScript, readCommands_joinCommands hne hwords]
  cases x <;> cases hformat : site.format
  all_goals
    simp only [Artifact.script, buildInstallCommand, buildServerInstallCommand, hformat]
    rw [hword _ (List.cons_ne_nil _ _)]
    · simp only [List.filterMap_cons, List.filterMap_nil, parseCommand_setE, parseCommand_mkdirP,
        parseCommand_tar, parseCommand_tar_member, parseCommand_unzip, parseCommand_unzip_member,
        parseCommand_chmodX, parseCommand_testX, parseCommand_mv, parseCommand_rmRf,
        parseCommand_rmF, parseCommand_echo, hstaging, site.path_staging pid]
      simp only [RemoteShell.path_posixQuote, Site.commands, Site.unpack, hformat]
      rfl
    · simp only [List.forall_mem_cons, word_posixQuote, true_and]
      decide

theorem Site.path_glob (pid : List Char) :
    site.shell.path pid (posixQuote site.finalDir ++ ".staging-".toList) =
      site.final ++ ".staging-".toList := by
  have happend : expand site.shell.tilde pid (quoteWith posixSafe site.finalDir ++
      ".staging-".toList) = _ :=
    expand_quoteWith_append (fun _ => posixSafe_isPlain) _ site.slash (by decide)
  have hne : expand site.shell.tilde pid (posixQuote site.finalDir) ≠ [] := by
    rw [posixQuote, expand_quoteWith fun _ => posixSafe_isPlain]
    split_ifs
    · exact tildeExpand_ne_nil _ site.slash
    · exact List.ne_nil_of_mem site.slash
  rw [RemoteShell.path, posixQuote, happend, ← posixQuote, RemoteShell.resolve_append _ hne,
    ← RemoteShell.path, RemoteShell.path_posixQuote]
  rfl

/-- The script that cleans up removes what begins as a staging directory does. -/
theorem readScript_cleanup (pid : List Char) :
    readScript site.shell pid (buildCleanupStagingCommand site.finalDir) =
      [.rmRfGlob (site.final ++ ".staging-".toList), .nothing] := by
  have hstar : posixQuote site.finalDir ++ ".staging-*".toList =
      posixQuote site.finalDir ++ ".staging-".toList ++ ['*'] := by
    rw [List.append_assoc]
    rfl
  have hglob : Word (posixQuote site.finalDir ++ ".staging-*".toList) := by
    have hquote := word_posixQuote site.finalDir
    exact ⟨by simp, hquote.command.append (by decide), hquote.word.append (by decide)⟩
  rw [readScript, buildCleanupStagingCommand, readCommands_joinCommands (List.cons_ne_nil _ _)]
  · simp only [List.filterMap_cons, List.filterMap_nil, hstar, parseCommand_rmRfGlob,
      parseCommand_nothing, site.path_glob]
  · simp only [List.forall_mem_cons, hglob, true_and]
    decide

end Read

end Pantoken.Desktop
