import MediaBridge.Foundation.Faults
import MediaBridge.Personal.Launcher

/-!
# Installing the runtime

`installArtifact` and `resolveRuntime` of `packaging/npm/lib/runtime.cjs`: the archive of a version
is extracted beside the runtime directory, which is then moved out of the way and replaced.

## Implementation notes

A tree has files and directories and no links. The names beside the runtime directory hold a process
id and a time and are taken to be new. What `tar` and `JSON` make of bytes, and what a part of an
operation leaves, are fields of `InstallHost`. A call gets the artifacts that `selectArtifact` and
`resolveRuntime` let through; their check of the platform is left out, and paths are those of POSIX.
-/

namespace MediaBridge.Personal

open Foundation MediaBridge.Core Faulty

section Trees

/-- The segments of a path in a tree. -/
abbrev TreePath := List Str

inductive Node
  | directory
  | file (content : Bytes) (executable : Bool)
deriving DecidableEq

/-- What lies under a name. -/
structure Tree where
  node : TreePath → Option Node
  node_top : (node []).isSome = true

/-- A directory with nothing in it. -/
def Tree.empty : Tree := ⟨fun path => if path = [] then some .directory else none, rfl⟩

def Tree.isFile (tree : Tree) (path : TreePath) : Bool :=
  match tree.node path with
  | some (.file _ _) => true
  | _ => false

def Tree.isExecutable (tree : Tree) (path : TreePath) : Bool :=
  match tree.node path with
  | some (.file _ executable) => executable
  | some .directory => true
  | none => false

/-- The tree with another file in its directory. -/
def Tree.put (tree : Tree) (name : Str) (file : Node) : Tree where
  node := Function.update tree.node [name] (some file)
  node_top := by
    rw [Function.update_of_ne (List.cons_ne_nil name []).symm]
    exact tree.node_top

/-- A file that is written in the directory of the tree. -/
def Tree.write (tree : Tree) (name : Str) (content : Bytes) : Option Tree :=
  match tree.node [], tree.node [name] with
  | some .directory, some (.file _ executable) => some (tree.put name (.file content executable))
  | some .directory, none => some (tree.put name (.file content false))
  | _, _ => none

end Trees

section Artifacts

/-- The segments of a command. -/
def commandSegments (command : Str) : TreePath :=
  Str.splitOn (cp 47) (command.map fun c => if c = cp 92 then cp 47 else c)

/-- `path.win32.isAbsolute` of a text that starts with no separator. -/
def startsWithDrive : Str → Bool
  | letter :: colon :: separator :: _ =>
      letter.isAsciiAlpha && colon == cp 58 && (separator == cp 47 || separator == cp 92)
  | _ => false

/-- `isSafeRelativeCommand` of a string. -/
def isSafeRelativeCommand (command : Str) : Bool :=
  !command.isEmpty && !startsWithDrive command && (commandSegments command).all fun segment =>
    segment != lit ".." && segment != [] && segment != lit "."

/-- An artifact that passed its checks. -/
structure Artifact where
  key : Str
  version : Str
  url : Str
  sha256 : Str
  command : Str
  python : Bool
  sha256_hex : sha256.length = 64 ∧ sha256.all UrlSplit.isHexDigit = true
  command_safe : isSafeRelativeCommand command = true

variable (artifact : Artifact)

/-- `artifactCommand`, under the directory it is asked for. -/
def artifactCommand : Option TreePath :=
  if (commandSegments artifact.command).head?.any fun segment => (lit "..").isPrefixOf segment then
    none
  else some (commandSegments artifact.command)

/-- `verifiedMetadata`. -/
def verifiedMetadata : Entries Str Json :=
  [(lit "schemaVersion", .int 1), (lit "platform", .str artifact.key),
    (lit "version", .str artifact.version), (lit "sha256", .str (Str.asciiLower artifact.sha256)),
    (lit "command", .str artifact.command), (lit "python", .bool artifact.python)]

/-- `actual === expected`. -/
def identical : Option Json → Json → Bool
  | some v, .int n => integerValue v = some n
  | some (.str s), .str t => s = t
  | some (.bool b), .bool c => b = c
  | _, _ => false

/-- `metadataMatches`. -/
def metadataMatches (actual : Option Json) (expected : Entries Str Json) : Bool :=
  booleanOf actual && expected.all fun e =>
    identical ((actual.bind Json.obj?).bind fun fields => Entries.get? fields e.1) e.2

end Artifacts

/-- What the installer runs on. -/
structure InstallHost where
  /-- The body of a response that is `ok`. -/
  fetch : Str → Option Bytes
  sha256Hex : Bytes → Str
  /-- `tar -xzf` into a directory. -/
  untar : Bytes → Tree → Option Tree
  /-- `JSON.parse` of the text of a file. -/
  parse : Bytes → Option Json
  /-- `JSON.stringify` and a line feed. -/
  stringify : Entries Str Json → Bytes
  partOfFile : Bytes → Bytes
  partOfTree : Tree → Tree
  restOfTree : Tree → Tree

/-- The names that the installer uses, and its variable. -/
structure Installation where
  root : Option Tree
  staging : Option Tree := none
  backup : Option Tree := none
  archive : Option Bytes := none
  movedPrevious : Bool := false

/-- The steps of the installer. -/
inductive InstallStep
  | makeParent | download | writeArchive | readArchive | makeStaging | extract | stat | access
  | writeMarker | moveRoot | moveStaging | removeBackup | removeStaging | moveBack | removeArchive
deriving DecidableEq

inductive InstallError
  | message (text : String)
  /-- What a step throws, or the text around it. -/
  | system (step : InstallStep)
deriving DecidableEq

abbrev Installing (α : Type) : Type := Faulty InstallStep Installation InstallError α

section Installer

variable (H : InstallHost) (artifact : Artifact)

/-- A step that throws its own error. -/
def step (label : InstallStep) (effect : Effect Installation) : Installing Unit :=
  perform label (.system label) effect

/-- `throw new Error(text)` unless a condition holds. -/
def require (holds : Bool) (text : String) : Installing Unit :=
  if holds then pure () else raise (.message text)

/-- `downloadArtifact`. -/
def downloadArtifact : Installing Unit := do
  step .download ⟨fun s => if (H.fetch artifact.url).isSome then some s else none, id⟩
  step .writeArchive ⟨fun s => some { s with archive := H.fetch artifact.url },
    fun s => { s with archive := (H.fetch artifact.url).map H.partOfFile }⟩

/-- `extractArtifact`. -/
def extractArtifact : Installing Unit := do
  step .makeStaging (.atomic fun s => { s with staging := some (s.staging.getD .empty) })
  step .extract
    ⟨fun s => do
      let tree ← H.untar (← s.archive) (← s.staging)
      return { s with staging := some tree },
    fun s => { s with staging := s.staging.map H.partOfTree }⟩

/-- The test of the staged command. -/
def checkCommand : Installing Unit := do
  match artifactCommand artifact with
  | none => raise (.message "runtime artifact command escapes the runtime directory")
  | some command =>
      perform .stat (.message "runtime artifact command is missing or unavailable") (.atomic id)
      let isFile ← look fun s => s.staging.any fun tree => tree.isFile command
      require isFile "runtime artifact command is missing or unavailable"
      step .access ⟨fun s => if s.staging.any fun tree => tree.isExecutable command then some s
        else none, id⟩

/-- The file `.verified.json` in the staged tree. -/
def writeMarker : Installing Unit :=
  let text := H.stringify (verifiedMetadata artifact)
  step .writeMarker
    ⟨fun s => do
      let tree ← (← s.staging).write (lit ".verified.json") text
      return { s with staging := some tree },
    fun s =>
      let torn (tree : Tree) := tree.write (lit ".verified.json") (H.partOfFile text)
      { s with staging := s.staging.map fun tree => (torn tree).getD tree }⟩

/-- The steps that come before the runtime directory is touched. -/
def stageArtifact : Installing Unit := do
  step .makeParent (.atomic id)
  downloadArtifact H artifact
  step .readArchive (.atomic id)
  let archive ← look Installation.archive
  require (decide (archive.map (fun data => Str.asciiLower (H.sha256Hex data)) =
    some (Str.asciiLower artifact.sha256))) "runtime artifact checksum mismatch"
  extractArtifact H
  checkCommand artifact
  writeMarker H artifact

/-- `fsp.rm` with `force`, of a tree. -/
def removal (remove : Option Tree → Installation → Installation)
    (tree : Installation → Option Tree) : Effect Installation :=
  ⟨fun s => some (remove none s), fun s => remove ((tree s).map H.restOfTree) s⟩

def removeBackup : Installing Unit :=
  step .removeBackup (removal H (fun tree s => { s with backup := tree }) Installation.backup)

def removeStaging : Installing Unit :=
  step .removeStaging (removal H (fun tree s => { s with staging := tree }) Installation.staging)

/-- The runtime directory is moved out of the way. A rename finds no tree at its target. -/
def moveRoot : Installing Unit := do
  let exists_ ← look fun s => s.root.isSome
  when_ exists_ (step .moveRoot ⟨fun s => if s.backup.isSome then none else
    some { s with root := none, backup := s.root, movedPrevious := true }, id⟩)

/-- The staged tree gets the name of the runtime directory. -/
def moveStaging : Installing Unit :=
  step .moveStaging ⟨fun s => if s.root.isSome || s.staging.isNone then none else
    some { s with root := s.staging, staging := none }, id⟩

/-- The steps that put the staged tree in the place of the runtime directory. -/
def replaceRoot : Installing Unit := do
  moveRoot
  moveStaging
  let movedPrevious ← look Installation.movedPrevious
  when_ movedPrevious (removeBackup H)

/-- Whether the handler has a tree to bring back. -/
def Installation.restores (s : Installation) : Bool :=
  s.movedPrevious && s.root.isNone && s.backup.isSome

/-- The return of the previous tree. -/
def restorePrevious : Installing Unit := do
  let restores ← look Installation.restores
  when_ restores (step .moveBack (.atomic fun s => { s with root := s.backup, backup := none }))

/-- The handler. -/
def recover {α : Type} (error : InstallError) : Installing α := do
  removeStaging H
  restorePrevious
  raise error

/-- The block of `installArtifact` that is tried: the command, and whether it is a Python. -/
def tryInstall : Installing (TreePath × Bool) := do
  stageArtifact H artifact
  replaceRoot H
  match artifactCommand artifact with
  | none => raise (.message "runtime artifact command escapes the runtime directory")
  | some command => return (command, artifact.python)

/-- `installArtifact`. -/
def installArtifact : Installing (TreePath × Bool) :=
  ensuring (catching (tryInstall H artifact) (recover H))
    (step .removeArchive (.atomic fun s => { s with archive := none }))

/-- `readVerified`. -/
def readVerified (root : Option Tree) : Option Json :=
  root.bind fun tree =>
    match tree.node [lit ".verified.json"] with
    | some (.file content _) => H.parse content
    | _ => none

/-- `fs.existsSync(command)`. -/
def commandExists (root : Option Tree) (command : TreePath) : Bool :=
  root.any fun tree => (tree.node command).isSome

/-- Whether `resolveRuntime` takes the installed tree. -/
def accepts (root : Option Tree) : Bool :=
  (artifactCommand artifact).any (commandExists root) &&
    metadataMatches (readVerified H root) (verifiedMetadata artifact)

/-- `resolveRuntime` after the choice of the artifact. -/
def resolveRuntime : Installing TreePath := do
  match artifactCommand artifact with
  | none => raise (.message "runtime artifact command escapes the runtime directory")
  | some command =>
      let accepted ← look fun s => accepts H artifact s.root
      let (command, _) ← if accepted then pure (command, artifact.python)
        else installArtifact H artifact
      let exists_ ← look fun s => commandExists s.root command
      require exists_ "Media Bridge runtime artifact is not available"
      return command

end Installer

end MediaBridge.Personal
