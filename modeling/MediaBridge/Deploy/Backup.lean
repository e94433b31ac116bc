import MediaBridge.Core.Receipts
import MediaBridge.Foundation.Faults
import MediaBridge.Foundation.JsonReread

/-!
# Backups of the database

`deploy/scripts/backup.py`, `verify_backup.py` and `restore.py`: an archive with a manifest and a
dump is written, checked, and handed to the restore command.

## Implementation notes

The bytes of a compressed archive are those of an `Archiver`. A member that cannot be read makes the
whole archive unreadable. File modes are left out, and so are the commands that make and take a
dump.
-/

namespace MediaBridge.Deploy

open Foundation MediaBridge.Core Faulty

section Archives

/-- A member of an archive that was opened. -/
structure Member where
  name : Str
  isFile : Bool
  size : Nat
  content : Bytes
deriving DecidableEq

def Member.regular (name : Str) (content : Bytes) : Member := ⟨name, true, content.length, content⟩

inductive ArchiveError
  /-- An `OSError` or a `TarError`. -/
  | tar
  | raised
deriving DecidableEq

/-- The members of a backup. -/
def backupMembers (manifest database : Bytes) : List (Str × Bytes) :=
  [(lit "manifest.json", manifest), (lit "database.sql", database)]

def roundUp (unit n : Nat) : Nat := (n + (unit - 1)) / unit * unit

/-- The length of a tar archive of regular files: a header and whole blocks for each of them, two
empty blocks, and whole records. -/
def tarLength (members : List (Str × Bytes)) : Nat :=
  roundUp 10240 ((members.map fun m => 512 + roundUp 512 m.2.length).sum + 1024)

/-- `tarfile` over `gzip`: what was packed is unpacked, and what cannot be compressed grows by a
few bytes for each block. -/
structure Archiver where
  pack : Nat → List (Str × Bytes) → Bytes
  /-- What has been written of an archive with these members so far. -/
  started : Nat → List (Str × Bytes) → Bytes
  partOf : Bytes → Bytes
  unpack : Bytes → Except ArchiveError (List Member)
  unpack_pack : ∀ mtime manifest database, unpack (pack mtime (backupMembers manifest database)) =
    .ok ((backupMembers manifest database).map fun m => .regular m.1 m.2)
  length_pack_le : ∀ mtime manifest database,
    (pack mtime (backupMembers manifest database)).length ≤
      tarLength (backupMembers manifest database) +
        tarLength (backupMembers manifest database) / 1024 + 64

end Archives

/-- What the scripts run on: an interpreter that reads its own floats back and whose JSON decoder
has room for a manifest, and its archives. -/
structure BackupHost where
  platform : Platform
  archiver : Archiver
  faithful : platform.float.Faithful
  depth : 1 ≤ platform.jsonDepth

section Creation

def maxDatabaseBytes : Nat := 500 * 1024 * 1024

/-- The bytes of an ASCII text. -/
def bytesOf (s : String) : Bytes := (lit s).map fun c => Utf8.byte c.val

/-- A byte in lower case. -/
def lowerByte (b : Byte) : Byte :=
  if 65 ≤ b.val ∧ b.val ≤ 90 then Utf8.byte (b.val + 32) else b

/-- `[a-z0-9_-]` -/
def isTokenByte (b : Byte) : Bool :=
  (97 ≤ b.val && b.val ≤ 122) || (48 ≤ b.val && b.val ≤ 57) || b.val == 95 || b.val == 45

/-- A start with sixteen bytes of a token after it. -/
def hasToken (start data : Bytes) : Bool :=
  data.tails.any fun rest => start.isPrefixOf rest &&
    ((rest.drop start.length).takeWhile isTokenByte).length ≥ 16

/-- Whether one of `SENSITIVE_PATTERNS` is found. -/
def isSensitive (data : Bytes) : Bool :=
  let lower := data.map lowerByte
  decide (bytesOf "-----begin private key-----" <:+: lower) ||
    decide (bytesOf "data:image/" <:+: lower) ||
    decide (bytesOf "data:application/pdf;base64," <:+: lower) ||
    hasToken (bytesOf "sk-") lower || hasToken (bytesOf "mbc_") lower

inductive BackupStep
  | makeTemporary | chmod | openArchive | writeManifest | writeDatabase | closeArchive | replace
  | unlinkTemporary | unlinkOutput
deriving DecidableEq

inductive BackupError
  /-- The `BackupError` with its code. -/
  | backup (code : String)
  /-- What a step raises. -/
  | system (step : BackupStep)
  | raised
deriving DecidableEq

/-- `_safe_database_dump`. -/
def safeDatabaseDump (sqlDump : Bytes) : Except BackupError Unit :=
  if sqlDump = [] ∨ maxDatabaseBytes < sqlDump.length then .error (.backup "database_dump_invalid")
  else if isSensitive sqlDump then .error (.backup "sensitive_content_detected")
  else .ok ()

/-- A `datetime`: `int(created_at.timestamp())`, if there is one, and its text. -/
structure CreatedAt where
  timestamp : Option Int
  isoformat : Str
  isoformat_ascii : ∀ c ∈ isoformat, c.isAscii = true

/-- The arguments of `create_archive`, without the path. -/
structure ArchiveInput where
  sqlDump : Bytes
  productVersion : Str
  migrationRevision : Str
  createdAt : CreatedAt

/-- What is under a name. -/
inductive Entry
  | file (content : Bytes)
  | directory
  | link
deriving DecidableEq

/-- The output path, its directory and the temporary file. -/
structure BackupFiles where
  output : Option Entry
  parentIsDir : Bool
  temporary : Option Bytes := none

variable (P : Platform) (A : Archiver)

/-- The dictionary of the manifest. -/
def manifestFields (input : ArchiveInput) : Entries Str Json :=
  [(lit "schema", .str (lit "media-bridge-backup/v1")),
    (lit "product_version", .str input.productVersion),
    (lit "migration_revision", .str input.migrationRevision),
    (lit "created_at", .str input.createdAt.isoformat),
    (lit "database_sha256", .str (P.sha256Hex input.sqlDump))]

/-- The style of the manifest. -/
def manifestStyle : JsonText.Style := ⟨true, true, true⟩

/-- The manifest. -/
def manifestBytes (input : ArchiveInput) : Option Bytes := do
  Utf8.encode (← JsonText.dumps P.float manifestStyle (.obj (manifestFields P input)))

/-- A time that fits in the header of `gzip`. -/
def fitsHeader (timestamp : Int) : Bool := 0 ≤ timestamp && timestamp < 2 ^ 32

/-- The temporary file gets a content. -/
def writing (content : Bytes) : Effect BackupFiles :=
  ⟨fun s => some { s with temporary := some content },
    fun s => { s with temporary := some (A.partOf content) }⟩

/-- The effects of the steps that write the temporary file; `gzip` refuses other times. -/
def writeEffect (timestamp : Int) (manifest database : Bytes) : BackupStep → Effect BackupFiles
  | .openArchive =>
      ⟨fun s => if fitsHeader timestamp then
        some { s with temporary := some (A.started timestamp.toNat []) } else none, id⟩
  | .writeManifest => writing A (A.started timestamp.toNat [(lit "manifest.json", manifest)])
  | .writeDatabase => writing A (A.started timestamp.toNat (backupMembers manifest database))
  | .closeArchive => writing A (A.pack timestamp.toNat (backupMembers manifest database))
  | _ => .atomic id

/-- The steps that write the temporary file. -/
def writingSteps : List BackupStep :=
  [.chmod, .openArchive, .writeManifest, .writeDatabase, .closeArchive]

/-- `temporary.replace(output)`: a directory is not replaced. -/
def replaceOutput : Effect BackupFiles where
  apply s := if s.output = some .directory then none else
    some { s with output := s.temporary.map .file, temporary := none }
  torn := id

/-- `output.unlink(missing_ok=True)`: a directory is not unlinked. -/
def unlinkOutput : Effect BackupFiles where
  apply s := if s.output = some .directory then none else some { s with output := none }
  torn := id

abbrev BackingUp (α : Type) : Type := Faulty BackupStep BackupFiles BackupError α

/-- The archive in the temporary file. -/
def writeTemporary (timestamp : Int) (manifest database : Bytes) : BackingUp Unit :=
  performAll .system (writeEffect A timestamp manifest database) writingSteps

/-- The block that writes the archive. -/
def writeArchive (timestamp : Int) (manifest database : Bytes) : BackingUp Unit := do
  writeTemporary A timestamp manifest database
  perform .replace (.system .replace) replaceOutput

/-- The handler. -/
def discard {α : Type} (error : BackupError) : BackingUp α := do
  perform .unlinkTemporary (.system .unlinkTemporary)
    (.atomic fun s => { s with temporary := none })
  perform .unlinkOutput (.system .unlinkOutput) unlinkOutput
  raise error

/-- What `create_archive` checks and computes before it writes. -/
def prepareArchive (input : ArchiveInput) (files : BackupFiles) :
    Except BackupError (Int × Bytes) :=
  match safeDatabaseDump input.sqlDump with
  | .error e => .error e
  | .ok () =>
      if files.output = some .link ∨ files.parentIsDir = false then
        .error (.backup "backup_output_invalid")
      else
        match input.createdAt.timestamp, manifestBytes P input with
        | some timestamp, some manifest => .ok (timestamp, manifest)
        | _, _ => .error .raised

/-- `create_archive`. -/
def createArchive (input : ArchiveInput) : BackingUp Unit := do
  match ← look (prepareArchive P input) with
  | .error e => raise e
  | .ok (timestamp, manifest) =>
      perform .makeTemporary (.system .makeTemporary)
        (.atomic fun s => { s with temporary := some [] })
      catching (writeArchive A timestamp manifest input.sqlDump) discard

end Creation

section Verification

def maxArchiveBytes : Nat := 512 * 1024 * 1024

def maxManifestBytes : Nat := 16384

inductive VerificationError
  /-- The `BackupVerificationError` with its code. -/
  | verification (code : String)
  | raised
deriving DecidableEq

structure VerifiedBackup where
  productVersion : Str
  migrationRevision : Str
  databaseSha256 : Str
deriving DecidableEq

/-- `_member_bytes`. -/
def memberBytes (member : Member) (limit : Nat) : Except VerificationError Bytes :=
  if member.isFile = false ∨ limit < member.size then
    .error (.verification "archive_member_invalid")
  else
    let body := member.content.take (limit + 1)
    if limit < body.length then .error (.verification "archive_member_invalid") else .ok body

def expectedMembers : List Str := [lit "manifest.json", lit "database.sql"]

def expectedKeys : List Str :=
  [lit "schema", lit "product_version", lit "migration_revision", lit "created_at",
    lit "database_sha256"]

/-- Two lists name the same set. -/
def sameSet (names expected : List Str) : Bool :=
  names.all (expected.contains ·) && expected.all (names.contains ·)

/-- The last member with a name. -/
def memberNamed (members : List Member) (name : Str) : Option Member :=
  members.reverse.find? fun m => m.name = name

variable (P : Platform) (A : Archiver)

/-- The members of the archive that are read: the manifest and the database. -/
def readMembers (data : Bytes) : Except VerificationError (Bytes × Bytes) :=
  match A.unpack data with
  | .error .tar => .error (.verification "backup_file_invalid")
  | .error .raised => .error .raised
  | .ok members =>
      if !sameSet (members.map Member.name) expectedMembers || members.length != 2 then
        .error (.verification "archive_members_invalid")
      else
        match memberNamed members (lit "manifest.json"),
          memberNamed members (lit "database.sql") with
        | some manifest, some database => do
            let manifestBody ← memberBytes manifest maxManifestBytes
            let databaseBody ← memberBytes database maxDatabaseBytes
            return (manifestBody, databaseBody)
        | _, _ => .error .raised

/-- `json.loads(manifest_body)`. -/
def loadManifest (body : Bytes) : Except VerificationError Json :=
  match JsonText.decodeJsonBytes P.wide body with
  | none => .error (.verification "manifest_invalid")
  | some text =>
      match JsonText.loads P.float P.jsonDepth text with
      | .ok v => .ok v
      | .error .decode => .error (.verification "manifest_invalid")
      | .error _ => .error .raised

/-- The checks of a manifest. -/
def checkManifest (manifest : Json) (database : Bytes) :
    Except VerificationError VerifiedBackup :=
  match manifest with
  | .obj fields =>
      if !sameSet (Entries.keys fields) expectedKeys then
        .error (.verification "manifest_invalid")
      else if (Json.field fields "schema").str? ≠ some (lit "media-bridge-backup/v1") then
        .error (.verification "manifest_invalid")
      else if (Json.field fields "database_sha256").str? ≠ some (P.sha256Hex database) then
        .error (.verification "digest_mismatch")
      else
        match (Json.field fields "product_version").str?,
          (Json.field fields "migration_revision").str? with
        | some version, some revision => .ok ⟨version, revision, P.sha256Hex database⟩
        | _, _ => .error (.verification "manifest_invalid")
  | _ => .error (.verification "manifest_invalid")

/-- `verify` of what is under a path. -/
def verify (entry : Option Entry) : Except VerificationError VerifiedBackup :=
  match entry with
  | some (.file data) =>
      if maxArchiveBytes < data.length then .error (.verification "backup_file_invalid")
      else do
        let (manifestBody, database) ← readMembers A data
        let manifest ← loadManifest P manifestBody
        checkManifest P manifest database
  | _ => .error (.verification "backup_file_invalid")

end Verification

section Restoration

inductive RestoreError
  /-- The `RestoreError` with its code. -/
  | restore (code : String)
  | raised
deriving DecidableEq

variable (P : Platform) (A : Archiver)

/-- `restore_archive`: the bytes that it hands to `apply_sql`. -/
def restoreArchive (entry : Option Entry) (databaseIsEmpty confirmed : Bool) :
    Except RestoreError Bytes :=
  if !confirmed then .error (.restore "confirmation_required")
  else if !databaseIsEmpty then .error (.restore "target_database_not_empty")
  else
    match verify P A entry, entry with
    | .error (.verification _), _ => .error (.restore "backup_verification_failed")
    | .error .raised, _ => .error .raised
    | .ok _, some (.file data) =>
        match A.unpack data with
        | .error .tar => .error (.restore "backup_verification_failed")
        | .error .raised => .error .raised
        | .ok members =>
            match memberNamed members (lit "database.sql") with
            | none => .error .raised
            | some member =>
                if member.isFile then .ok member.content
                else .error (.restore "archive_member_invalid")
    | .ok _, _ => .error (.restore "backup_verification_failed")

end Restoration

end MediaBridge.Deploy
