import MediaBridge.Adapters.PreUpstream
import MediaBridge.Foundation.JsonEqual
import MediaBridge.Foundation.JsonReread
import MediaBridge.Foundation.Lines
import MediaBridge.Personal.Settings

/-!
# The OpenCodex configuration manager

`media_bridge_adapters/opencodex/manager.py`: the provider entry that the manager writes into the
configuration of OpenCodex, and the files that it changes for it.

## Implementation notes

A call that is not refused gives a `Plan`: the file operations that it makes one after another, and
what it reports. The copies through `json.dumps` and `json.loads` are left out, as what was read is
read back. A backup lies beside the marker and is known by its name. File modes are left out.
-/

namespace MediaBridge.Adapters.OpenCodex

open Foundation MediaBridge.Core

/-- Why a call is refused. -/
inductive ManagerError
  /-- The `OpenCodexConfigError` with its code. -/
  | config (code : String)
  /-- Another exception. -/
  | raised
deriving DecidableEq

/-- What the manager runs on: an interpreter that reads its own floats back and whose JSON decoder
has room for a provider entry, and the name of the marker file, which names no directory. -/
structure Manager where
  interpreter : Personal.Interpreter
  faithful : interpreter.platform.float.Faithful
  depth : 4 ≤ interpreter.platform.jsonDepth
  /-- `marker_path.name`. -/
  markerName : Str
  markerName_joined : JsonText.rejoin markerName = markerName
  markerName_plain : cp 47 ∉ markerName

structure Arguments where
  providerName : Str
  endpoint : Str
  model : Str
  credentialEnv : Str
  tenantId : Str
deriving DecidableEq

section Files

/-- A file that the manager names. -/
inductive Target
  | config
  | marker
  | beside (name : Str)
deriving DecidableEq

/-- The files: the configuration, the marker and what else lies beside it, and the temporary files,
the last one first. -/
structure Files where
  config : Option Bytes
  marker : Option Bytes
  beside : Str → Option Bytes
  temporaries : List Bytes

/-- The files with another content of one of them. -/
def Files.put (files : Files) (target : Target) (content : Option Bytes) : Files :=
  match target with
  | .config => { files with config := content }
  | .marker => { files with marker := content }
  | .beside name => { files with beside := Function.update files.beside name content }

/-- A file operation. -/
inductive FileOp
  | makeTemporary
  | writeTemporary (content : Bytes)
  | replace (target : Target)
  | chmod (target : Target)
  | unlink (target : Target)
deriving DecidableEq

/-- The files after an operation. -/
def FileOp.run (files : Files) : FileOp → Files
  | .makeTemporary => { files with temporaries := [] :: files.temporaries }
  | .writeTemporary content =>
      { files with temporaries := content :: files.temporaries.tail }
  | .replace target =>
      match files.temporaries with
      | [] => files
      | content :: rest => { files with temporaries := rest }.put target (some content)
  | .chmod _ => files
  | .unlink target => files.put target none

/-- The files after operations. -/
def Files.after (files : Files) (ops : List FileOp) : Files := ops.foldl FileOp.run files

/-- `_atomic_write_bytes`. -/
def atomicWrite (target : Target) (content : Bytes) : List FileOp :=
  [.makeTemporary, .writeTemporary content, .replace target, .chmod target]

end Files

section Documents

variable (M : Manager)

/-- The style of `_canonical`. -/
def style : JsonText.Style := ⟨true, true, true⟩

/-- `_canonical`; `none` is a `ValueError`. -/
def canonical (fields : Entries Str Json) : Option Bytes := do
  let text ← JsonText.dumps M.interpreter.platform.float style (.obj fields)
  Utf8.encode (text ++ [cp 10])

/-- `_digest_bytes`. -/
def digestBytes (data : Bytes) : Str := M.interpreter.platform.sha256Hex data

/-- `_digest_bytes(data) == v`. -/
def hasDigest (data : Bytes) (v : Json) : Bool := decide (v.str? = some (digestBytes M data))

/-- `_read_json` of a file with a content. -/
def readJson (data : Bytes) : Except ManagerError Json :=
  match Utf8.decode data with
  | none => .error (.config "config_unreadable")
  | some text =>
      match JsonText.loads M.interpreter.platform.float M.interpreter.platform.jsonDepth
          (Str.universalNewlines text) with
      | .ok v => .ok v
      | .error .decode => .error (.config "config_unreadable")
      | .error _ => .error .raised

/-- `_read_config`. -/
def readConfig : Option Bytes → Except ManagerError (Entries Str Json)
  | none => .ok [(lit "providers", .obj [])]
  | some data =>
      match readJson M data with
      | .error e => .error e
      | .ok (.obj fields) => .ok fields
      | .ok _ => .error (.config "config_invalid")

/-- `_read_marker`. -/
def readMarker : Option Bytes → Except ManagerError (Entries Str Json)
  | none => .error (.config "ownership_marker_missing")
  | some data =>
      match readJson M data with
      | .error e => .error e
      | .ok (.obj fields) =>
          if Json.equal (Json.field fields "schema") (.int 1) = false ∨
              (Json.field fields "provider").str? = none then
            .error (.config "ownership_marker_invalid")
          else .ok fields
      | .ok _ => .error (.config "ownership_marker_invalid")

/-- `path.with_name(name)`; `none` is a `ValueError`. -/
def withName (name : Str) : Option Str :=
  if name = [] ∨ name = lit "." ∨ cp 47 ∈ name then none else some name

end Documents

section Apply

variable (M : Manager)

/-- `[A-Za-z0-9][A-Za-z0-9._:-]{0,127}`. -/
def namePattern : Str → Bool
  | [] => false
  | c :: rest => c.isAsciiAlnum && rest.length ≤ 127 && rest.all fun d =>
      d.isAsciiAlnum || d == cp 46 || d == cp 95 || d == cp 58 || d == cp 45

/-- `[A-Z_][A-Z0-9_]{0,127}`. -/
def envPattern : Str → Bool
  | [] => false
  | c :: rest => (c.isAsciiUpper || c == cp 95) && rest.length ≤ 127 && rest.all fun d =>
      d.isAsciiUpper || d.isAsciiDigit || d == cp 95

/-- `_validate_base_url`. -/
def validateBaseUrl (value : Str) : Except ManagerError Unit :=
  if value ≠ value.strip then .error (.config "endpoint_invalid")
  else
    match UrlSplit.urlsplit M.interpreter.unicode value with
    | none => .error .raised
    | some parsed =>
        if namesUser parsed ∨ parsed.query ≠ [] ∨ parsed.fragment ≠ [] ∨
            parsed.path.rdropWhile (· = UrlSplit.slash) ≠ lit "/v1" then
          .error (.config "endpoint_invalid")
        else if parsed.scheme = lit "https" then .ok ()
        else if parsed.scheme = lit "http" ∧ Personal.loopbackHost M.interpreter parsed then .ok ()
        else .error (.config "endpoint_invalid")

/-- The checks of the arguments. -/
def validate (a : Arguments) : Except ManagerError Unit :=
  if !namePattern a.providerName || !namePattern a.model || !namePattern a.tenantId then
    .error (.config "identifier_invalid")
  else if !envPattern a.credentialEnv then .error (.config "credential_reference_invalid")
  else validateBaseUrl M a.endpoint

/-- `config.setdefault("providers", {})`. -/
def withProviders (config : Entries Str Json) : Entries Str Json :=
  if Entries.has config (lit "providers") then config
  else Entries.set config (lit "providers") (.obj [])

/-- The provider entry. -/
def providerEntry (a : Arguments) : Json :=
  .obj [(lit "adapter", .str (lit "openai-responses")), (lit "baseUrl", .str a.endpoint),
    (lit "apiKey", .str (lit "env:" ++ a.credentialEnv)), (lit "defaultModel", .str a.model),
    (lit "allowPrivateNetwork", .bool true),
    (lit "headers", .obj [(lit "X-Media-Bridge-Tenant", .str a.tenantId)])]

/-- The configuration that is written. -/
def managedConfig (config providers : Entries Str Json) (a : Arguments) : Entries Str Json :=
  Entries.set (Entries.set config (lit "defaultProvider") (.str a.providerName))
    (lit "providers") (.obj (Entries.set providers a.providerName (providerEntry a)))

/-- The name of the backup of a configuration with a digest. -/
def backupName (digest : Str) : Str :=
  M.markerName ++ lit "." ++ digest.take 16 ++ lit ".backup.json"

/-- The marker that is written. -/
def markerFields (original : Option Bytes) (managed : Bytes) (backup : Str) (a : Arguments) :
    Entries Str Json :=
  [(lit "schema", .int 1), (lit "provider", .str a.providerName),
    (lit "preimage_digest", (original.map fun data => .str (digestBytes M data)).getD .null),
    (lit "preimage_exists", .bool original.isSome),
    (lit "managed_digest", .str (digestBytes M managed)), (lit "backup_name", .str backup)]

/-- What a call reports. -/
structure Report where
  status : String
  provider : Str
  configDigest : Option Str := none
deriving DecidableEq

/-- The file operations of a call and its report. -/
structure Plan where
  ops : List FileOp
  report : Report
deriving DecidableEq

/-- `apply` where a marker exists. -/
def reapply (files : Files) (a : Arguments) : Except ManagerError Plan :=
  match readMarker M files.marker with
  | .error e => .error e
  | .ok marker =>
      match files.config with
      | none => .error (.config "already_owned")
      | some original =>
          if hasDigest M original (Json.field marker "managed_digest") then
            .ok ⟨[], "unchanged", a.providerName, some (digestBytes M original)⟩
          else .error (.config "already_owned")

/-- `apply` where no marker exists; the `ValueError` of an integer that cannot be written comes
before the first operation. -/
def firstApply (files : Files) (config providers : Entries Str Json) (a : Arguments) :
    Except ManagerError Plan :=
  match canonical M config, canonical M (managedConfig config providers a) with
  | some previous, some managed =>
      let backup := backupName M (digestBytes M previous)
      match canonical M (markerFields M files.config managed backup a) with
      | none => .error .raised
      | some marker =>
          let saved := (files.config.map (atomicWrite (.beside backup))).getD []
          .ok ⟨saved ++ atomicWrite .config managed ++ atomicWrite .marker marker,
            "applied", a.providerName, some (digestBytes M managed)⟩
  | _, _ => .error .raised

/-- `apply`. -/
def apply (files : Files) (a : Arguments) : Except ManagerError Plan :=
  match validate M a with
  | .error e => .error e
  | .ok () =>
      match readConfig M files.config with
      | .error e => .error e
      | .ok config =>
          match Json.field (withProviders config) "providers" with
          | .obj providers =>
              if Entries.has providers a.providerName ∧ files.marker = none then
                .error (.config "unowned_provider_present")
              else if files.marker = none then firstApply M files (withProviders config) providers a
              else reapply M files a
          | _ => .error (.config "config_invalid")

end Apply

section Remove

variable (M : Manager)

/-- What `remove` puts in the place of the configuration. -/
def restoration (files : Files) (marker : Entries Str Json) (backup : Str) :
    Except ManagerError (List FileOp) :=
  if Json.truthy (Json.field marker "preimage_exists") then
    match files.beside backup with
    | none => .error (.config "ownership_backup_missing")
    | some original =>
        if hasDigest M original (Json.field marker "preimage_digest") then
          .ok (atomicWrite .config original)
        else .error (.config "ownership_backup_invalid")
  else .ok [.unlink .config]

/-- `remove`. -/
def remove (files : Files) : Except ManagerError Plan :=
  match readMarker M files.marker with
  | .error e => .error e
  | .ok marker =>
      if !files.config.any fun data => hasDigest M data (Json.field marker "managed_digest") then
        .error (.config "owned_config_changed")
      else
        match withName (Personal.textField M.interpreter marker "backup_name" []) with
        | none => .error .raised
        | some backup =>
            match restoration M files marker backup with
            | .error e => .error e
            | .ok ops =>
                .ok ⟨ops ++ [.unlink .marker, .unlink (.beside backup)],
                  "removed", ((Json.field marker "provider").str?).getD [], none⟩

end Remove

/-- A call with its effect: what it returns or raises, and the files afterwards. -/
def perform (files : Files) (call : Except ManagerError Plan) :
    Except ManagerError Report × Files :=
  match call with
  | .error e => (.error e, files)
  | .ok plan => (.ok plan.report, files.after plan.ops)

end MediaBridge.Adapters.OpenCodex
