import MediaBridge.Foundation.Faults
import MediaBridge.Foundation.JsonVerbatim
import MediaBridge.Personal.Settings

/-!
# The personal state store

`media_bridge_personal/local_state.py`: a snapshot is published into `active.json`, after the one
that was there is kept in `previous.json`. Each file is replaced as a whole.

## Implementation notes

A file without a content is one that is not there or cannot be read. The name of the temporary file
is drawn at random and never read, so it is no part of the state; where there is no directory to
sync, that step works. The stack holds as many nested containers in the checks as in the decoder.
Which Windows paths are absolute differs between versions of `pathlib`, so it is a parameter. Values
that JSON cannot represent are refused by the checks before anything is written, and are not
modelled.
-/

namespace MediaBridge.Personal

open Foundation MediaBridge.Core JsonText

/-- Why a call of the store raises. -/
inductive StateError
  /-- The `LocalStateError`. -/
  | localState (message : String)
  /-- A `ValueError` with its text. -/
  | value (message : String)
  | recursion
deriving DecidableEq

/-- What the store runs on. -/
structure StateHost where
  interpreter : Interpreter
  faithful : interpreter.platform.float.Faithful
  /-- `PureWindowsPath(s).is_absolute()`. -/
  isAbsoluteWindows : Str → Bool

section Checks

variable (H : StateHost)

/-- `_FORBIDDEN_FIELD_NAMES`. -/
def forbiddenFieldNames : List Str :=
  ["api_key", "credential", "media_body", "password", "secret", "token"].map lit

/-- `PurePosixPath(s).is_absolute()`. -/
def isAbsolutePosix (s : Str) : Bool := s.startsWith (lit "/")

/-- The name of the field allows the value, if that is a string. -/
def safeName (name : Option Str) (v : Json) : Bool :=
  match name with
  | none => true
  | some name =>
      let lowered := H.interpreter.unicode.lower name
      decide (lowered ∉ forbiddenFieldNames) &&
        (match v with
          | .str s => !(decide (lit "_path" <:+ lowered) &&
              (isAbsolutePosix s || H.isAbsoluteWindows s))
          | _ => true)

mutual

/-- `_validate_safe_values` does not raise. -/
def safeValue (name : Option Str) : Json → Bool
  | .obj fields => safeName H name (.obj fields) && safeFields fields
  | .arr items => safeName H name (.arr items) && safeItems items
  | .null => safeName H name .null
  | .bool b => safeName H name (.bool b)
  | .int n => safeName H name (.int n)
  | .float bits => safeName H name (.float bits)
  | .str s => safeName H name (.str s)

/-- The items of a list are safe. -/
def safeItems : List Json → Bool
  | [] => true
  | v :: rest => safeValue none v && safeItems rest

/-- The values of a dictionary are safe under their keys. -/
def safeFields : List (Str × Json) → Bool
  | [] => true
  | (key, v) :: rest => safeValue (some key) v && safeFields rest

end

/-- `_validate`. -/
def validateSnapshot (v : Json) : Except StateError (Entries Str Json) :=
  match v with
  | .obj fields =>
      match Json.field fields "version" with
      | .int n =>
          if n < 1 then .error (.value "snapshot version is invalid")
          else if H.interpreter.platform.jsonDepth < (Json.obj fields).depth then
            .error .recursion
          else if safeValue H none (.obj fields) then .ok fields
          else .error (.localState "snapshot_sensitive_value")
      | _ => .error (.value "snapshot version is invalid")
  | _ => .error (.value "snapshot must be an object")

/-- The style of a snapshot file. -/
def snapshotStyle : Style := ⟨false, true, false⟩

/-- `_serialize`. -/
def serialize (snapshot : Json) : Except StateError Bytes :=
  match validateSnapshot H snapshot with
  | .error e => .error e
  | .ok fields =>
      match JsonText.dumps H.interpreter.platform.float snapshotStyle (.obj fields) >>= fun text =>
          Utf8.encode (text ++ [cp 10]) with
      | some data => .ok data
      | none => .error (.localState "snapshot_not_serializable")

/-- `_read_valid(path, missing_ok=True)`. -/
def readValid (content : Option Bytes) : Except StateError (Option (Entries Str Json)) :=
  match content >>= Utf8.decode with
  | none => .ok none
  | some text =>
      match JsonText.loads H.interpreter.platform.float H.interpreter.platform.jsonDepth
          (Str.universalNewlines text) with
      | .error .recursion => .error .recursion
      | .error _ => .ok none
      | .ok v =>
          match validateSnapshot H v with
          | .ok fields => .ok (some fields)
          | .error .recursion => .error .recursion
          | .error _ => .ok none

end Checks

/-- The two files of the store. -/
inductive StateName
  | active
  | previous
deriving DecidableEq

/-- The contents of the two files. -/
structure LocalFiles where
  active : Option Bytes
  previous : Option Bytes
deriving DecidableEq

/-- A file with a new content. -/
def LocalFiles.put (s : LocalFiles) (name : StateName) (data : Bytes) : LocalFiles :=
  match name with
  | .active => { s with active := some data }
  | .previous => { s with previous := some data }

/-- A system call of `publish`. -/
inductive StateStep
  | readActive
  | writeTemporary (name : StateName)
  | replace (name : StateName)
  | syncDirectory (name : StateName)
deriving DecidableEq

section Calls

variable (H : StateHost)

/-- A system call of `_write_atomic`. -/
def storeStep (label : StateStep) (change : LocalFiles → LocalFiles) :
    Faulty StateStep LocalFiles StateError Unit :=
  Faulty.perform label (.localState "snapshot_write_failed") (.atomic change)

/-- `_write_atomic`. -/
def writeAtomic (name : StateName) (data : Bytes) : Faulty StateStep LocalFiles StateError Unit := do
  storeStep (.writeTemporary name) id
  storeStep (.replace name) (·.put name data)
  storeStep (.syncDirectory name) id

/-- `_read_valid` of the active file; an `OSError` counts as no snapshot. -/
def readActive : Faulty StateStep LocalFiles StateError (Option (Entries Str Json)) :=
  fun fates s =>
    match fates .readActive with
    | .works =>
        match readValid H s.active with
        | .ok found => (.returned found, s)
        | .error e => (.raised e, s)
    | .fails _ => (.returned none, s)
    | .dies _ => (.died, s)

/-- The snapshot that was found in the active file is kept. -/
def keepPrevious (found : Option (Entries Str Json)) :
    Faulty StateStep LocalFiles StateError Unit :=
  match found with
  | none => pure ()
  | some fields =>
      match serialize H (.obj fields) with
      | .error e => Faulty.raise e
      | .ok data => writeAtomic .previous data

/-- `publish`. -/
def publish (snapshot : Json) : Faulty StateStep LocalFiles StateError Unit :=
  match serialize H snapshot with
  | .error e => Faulty.raise e
  | .ok data => do
      let found ← readActive H
      keepPrevious H found
      writeAtomic .active data

/-- `load_last_known_good`. -/
def loadLastKnownGood (s : LocalFiles) : Except StateError (Entries Str Json) :=
  match readValid H s.active with
  | .error e => .error e
  | .ok (some fields) => .ok fields
  | .ok none =>
      match readValid H s.previous with
      | .error e => .error e
      | .ok (some fields) => .ok fields
      | .ok none => .error (.localState "no_valid_snapshot")

end Calls

end MediaBridge.Personal
