import MediaBridge.Foundation.Collect
import MediaBridge.Foundation.Expiring
import MediaBridge.Foundation.JsonSpaced
import MediaBridge.Foundation.Runs
import MediaBridge.Personal.LocalStateRuns

/-!
# The personal event log

`media_bridge_personal/events.py`: events in lines of `events.jsonl`, of which the last ones are
kept. The writer leaves the line separators outside ASCII as they are, and the reader ends a line at
them.

## Implementation notes

The file is replaced as a whole or not at all; it can always be read. A value that is neither a
string, an integer nor a constant is refused like a list.
-/

namespace MediaBridge.Personal.EventLog

open Foundation MediaBridge.Core JsonText Expiring

/-- Why a call of the log raises. -/
inductive EventError
  /-- The `PersonalEventLogError`. -/
  | log (code : String)
  /-- The `UnicodeEncodeError` of a string that has no UTF-8. -/
  | encoding
  /-- The `ValueError` of an integer with too many digits. -/
  | digits
  | recursion
deriving DecidableEq

section Checks

variable (H : StateHost)

/-- `_MAX_EVENT_BYTES`. -/
def maxEventBytes : Nat := 1024

/-- The checks of one field of an event. -/
def checkField (e : Str × Json) : Except EventError Unit :=
  let lowered := H.interpreter.unicode.lower e.1
  if lowered ∈ forbiddenFieldNames then .error (.log "event_sensitive_value")
  else
    match e.2 with
    | .null => .ok ()
    | .bool _ => .ok ()
    | .int _ => .ok ()
    | .str s =>
        match Utf8.encode s with
        | none => .error .encoding
        | some data =>
            if 256 < data.length ∨ lit "_path" <:+ lowered ∧
                (isAbsolutePosix s || H.isAbsoluteWindows s) then
              .error (.log "event_sensitive_value")
            else .ok ()
    | _ => .error (.log "event_invalid")

/-- The style of a line. -/
def eventStyle : Style := ⟨false, true, false⟩

/-- The bytes of an event. -/
def eventData (fields : Entries Str Json) : Except EventError Bytes :=
  match dumpsSpaced H.interpreter.platform.float eventStyle fields with
  | none => .error .digits
  | some text =>
      match Utf8.encode text with
      | none => .error .encoding
      | some data => .ok data

/-- `_validate_event`. -/
def validateEvent : Json → Except EventError (Entries Str Json)
  | .obj fields => do
      fields.forM (checkField H)
      let data ← eventData H fields
      if maxEventBytes < data.length then .error (.log "event_invalid") else .ok fields
  | _ => .error (.log "event_invalid")

/-- The event of a line. -/
def readRow (row : Str) : Except EventError (Entries Str Json) :=
  match JsonText.loads H.interpreter.platform.float H.interpreter.platform.jsonDepth row with
  | .error .recursion => .error .recursion
  | .error _ => .error (.log "event_log_invalid")
  | .ok v =>
      match validateEvent H v with
      | .ok fields => .ok fields
      | .error (.log code) => .error (.log code)
      | .error .recursion => .error .recursion
      | .error _ => .error (.log "event_log_invalid")

/-- `read`. -/
def read (content : Option Bytes) : Except EventError (List (Entries Str Json)) :=
  match content with
  | none => .ok []
  | some data =>
      match Utf8.decode data with
      | none => .error (.log "event_log_unavailable")
      | some text => (Str.splitlines (Str.universalNewlines text)).mapM (readRow H)

/-- The content with a line for each event. -/
def logContent (entries : List (Entries Str Json)) : Except EventError Bytes :=
  (fun lines => (lines.map (· ++ [10])).flatten) <$> entries.mapM (eventData H)

/-- `append`, with whether the file can be written, and the file after it. -/
def append (maxEntries : Nat) (event : Json) (writable : Bool) (content : Option Bytes) :
    Except EventError Unit × Option Bytes :=
  let data := do
    let validated ← validateEvent H event
    let entries ← read H content
    logContent H (lastN maxEntries (entries ++ [validated]))
  match data with
  | .error e => (.error e, content)
  | .ok data =>
      if writable then (.ok (), some data) else (.error (.log "event_write_failed"), content)

end Checks

end MediaBridge.Personal.EventLog
