import MediaBridge.Core.Capabilities
import MediaBridge.Core.MediaReference
import MediaBridge.Foundation.Base64
import MediaBridge.Foundation.UrlSplit
import Mathlib.Data.Rat.Defs

/-!
# Normalization of Responses requests

`media_bridge/openai_responses.py`: an arbitrary JSON payload becomes a
validated request for the gate, or is refused.

## Implementation notes

A Python exception is a value of `Raised`. Only `normalization` is caught by
the caller; the other constructors are the exceptions that some value of the
payload can cause on the way. A `ValidationError` inside the final `try` block
of the source is turned into a refusal there, and so it is here.
-/

namespace MediaBridge.Core

open Foundation

/-- An exception that leaves the normalizer. -/
inductive Raised
  | normalization (code message : String)
  | typeError
  | valueError
  | validationError
  | recursionError
deriving DecidableEq

/-- State kept for a follow-up to an earlier response. -/
structure ResponsesStateRecord where
  responseId : Str
  tenantId : Str
  sanitizedText : Str
  mediaTainted : Bool
  mediaModalities : Finset MediaType
  expiresAt : ℚ

structure NormalizedResponsesRequest where
  request : PrepareForModelRequest
  currentUserText : Str
  inputHadMedia : Bool
  previousState : Option ResponsesStateRecord

namespace OpenaiResponses

def imageMimes : List String := ["image/png", "image/jpeg", "image/webp"]

def pdfMime : String := "application/pdf"

def maxMediaBytes : Nat := 2 * 1024 * 1024

/-- `_raise(code, message)`. -/
def refuse {α : Type} (code message : String) : Except Raised α :=
  .error (.normalization code message)

/-- A constructor of a validated model; its `ValidationError` is not caught. -/
def validated {α : Type} : Option α → Except Raised α
  | some a => .ok a
  | none => .error .validationError

/-- `s.removeprefix(pre)`. -/
def dropPrefix (s pre : Str) : Str := if pre <+: s then s.drop pre.length else s

/-- `s.removesuffix(suf)`. -/
def dropSuffix (s suf : Str) : Str := if suf <:+ s then s.take (s.length - suf.length) else s

/-- The header of a data URL and the text after the first comma. -/
def splitDataUri (value : Str) : Str × Str :=
  let parted := Str.partitionAt (cp 44) value
  (parted.1, parted.2.getD [])

/-- The MIME type a data URL header names. -/
def headerMime (header : Str) : Str :=
  dropSuffix (dropPrefix header (lit "data:")) (lit ";base64")

/-- The header is `data:<mime>;base64` for an allowed MIME type, and there is
something after it. -/
def dataUriShape (value : Str) (allowedMimes : List String) : Bool :=
  Str.startsWith value (lit "data:") && Str.contains value (lit ";base64,") &&
    decide ((splitDataUri value).1 =
      lit "data:" ++ headerMime (splitDataUri value).1 ++ lit ";base64") &&
    (allowedMimes.any fun m => decide (lit m = headerMime (splitDataUri value).1)) &&
    !(splitDataUri value).2.isEmpty

/-- `_decode_data_uri`: the MIME type and the still encoded data. -/
def decodeDataUri (value : Str) (allowedMimes : List String) : Except Raised (Str × Str) :=
  if !dataUriShape value allowedMimes then
    refuse "unsupported_media_locator" "Media locator is not supported."
  else
    match Base64.decode (splitDataUri value).2 with
    | none => refuse "invalid_request" "Media data is not valid base64."
    | some decoded =>
        if decoded.isEmpty || maxMediaBytes < decoded.length then
          refuse "invalid_request" "Media data is empty or oversized."
        else .ok (headerMime (splitDataUri value).1, (splitDataUri value).2)

/-- `_asset_source`. -/
def assetSource (value : Str) : Except Raised MediaSource :=
  match Constrained.validate 67 assetIdPattern value with
  | some id => .ok (.assetId id)
  | none => refuse "unsupported_media_locator" "Asset identifier is not supported."

/-- `v is None or v in {...}` over string constants: a list or a dictionary has
no hash, and the membership test raises. -/
def noneOrIn (v : Json) (values : List String) : Except Raised Bool :=
  if v.isNull then .ok true
  else if v.hashable then .ok (values.any fun s => v.isLit s)
  else .error .typeError

/-- The branch of `_image_part` for a data URL. -/
def inlineImagePart (locator : Str) : Except Raised MediaPart := do
  let (mime, encoded) ← decodeDataUri locator imageMimes
  let data ← validated (Constrained.validate 2796204 anyText encoded)
  let declared ← validated (Constrained.validate 100 anyText mime)
  return ⟨.image, .base64 data, none, some declared⟩

/-- The URL is absolute HTTPS without credentials and without a fragment. -/
def urlAccepted (parsed : SplitResult) : Bool :=
  decide (parsed.scheme = lit "https") && !parsed.hostText.isEmpty &&
    !parsed.hasUserinfo && parsed.fragment.isEmpty

variable (U : UnicodeData)

/-- The last branch of `_image_part`: a locator that is not a data URL. -/
def urlPart (locator : Str) : Except Raised MediaPart :=
  match UrlSplit.urlsplit U locator with
  | none => .error .valueError
  | some parsed =>
      if !urlAccepted parsed then
        refuse "unsupported_media_locator" "Image locator is not supported."
      else do
        let url ← validated (Constrained.validate 2048 httpsPattern locator)
        return ⟨.image, .url url, none, none⟩

/-- A provider's own media identifier is present. -/
def namesProviderMedia (item : Entries Str Json) : Bool :=
  !(Json.field item "file_id").isNull || !(Json.field item "file_url").isNull

def imageKeys : List String :=
  ["type", "image_url", "asset_id", "detail", "file_id", "file_url"]

/-- The part of `_image_part` after the check of `detail`. -/
def imageLocatorPart (item : Entries Str Json) : Except Raised MediaPart :=
  if !(Json.field item "asset_id").isNull then
    match Json.field item "image_url", (Json.field item "asset_id").str? with
    | .null, some assetId => do
        let source ← assetSource assetId
        return ⟨.image, source, none, none⟩
    | _, _ => refuse "unsupported_media_locator" "Image locator is not supported."
  else
    match (Json.field item "image_url").str? with
    | none => refuse "unsupported_media_locator" "Image locator is not supported."
    | some locator =>
        if Str.startsWith locator (lit "data:") then inlineImagePart locator
        else urlPart U locator

/-- `_image_part`. -/
def imagePart (item : Entries Str Json) : Except Raised MediaPart :=
  if namesProviderMedia item then
    refuse "unsupported_media_locator" "Provider media identifiers are not supported."
  else if !Json.keysWithin item imageKeys then
    refuse "invalid_request" "Image input contains unsupported fields."
  else do
    let detailAccepted ← noneOrIn (Json.field item "detail") ["auto", "low", "high"]
    if !detailAccepted then refuse "invalid_request" "Image detail value is invalid."
    else imageLocatorPart U item

def fileKeys : List String :=
  ["type", "file_data", "asset_id", "filename", "file_id", "file_url"]

/-- `filename is not None and not isinstance(filename, str)` is refused; what
remains still has to pass the validation of the field. -/
def fileName (item : Entries Str Json) : Except Raised (Option Str) :=
  match Json.field item "filename" with
  | .null => .ok none
  | .str s => .ok (some s)
  | _ => refuse "invalid_request" "File name is invalid."

/-- The `filename` field of a media part. -/
def validatedName : Option Str → Except Raised (Option Filename)
  | none => .ok none
  | some s => some <$> validated (Constrained.validate 255 anyText s)

/-- The branch of `_pdf_part` for an asset. The name is read before the asset
identifier is checked, and validated after it. -/
def assetPdfPart (item : Entries Str Json) (assetId : Str) : Except Raised MediaPart := do
  let name ← fileName item
  let source ← assetSource assetId
  let name ← validatedName name
  let declared ← validated (Constrained.validate 100 anyText (lit pdfMime))
  return ⟨.pdf, source, name, some declared⟩

/-- The branch of `_pdf_part` for inline data. -/
def inlinePdfPart (item : Entries Str Json) (locator : Str) : Except Raised MediaPart := do
  let (mime, encoded) ← decodeDataUri locator [pdfMime]
  let name ← fileName item
  let data ← validated (Constrained.validate 2796204 anyText encoded)
  let name ← validatedName name
  let declared ← validated (Constrained.validate 100 anyText mime)
  return ⟨.pdf, .base64 data, name, some declared⟩

/-- `_pdf_part`. -/
def pdfPart (item : Entries Str Json) : Except Raised MediaPart :=
  if namesProviderMedia item then
    refuse "unsupported_media_locator" "Provider file identifiers are not supported."
  else if !Json.keysWithin item fileKeys then
    refuse "invalid_request" "File input contains unsupported fields."
  else if !(Json.field item "asset_id").isNull then
    match Json.field item "file_data", (Json.field item "asset_id").str? with
    | .null, some assetId => assetPdfPart item assetId
    | _, _ => refuse "unsupported_media_locator" "File locator is not supported."
  else
    match (Json.field item "file_data").str? with
    | none => refuse "unsupported_media_locator" "File locator is not supported."
    | some locator => inlinePdfPart item locator

/-- `TextPart(text=s)` outside a `try` block. -/
def newTextPart (s : Str) : Except Raised ContentPart := validated (textPart s)

/-- The keys are exactly `type` and `text`. -/
def textKeysExact (part : Entries Str Json) : Bool :=
  Json.keysWithin part ["type", "text"] && Entries.has part (lit "type") &&
    Entries.has part (lit "text")

/-- One item of the content list of the current message. -/
def currentPart : Json → Except Raised ContentPart
  | .obj part =>
      if (Json.field part "type").isLit "input_text" then
        match textKeysExact part, (Json.field part "text").str? with
        | true, some text => newTextPart text
        | _, _ => refuse "invalid_request" "Text input is malformed."
      else if (Json.field part "type").isLit "input_image" then
        ContentPart.media <$> imagePart U part
      else if (Json.field part "type").isLit "input_file" then
        ContentPart.media <$> pdfPart part
      else refuse "invalid_request" "Current user content type is not supported."
  | _ => refuse "invalid_request" "Current user content is malformed."

/-- The loop over the content list. -/
def currentParts : List Json → Except Raised (List ContentPart)
  | [] => .ok []
  | raw :: rest => do
      let part ← currentPart U raw
      let parts ← currentParts rest
      return part :: parts

/-- `_current_content`: the parts and the text of the user. -/
def currentContent (value : Json) : Except Raised (List ContentPart × Str) :=
  match value with
  | .str s =>
      if s.isEmpty then refuse "current_user_required" "Current user input is required."
      else do
        let part ← newTextPart s
        return ([part], s)
  | .arr (raw :: rest) => do
      let parts ← currentParts U (raw :: rest)
      return (parts, (Str.join (lit "\n") (parts.filterMap ContentPart.text?)).strip)
  | _ => refuse "current_user_required" "Current user input is required."

/-- `item.get("role") == "user"` for a dictionary. -/
def isUserItem : Json → Bool
  | .obj fields => (Json.field fields "role").isLit "user"
  | _ => false

/-- The items before the last user item, that item, and the items after it. -/
def splitAtLastUser : List Json → Option (List Json × Json × List Json)
  | [] => none
  | v :: rest =>
      match splitAtLastUser rest with
      | some (before, current, after) => some (v :: before, current, after)
      | none => if isUserItem v then some ([], v, rest) else none

/-- `any(_contains_media_reference(...))`, refused when something is found. -/
def refuseReference (scan : Scan) (code message : String) : Except Raised Unit :=
  match scan with
  | .clean => .ok ()
  | .found => refuse code message
  | .tooDeep => .error .recursionError

def messageKeys : List String := ["id", "type", "status", "role", "content"]

/-- The checks of the current user message after the one of its `type`. -/
def currentMessageContent (current : Entries Str Json) : Except Raised Json :=
  if !(Json.field current "id").isNull && (Json.field current "id").str?.isNone then
    refuse "invalid_request" "Current user message is malformed."
  else do
    let statusAccepted ← noneOrIn (Json.field current "status") ["in_progress", "completed"]
    if !statusAccepted then refuse "invalid_request" "Current user message is malformed."
    else
      match Entries.get? current (lit "content") with
      | none => refuse "current_user_required" "Current user input is required."
      | some content => .ok content

/-- The checks of the current user message, which give its content. -/
def currentMessage : Json → Except Raised Json
  | .obj current =>
      if !Json.keysWithin current messageKeys then
        refuse "invalid_request" "Current user message is malformed."
      else do
        let typeAccepted ← noneOrIn (Json.field current "type") ["message"]
        if !typeAccepted then refuse "invalid_request" "Current user message is malformed."
        else currentMessageContent current
  | _ => refuse "invalid_request" "Current user input is malformed."

/-- `_select_current_input`: what the user says now. -/
def selectCurrentInput (budget : Nat) (value : Json) : Except Raised Json :=
  match value with
  | .str s => .ok (.str s)
  | .arr items =>
      match splitAtLastUser items with
      | none => refuse "current_user_required" "Current user input is required."
      | some (before, current, after) => do
          refuseReference (MediaReference.scanItems U budget (before ++ after))
            "unsafe_history_media" "Media in Responses history is not permitted."
          currentMessage current
  | _ => refuse "current_user_required" "Current user input is required."

/-- The request names the response whose state was found, or neither is there. -/
def stateAgrees (previousId : Json) (state : Option ResponsesStateRecord) :
    Except Raised Unit :=
  match previousId, state with
  | .null, none => .ok ()
  | .null, some _ => refuse "state_unavailable" "Responses state is unavailable."
  | .str s, some record =>
      if record.responseId = s then .ok ()
      else refuse "state_unavailable" "Responses state is unavailable."
  | .str _, none => refuse "state_unavailable" "Responses state is unavailable."
  | _, _ => refuse "invalid_request" "Previous response identifier is invalid."

/-- The entries of the payload other than the current input. -/
def otherEntries (payload : Entries Str Json) : Entries Str Json :=
  payload.filter fun e => decide (e.1 ≠ lit "input")

/-- The text kept from the previous turn, as a first part. -/
def stateParts (state : Option ResponsesStateRecord) : Option (List ContentPart) :=
  match state with
  | none => some []
  | some record =>
      if record.sanitizedText.isEmpty then some []
      else (textPart record.sanitizedText).map fun p => [p]

/-- The profile of the conversion depends on whether a PDF is there. -/
def profileFor (parts : List ContentPart) : ConversionProfile :=
  if (mediaParts parts).any fun part => decide (part.mediaType = .pdf) then .document
  else .errorScreenshot

/-- The final `try` block: every `ValidationError` in it is a refusal. -/
def buildRequest (model : Json) (state : Option ResponsesStateRecord)
    (parts : List ContentPart) : Except Raised PrepareForModelRequest :=
  match model.str? with
  | none => refuse "invalid_request" "Target model identifier is invalid."
  | some modelId =>
      let request : Option PrepareForModelRequest := do
        let registryId ← Constrained.validate 128 registryIdPattern modelId
        let kept ← stateParts state
        PrepareForModelRequest.validate (kept ++ parts) ⟨registryId⟩ (profileFor parts)
      match request with
      | some request => .ok request
      | none => refuse "invalid_request" "Responses request fields are invalid."

/-- `normalize_responses_request`. -/
def normalizeResponsesRequest (budget : Nat) (payload : Json)
    (state : Option ResponsesStateRecord) : Except Raised NormalizedResponsesRequest :=
  match payload with
  | .obj fields =>
      if !(Json.field fields "conversation").isNull then
        refuse "conversation_unsupported" "Server-side conversation state is not supported."
      else do
        stateAgrees (Json.field fields "previous_response_id") state
        refuseReference (MediaReference.scanValues U budget (otherEntries fields))
          "unsafe_media_reference" "Media outside current input is not permitted."
        match Entries.get? fields (lit "input") with
        | none => refuse "current_user_required" "Current user input is required."
        | some input => do
            let selected ← selectCurrentInput U budget input
            let (parts, text) ← currentContent U selected
            let request ← buildRequest (Json.field fields "model") state parts
            return ⟨request, text, !(mediaParts parts).isEmpty, state⟩
  | _ => refuse "invalid_request" "Responses request must be a JSON object."

end OpenaiResponses

end MediaBridge.Core
