import MediaBridge.Core.Capabilities
import MediaBridge.Core.Receipts
import MediaBridge.Core.Sanitizer

/-!
# The pre-request gate

`media_bridge/gate.py`: from a request and the registered capability of its
target to one signed downstream payload, or to a refusal.

## Implementation notes

The acquirer, the workspace, the PDF renderer and the two recognition backends
are oracles. Every call of one run has its own index, so that a function of the
index covers backends that keep state. A raised exception is a value of
`GateRaised`; what no handler catches leaves the gate without an outcome.
-/

namespace MediaBridge.Core

open Foundation

/-- An exception in the gate. The last constructor is one that is not an
`Exception`, such as a cancellation. -/
inductive GateRaised
  | gateFailure (code message : Str)
  | cleanupError
  | exception
  | baseException
deriving DecidableEq

/-- `BackendStatus`. -/
inductive BackendStatus
  | success
  | noText
  | failure
deriving DecidableEq, Repr

structure OcrResult where
  status : BackendStatus
  text : Option Str := none

structure VisionResult where
  status : BackendStatus
  description : Option Str := none

structure AcquiredMedia where
  data : Bytes
  mediaType : Str
  mimeType : Str
  filename : Option Str
  forbiddenLocators : List Str

structure RenderedPdfPage where
  pageNumber : Int
  data : Bytes
  mimeType : Str
  filename : Str

/-- What the backends answer. The first argument is the index of the media item,
the second one of the page or of the write. -/
structure Backends where
  acquire : Nat → MediaPart → Str → Except GateRaised AcquiredMedia
  openWorkspace : Nat → Except GateRaised Unit
  writeBytes : Nat → Nat → Str → Bytes → Except GateRaised Unit
  cleanup : Nat → Except GateRaised Unit
  render : Nat → Bytes → Except GateRaised (List RenderedPdfPage)
  ocr : Nat → Nat → Bytes → Str → Option Str → Except GateRaised OcrResult
  vision : Nat → Nat → Bytes → Str → Str → Except GateRaised VisionResult

structure DownstreamPayload where
  targetId : Str
  capability : Str
  action : Str
  content : List ContentPart
  inputDigest : Str
  outputDigest : Str
  receipt : Str

def DownstreamPayload.binding (payload : DownstreamPayload) : ReceiptBinding where
  targetId := payload.targetId
  capability := payload.capability
  inputDigest := payload.inputDigest
  outputDigest := payload.outputDigest
  action := payload.action

structure GateOutcome where
  result : PrepareForModelResult
  prepared : Option DownstreamPayload

structure ConvertedContext where
  ocrText : Str
  visualDescription : Str
  structuredContext : Str
  mediaModalities : List Str

/-- A gate with its dependencies and the interpreter it runs on. -/
structure PreRequestGate where
  unicode : UnicodeData
  platform : Platform
  setOrder : SetOrder
  registry : CapabilityRegistry
  backends : Backends
  signer : GateReceiptSigner

namespace Gate

/-- `raise GateFailureError(code, message)`. -/
def fail {α : Type} (code message : String) : Except GateRaised α :=
  .error (.gateFailure (lit code) (lit message))

/-- `try: ... except Exception: raise GateFailureError(code, message)`. -/
def guarded {α : Type} (code message : String) : Except GateRaised α → Except GateRaised α
  | .ok a => .ok a
  | .error .baseException => .error .baseException
  | .error _ => fail code message

/-- A value that a constructor outside any handler could not build. -/
def required {α : Type} : Option α → Except GateRaised α
  | some a => .ok a
  | none => .error .exception

section Dumps

/-- `model_dump(mode="json")` of a source. -/
def dumpSource : MediaSource → Json
  | .base64 data => .obj [(lit "kind", .str (lit "base64")), (lit "data", .str data.value)]
  | .assetId id => .obj [(lit "kind", .str (lit "asset_id")), (lit "asset_id", .str id.value)]
  | .url url => .obj [(lit "kind", .str (lit "url")), (lit "url", .str url.value)]
  | .localPath path =>
      .obj [(lit "kind", .str (lit "local_path")), (lit "path", .str path.value)]

/-- A string or `null`. -/
def dumpText : Option Str → Json
  | some s => .str s
  | none => .null

/-- `model_dump(mode="json")` of a content part. -/
def dumpPart : ContentPart → Json
  | .text part => .obj [(lit "type", .str (lit "text")), (lit "text", .str part.text.value)]
  | .media part =>
      .obj [(lit "type", .str (lit "media")), (lit "media_type", .str part.mediaType.value),
        (lit "source", dumpSource part.source),
        (lit "filename", dumpText (part.filename.map (·.value))),
        (lit "declared_mime", dumpText (part.declaredMime.map (·.value)))]

/-- `model_dump(mode="json")` of a request. -/
def dumpRequest (request : PrepareForModelRequest) : Json :=
  .obj [(lit "content", .arr (request.content.map dumpPart)),
    (lit "target", .obj [(lit "registry_id", .str request.target.registryId.value)]),
    (lit "conversion_profile", .str request.conversionProfile.value)]

/-- `_canonical_digest`; `none` is a `ValueError`. -/
def canonicalDigest (P : Platform) (value : Json) : Option Str := do
  let text ← JsonText.dumps P.float ⟨false, true, true⟩ value
  let data ← Utf8.encode text
  return P.sha256Hex data

/-- `digest_content`. -/
def digestContent (P : Platform) (content : List ContentPart) : Option Str :=
  canonicalDigest P (.arr (content.map dumpPart))

end Dumps

/-- `_join_text`. -/
def joinText (content : List ContentPart) : Str :=
  Str.strip (Str.join (lit "\n") (content.filterMap ContentPart.text?))

def pngMagic : Bytes := [0x89, 0x50, 0x4E, 0x47, 0x0D, 0x0A, 0x1A, 0x0A]

def jpegMagic : Bytes := [0xFF, 0xD8, 0xFF]

/-- The page that stands for an image. -/
def imagePage (data : Bytes) : RenderedPdfPage where
  pageNumber := 1
  data := data
  mimeType :=
    if pngMagic <+: data then lit "image/png"
    else if jpegMagic <+: data then lit "image/jpeg"
    else lit "image/webp"
  filename := lit "image"

/-- The texts one media item contributes. -/
structure MediaSections where
  ocr : List Str
  descriptions : List Str
  converted : List Str

namespace MediaSections

def empty : MediaSections := ⟨[], [], []⟩

def append (a b : MediaSections) : MediaSections :=
  ⟨a.ocr ++ b.ocr, a.descriptions ++ b.descriptions, a.converted ++ b.converted⟩

end MediaSections

variable (B : Backends)

/-- `_backend_pages`. -/
def backendPages (mediaIndex : Nat) (data : Bytes) (mediaType : Str) :
    Except GateRaised (List RenderedPdfPage) :=
  if mediaType ≠ lit "pdf" then .ok [imagePage data]
  else do
    let rendered ← guarded "pdf_render_failed" "PDF pages could not be rendered safely."
      (B.render mediaIndex data)
    if rendered.isEmpty then
      fail "pdf_render_failed" "PDF pages could not be rendered safely."
    else return rendered

/-- `page_label`. -/
def pageLabel (mediaIndex : Nat) (isPdf : Bool) (page : RenderedPdfPage) : Str :=
  if isPdf then
    lit "Media " ++ JsonText.natText mediaIndex ++ lit " page " ++ JsonText.intText page.pageNumber
  else lit "Media " ++ JsonText.natText mediaIndex

/-- The recognised text of a page. -/
def pageText (mediaIndex pageIndex : Nat) (isPdf : Bool) (page : RenderedPdfPage) :
    Except GateRaised Str := do
  let result ← B.ocr mediaIndex pageIndex page.data page.mimeType
    (if isPdf then some page.filename else none)
  if result.status = .failure then fail "ocr_failed" "OCR conversion failed."
  else if result.status = .noText then
    fail "recognition_insufficient" "Screenshot recognition was insufficient."
  else
    match result.text with
    | some (c :: text) => return c :: text
    | _ => return lit "No text detected."

/-- The description of a page, empty unless the profile asks for one. -/
def pageDescription (mediaIndex pageIndex : Nat) (profile : ConversionProfile)
    (page : RenderedPdfPage) : Except GateRaised Str :=
  if profile = .generic then do
    let result ← B.vision mediaIndex pageIndex page.data page.mimeType profile.value
    if result.status = .failure then fail "vision_failed" "Visual analysis failed safely."
    else return (result.description.getD []).strip
  else return []

/-- One turn of the loop over the pages. -/
def pageSections (mediaIndex pageIndex : Nat) (isPdf : Bool) (profile : ConversionProfile)
    (page : RenderedPdfPage) : Except GateRaised MediaSections := do
  if isPdf then
    B.writeBytes mediaIndex (pageIndex + 1)
      (lit "media-" ++ JsonText.natText mediaIndex ++ lit "-" ++ page.filename) page.data
  let text ← pageText B mediaIndex pageIndex isPdf page
  let label := pageLabel mediaIndex isPdf page
  let converted := lit "[" ++ label ++ lit " OCR]\n" ++ text
  let description ← pageDescription B mediaIndex pageIndex profile page
  if description.isEmpty then return ⟨[text], [], [converted]⟩
  else return ⟨[text], [description],
    [converted, lit "[" ++ label ++ lit " Vision]\n" ++ description]⟩

/-- The loop over the pages. -/
def pagesSections (mediaIndex : Nat) (isPdf : Bool) (profile : ConversionProfile) :
    Nat → List RenderedPdfPage → Except GateRaised MediaSections
  | _, [] => return .empty
  | pageIndex, page :: rest => do
      let first ← pageSections B mediaIndex pageIndex isPdf profile page
      let others ← pagesSections mediaIndex isPdf profile (pageIndex + 1) rest
      return first.append others

/-- The `try` block that works in the workspace. -/
def processMedia (mediaIndex : Nat) (profile : ConversionProfile) (acquired : AcquiredMedia) :
    Except GateRaised MediaSections := do
  let isPdf := decide (acquired.mediaType = lit "pdf")
  B.writeBytes mediaIndex 0
    (lit "media-" ++ JsonText.natText mediaIndex ++ (if isPdf then lit ".pdf" else lit ".img"))
    acquired.data
  let pages ← backendPages B mediaIndex acquired.data acquired.mediaType
  pagesSections B mediaIndex isPdf profile 0 pages

/-- The handlers of that block: a gate failure is kept, any other exception becomes one. -/
def processingResult : Except GateRaised MediaSections → Except GateRaised MediaSections
  | .error .cleanupError => fail "conversion_failed" "Media conversion failed safely."
  | .error .exception => fail "conversion_failed" "Media conversion failed safely."
  | result => result

/-- What follows the block. A cancellation skips the cleanup. -/
def cleanedUp (mediaIndex : Nat) (processed : Except GateRaised MediaSections) :
    Except GateRaised MediaSections :=
  match processingResult processed with
  | .error .baseException => .error .baseException
  | result =>
      match B.cleanup mediaIndex with
      | .error .cleanupError =>
          fail "cleanup_failed" "Temporary media cleanup could not be verified."
      | .error e => .error e
      | .ok () => result

/-- One acquired item. -/
def acquireMedia (mediaIndex : Nat) (part : MediaPart) (tenantId : Str) :
    Except GateRaised AcquiredMedia :=
  guarded "media_acquisition_failed" "Media could not be acquired safely."
    (B.acquire mediaIndex part tenantId)

/-- The locators and the file name of an acquired item, as they are forbidden. -/
def AcquiredMedia.forbidden (acquired : AcquiredMedia) : List Str :=
  acquired.forbiddenLocators ++
    match acquired.filename with
    | some (c :: name) => [c :: name]
    | _ => []

/-- What the loop over the media parts has gathered. -/
structure Gathered where
  sections : MediaSections
  modalities : List Str
  locators : List Str

/-- The loop over the media parts. -/
def gather (tenantId : Str) (profile : ConversionProfile) :
    Nat → List MediaPart → Except GateRaised Gathered
  | _, [] => return ⟨.empty, [], []⟩
  | mediaIndex, part :: rest => do
      let acquired ← acquireMedia B mediaIndex part tenantId
      guarded "workspace_failed" "Temporary media workspace could not be created."
        (B.openWorkspace mediaIndex)
      let sections ← cleanedUp B mediaIndex (processMedia B mediaIndex profile acquired)
      let others ← gather tenantId profile (mediaIndex + 1) rest
      return ⟨sections.append others.sections, acquired.mediaType :: others.modalities,
        AcquiredMedia.forbidden acquired ++ others.locators⟩

end Gate

namespace PreRequestGate

open Gate

variable (gate : PreRequestGate)

/-- The sanitizer on joined sections. -/
def sanitized (sep : String) (sections locators : List Str) : Except GateRaised Str :=
  match sanitizeModelText gate.unicode gate.setOrder (Str.join (lit sep) sections) locators
      200000 with
  | .ok text => .ok text
  | .error _ => fail "sanitization_failed" "Converted text could not be sanitized."

/-- The sanitized descriptions, when there are any. -/
def describedText (gathered : Gathered) : Except GateRaised Str :=
  if gathered.sections.descriptions.isEmpty then .ok []
  else gate.sanitized "\n" gathered.sections.descriptions gathered.locators

/-- `extract_context`. -/
def extractContext (content : List ContentPart) (profile : ConversionProfile)
    (tenantId : Str) : Except GateRaised ConvertedContext :=
  if (detectMedia content).mediaCount = 0 then
    fail "media_required" "At least one media item is required."
  else do
    let text := joinText content
    let gathered ← gather gate.backends tenantId profile 1 (mediaParts content)
    let converted := (if text.isEmpty then [] else [text]) ++ gathered.sections.converted
    let ocrText ← gate.sanitized "\n" gathered.sections.ocr gathered.locators
    let visualDescription ← gate.describedText gathered
    let structuredContext ← gate.sanitized "\n\n" converted gathered.locators
    return ⟨ocrText, visualDescription, structuredContext, gathered.modalities⟩

/-- The part that carries acquired bytes inline. -/
def inlinePart (part : MediaPart) (acquired : AcquiredMedia) : Except GateRaised MediaPart := do
  let data ← required (Constrained.validate 2796204 anyText (Base64.encode acquired.data))
  let mime ← required (Constrained.validate 100 anyText acquired.mimeType)
  return { mediaType := part.mediaType, source := .base64 data, declaredMime := some mime }

/-- `_normalize_vision_content`, with the index of the next media item. -/
def normalizeVisionContent (tenantId : Str) :
    Nat → List ContentPart → Except GateRaised (List ContentPart)
  | _, [] => return []
  | mediaIndex, .text part :: rest => do
      let others ← normalizeVisionContent tenantId mediaIndex rest
      return .text part :: others
  | mediaIndex, .media part :: rest => do
      let acquired ← acquireMedia gate.backends mediaIndex part tenantId
      let inlined ← inlinePart part acquired
      let others ← normalizeVisionContent tenantId (mediaIndex + 1) rest
      return .media inlined :: others

/-- `_ready`. -/
def ready (signedAt : ℚ) (request : PrepareForModelRequest) (content : List ContentPart)
    (capability : CapabilityState) (action : GateAction) (sanitizedText : Str)
    (originalImageRemoved : Bool) : Except GateRaised GateOutcome := do
  let inputDigest ← required (canonicalDigest gate.platform (dumpRequest request))
  let outputDigest ← required (digestContent gate.platform content)
  let targetId := request.target.registryId.value
  let binding : ReceiptBinding :=
    ⟨targetId, capability.value, inputDigest, outputDigest, action.value⟩
  let receipt ← required (Receipts.sign gate.platform gate.signer signedAt binding 30)
  let text ← required (Constrained.validate 200000 anyText sanitizedText)
  let detection := detectMedia request.content
  return {
    result := {
      action := action
      targetModel := targetId
      containsMedia := decide (0 < detection.mediaCount)
      containsImage := detection.containsImage
      containsPdf := detection.containsPdf
      targetSupportsVision := some (decide (capability = .vision))
      sanitizedText := some text
      originalImageRemoved := originalImageRemoved
      error := none }
    prepared := some {
      targetId := targetId
      capability := capability.value
      action := action.value
      content := content
      inputDigest := inputDigest
      outputDigest := outputDigest
      receipt := receipt } }

/-- `_blocked`. -/
def blocked (request : PrepareForModelRequest) (code message : Str) :
    Except GateRaised GateOutcome := do
  let error ← required (SafeError.validate code message)
  let detection := detectMedia request.content
  return {
    result := {
      action := .blocked
      targetModel := request.target.registryId.value
      containsMedia := decide (0 < detection.mediaCount)
      containsImage := detection.containsImage
      containsPdf := detection.containsPdf
      targetSupportsVision := none
      sanitizedText := none
      originalImageRemoved := false
      error := some error }
    prepared := none }

/-- The request is sent on with its PDFs inline. -/
def passPdfs (signedAt : ℚ) (tenantId : Str) (request : PrepareForModelRequest) :
    Except GateRaised GateOutcome :=
  match gate.normalizeVisionContent tenantId 1 request.content with
  | .error (.gateFailure code message) => blocked request code message
  | .error e => .error e
  | .ok content =>
      gate.ready signedAt request content .vision .passthrough (joinText request.content) false

/-- The media of the request are converted to text. -/
def convert (signedAt : ℚ) (tenantId : Str) (request : PrepareForModelRequest) :
    Except GateRaised GateOutcome :=
  match gate.extractContext request.content request.conversionProfile tenantId with
  | .error (.gateFailure code message) => blocked request code message
  | .error .baseException => .error .baseException
  | .error _ =>
      blocked request (lit "preprocessing_failed") (lit "Media preprocessing failed safely.")
  | .ok context => do
      let text ← required (textPart context.structuredContext)
      gate.ready signedAt request [text] .nonVision .converted context.structuredContext true

/-- `prepare_for_model` at a time `now` of the gate and `signedAt` of the signer. -/
def prepareForModel (now : Instant) (signedAt : ℚ) (tenantId : Str)
    (request : PrepareForModelRequest) : Except GateRaised GateOutcome :=
  let detection := detectMedia request.content
  let resolution := gate.registry.resolve request.target.registryId.value now
  if resolution.state = .unknown then
    blocked request (lit "capability_unknown") (lit "Target capability is unknown.")
  else if resolution.state = .stale then
    blocked request (lit "capability_stale") (lit "Target capability is stale.")
  else
    match resolution.capability with
    | none => blocked request (lit "capability_unknown") (lit "Target capability is unknown.")
    | some capability =>
        let holdsMedia := detection.mediaCount ≠ 0
        if resolution.state = .vision ∧ holdsMedia ∧
            ¬ capability.supportsAll detection.modalities then
          blocked request (lit "unsupported_media_modality")
            (lit "Target does not support every requested media modality.")
        else if resolution.state = .vision ∧ holdsMedia ∧ detection.modalities = {.pdf} ∧
            capability.pdfPassthroughVerified then
          gate.passPdfs signedAt tenantId request
        else if holdsMedia then gate.convert signedAt tenantId request
        else
          gate.ready signedAt request request.content resolution.state .passthrough
            (joinText request.content) true

end PreRequestGate

end MediaBridge.Core
