import MediaBridge.Core.Gate
import MediaBridge.Foundation.Raise

/-!
# The media boundary of the gate

What a prepared payload can contain: PDFs inline for a target that is verified
to take them, or one text in which no reference to the original media is left.
-/

namespace MediaBridge.Core

open Foundation

namespace Gate

variable {B : Backends} {tenantId : Str}

/-- A media part that carries what the acquirer returned, and nothing else. -/
structure Carries (part inlined : MediaPart) (acquired : AcquiredMedia) : Prop where
  mediaType : inlined.mediaType = part.mediaType
  source : ∃ data : Base64Source, inlined.source = .base64 data ∧
    data.value = Base64.encode acquired.data
  filename : inlined.filename = none
  declaredMime : inlined.declaredMime.map (·.value) = some acquired.mimeType

/-- A content list with its media inline. The index counts the media items. -/
inductive Inlined (B : Backends) (tenantId : Str) :
    Nat → List ContentPart → List ContentPart → Prop
  | nil {k} : Inlined B tenantId k [] []
  | text {k part content inlined} : Inlined B tenantId k content inlined →
      Inlined B tenantId k (.text part :: content) (.text part :: inlined)
  | media {k part part' acquired content inlined} :
      B.acquire k part tenantId = .ok acquired → Carries part part' acquired →
      Inlined B tenantId (k + 1) content inlined →
      Inlined B tenantId k (.media part :: content) (.media part' :: inlined)

/-- The acquirer reported a locator or a file name for one of the media items. -/
def Reported (B : Backends) (tenantId : Str) (content : List ContentPart) (locator : Str) :
    Prop :=
  ∃ i part acquired, (mediaParts content)[i]? = some part ∧
    B.acquire (i + 1) part tenantId = .ok acquired ∧
    (locator ∈ acquired.forbiddenLocators ∨ acquired.filename = some locator)

theorem guarded_eq_ok {α : Type} {code message : String} {x : Except GateRaised α} {a : α} :
    guarded code message x = .ok a ↔ x = .ok a := by
  cases x with
  | ok b => simp [guarded]
  | error e => cases e <;> simp [guarded, fail]

theorem required_eq_ok {α : Type} {x : Option α} {a : α} :
    required x = .ok a ↔ x = some a := by
  cases x <;> simp [required]

/-- Both routes ask the acquirer and keep its answer. -/
theorem acquireMedia_eq_ok {k : Nat} {part : MediaPart} {acquired : AcquiredMedia} :
    acquireMedia B k part tenantId = .ok acquired ↔
      B.acquire k part tenantId = .ok acquired :=
  guarded_eq_ok

theorem mem_forbidden {acquired : AcquiredMedia} {locator : Str} (hne : locator ≠ [])
    (h : locator ∈ acquired.forbiddenLocators ∨ acquired.filename = some locator) :
    locator ∈ AcquiredMedia.forbidden acquired := by
  rw [AcquiredMedia.forbidden, List.mem_append]
  rcases h with h | h
  · exact .inl h
  · right
    cases locator with
    | nil => exact absurd rfl hne
    | cons c name => simp [h]

/-- The loop over the media gathers every locator that was reported. -/
theorem mem_locators_of_gather {profile : ConversionProfile} {parts : List MediaPart}
    {k : Nat} {gathered : Gathered} (h : gather B tenantId profile k parts = .ok gathered)
    {i : Nat} {part : MediaPart} {acquired : AcquiredMedia} {locator : Str}
    (hpart : parts[i]? = some part)
    (hacquired : B.acquire (k + i) part tenantId = .ok acquired)
    (hlocator : locator ∈ AcquiredMedia.forbidden acquired) :
    locator ∈ gathered.locators := by
  induction parts generalizing k i gathered with
  | nil => simp at hpart
  | cons first rest ih =>
      rw [gather] at h
      obtain ⟨acquired', hfirst, h⟩ := ok_of_bind h
      obtain ⟨-, -, h⟩ := ok_of_bind h
      obtain ⟨sections, -, h⟩ := ok_of_bind h
      obtain ⟨others, hothers, h⟩ := ok_of_bind h
      cases h
      rw [List.mem_append]
      cases i with
      | zero =>
          simp only [List.getElem?_cons_zero, Option.some.injEq] at hpart
          subst hpart
          rw [Nat.add_zero, acquireMedia_eq_ok.mp hfirst] at hacquired
          cases hacquired
          exact .inl hlocator
      | succ i =>
          right
          apply ih hothers (i := i)
          · simpa using hpart
          · rw [← hacquired]
            congr 1
            omega

end Gate

namespace PreRequestGate

open Gate

variable {gate : PreRequestGate} {tenantId : Str} {now : Instant} {signedAt : ℚ}
  {request : PrepareForModelRequest}

theorem carries_of_inlinePart {part inlined : MediaPart} {acquired : AcquiredMedia}
    (h : inlinePart part acquired = .ok inlined) : Carries part inlined acquired := by
  obtain ⟨data, hdata, h⟩ := ok_of_bind h
  obtain ⟨mime, hmime, h⟩ := ok_of_bind h
  cases h
  have hdata' := Constrained.value_of_validate (required_eq_ok.mp hdata)
  have hmime' := Constrained.value_of_validate (required_eq_ok.mp hmime)
  exact ⟨rfl, ⟨data, rfl, hdata'⟩, rfl, by simp [hmime']⟩

/-- Normalized vision content has its media inline. -/
theorem inlined_of_normalizeVisionContent {content normalized : List ContentPart} {k : Nat}
    (h : gate.normalizeVisionContent tenantId k content = .ok normalized) :
    Inlined gate.backends tenantId k content normalized := by
  induction content generalizing k normalized with
  | nil =>
      cases h
      exact .nil
  | cons head rest ih =>
      cases head with
      | text part =>
          obtain ⟨others, hothers, h⟩ := ok_of_bind h
          cases h
          exact .text (ih hothers)
      | media part =>
          obtain ⟨acquired, hacquired, h⟩ := ok_of_bind h
          obtain ⟨inlined, hinlined, h⟩ := ok_of_bind h
          obtain ⟨others, hothers, h⟩ := ok_of_bind h
          cases h
          exact .media (acquireMedia_eq_ok.mp hacquired) (carries_of_inlinePart hinlined)
            (ih hothers)

theorem sanitized_eq_ok_iff {sep : String} {sections locators : List Str} {text : Str} :
    gate.sanitized sep sections locators = .ok text ↔
      sanitizeModelText gate.unicode gate.setOrder (Str.join (lit sep) sections) locators
        200000 = .ok text := by
  unfold sanitized
  split
  · rename_i hok
    rw [hok]
    simp
  · rename_i herror
    rw [herror]
    exact ⟨nofun, nofun⟩

/-- The text of the request and the labelled texts that the backends gave. -/
def convertedTexts (content : List ContentPart) (gathered : Gathered) : List Str :=
  (if (joinText content).isEmpty then [] else [joinText content]) ++ gathered.sections.converted

/-- A context is what the sanitizer makes of what the backends gave. -/
structure Converts (gate : PreRequestGate) (content : List ContentPart)
    (profile : ConversionProfile) (tenantId : Str) (gathered : Gathered)
    (context : ConvertedContext) : Prop where
  media : (detectMedia content).mediaCount ≠ 0
  answers : gather gate.backends tenantId profile 1 (mediaParts content) = .ok gathered
  recognized : gate.sanitized "\n" gathered.sections.ocr gathered.locators = .ok context.ocrText
  described : gate.describedText gathered = .ok context.visualDescription
  structured : sanitizeModelText gate.unicode gate.setOrder
    (Str.join (lit "\n\n") (convertedTexts content gathered)) gathered.locators 200000 =
      .ok context.structuredContext
  modalities : context.mediaModalities = gathered.modalities

theorem extractContext_eq_ok_iff {profile : ConversionProfile} {content : List ContentPart}
    {context : ConvertedContext} :
    gate.extractContext content profile tenantId = .ok context ↔
      ∃ gathered, Converts gate content profile tenantId gathered context := by
  unfold extractContext
  constructor
  · intro h
    split at h
    · cases h
    next hmedia =>
      obtain ⟨gathered, hgathered, h⟩ := ok_of_bind h
      obtain ⟨ocrText, hocr, h⟩ := ok_of_bind h
      obtain ⟨visualDescription, hdescribed, h⟩ := ok_of_bind h
      obtain ⟨structuredContext, hcontext, h⟩ := ok_of_bind h
      cases h
      exact ⟨gathered, hmedia, hgathered, hocr, hdescribed, sanitized_eq_ok_iff.mp hcontext, rfl⟩
  · rintro ⟨gathered, h⟩
    have hstructured := sanitized_eq_ok_iff.mpr h.structured
    rw [if_neg h.media, h.answers]
    simp only [bind, Except.bind, h.recognized, h.described]
    rw [convertedTexts] at hstructured
    simp only [hstructured, ← h.modalities]
    rfl

/-- The structured context of a conversion is safe for every reported locator. -/
theorem safe_of_extractContext {profile : ConversionProfile} {content : List ContentPart}
    {context : ConvertedContext}
    (h : gate.extractContext content profile tenantId = .ok context) :
    ∃ locators, Sanitizer.Safe gate.unicode locators 200000 context.structuredContext ∧
      ∀ locator, locator ≠ [] → Reported gate.backends tenantId content locator →
        locator ∈ locators := by
  obtain ⟨gathered, hconverts⟩ := extractContext_eq_ok_iff.mp h
  refine ⟨gathered.locators, Sanitizer.safe_of_ok hconverts.structured, ?_⟩
  rintro locator hne ⟨i, part, acquired, hpart, hacquired, hlocator⟩
  apply mem_locators_of_gather hconverts.answers hpart _ (mem_forbidden hne hlocator)
  rw [← hacquired, Nat.add_comm]

/-- What `_ready` puts into an outcome. -/
structure ReadyWith (gate : PreRequestGate) (request : PrepareForModelRequest)
    (parts : List ContentPart) (level : CapabilityState) (decision : GateAction)
    (outcome : GateOutcome) (payload : DownstreamPayload) : Prop where
  prepared : outcome.prepared = some payload
  targetId : payload.targetId = request.target.registryId.value
  capability : payload.capability = level.value
  action : payload.action = decision.value
  content : payload.content = parts
  resultAction : outcome.result.action = decision
  supportsVision : outcome.result.targetSupportsVision = some (decide (level = .vision))
  receipt : ∃ signedAt, Receipts.sign gate.platform gate.signer signedAt payload.binding 30 =
    some payload.receipt

theorem ready_eq_ok {content : List ContentPart} {capability : CapabilityState}
    {action : GateAction} {text : Str} {removed : Bool} {outcome : GateOutcome}
    (h : gate.ready signedAt request content capability action text removed = .ok outcome) :
    ∃ payload, ReadyWith gate request content capability action outcome payload := by
  obtain ⟨inputDigest, -, h⟩ := ok_of_bind h
  obtain ⟨outputDigest, -, h⟩ := ok_of_bind h
  obtain ⟨receipt, hreceipt, h⟩ := ok_of_bind h
  obtain ⟨text, -, h⟩ := ok_of_bind h
  cases h
  exact ⟨_, rfl, rfl, rfl, rfl, rfl, rfl, rfl, signedAt, required_eq_ok.mp hreceipt⟩

theorem prepared_of_blocked {code message : Str} {outcome : GateOutcome}
    (h : blocked request code message = .ok outcome) : outcome.prepared = none := by
  obtain ⟨error, -, h⟩ := ok_of_bind h
  cases h
  rfl

/-- Which branch of the gate prepared a payload, and under which conditions. -/
inductive Prepared (gate : PreRequestGate) (now : Instant) (tenantId : Str)
    (request : PrepareForModelRequest) (outcome : GateOutcome) (payload : DownstreamPayload) :
    Prop
  | pdfs {capability parts} :
      gate.registry.ResolvesToVision request.target.registryId.value now capability →
      capability.supportsAll (detectMedia request.content).modalities = true →
      (detectMedia request.content).modalities = {.pdf} →
      capability.pdfPassthroughVerified = true →
      Inlined gate.backends tenantId 1 request.content parts →
      ReadyWith gate request parts .vision .passthrough outcome payload →
      Prepared gate now tenantId request outcome payload
  | converted {context text} :
      (detectMedia request.content).mediaCount ≠ 0 →
      (∀ capability,
        gate.registry.ResolvesToVision request.target.registryId.value now capability →
        ¬ ((detectMedia request.content).modalities = {.pdf} ∧
          capability.pdfPassthroughVerified = true)) →
      gate.extractContext request.content request.conversionProfile tenantId = .ok context →
      textPart context.structuredContext = some text →
      ReadyWith gate request [text] .nonVision .converted outcome payload →
      Prepared gate now tenantId request outcome payload
  | textOnly {level} :
      (detectMedia request.content).mediaCount = 0 →
      (gate.registry.resolve request.target.registryId.value now).state = level →
      ReadyWith gate request request.content level .passthrough outcome payload →
      Prepared gate now tenantId request outcome payload

/-- A prepared payload comes from one of the three branches, for a target that is
neither unknown nor stale. -/
theorem prepared_of_prepareForModel {outcome : GateOutcome} {payload : DownstreamPayload}
    (h : gate.prepareForModel now signedAt tenantId request = .ok outcome)
    (hpayload : outcome.prepared = some payload) :
    Prepared gate now tenantId request outcome payload ∧
      (gate.registry.resolve request.target.registryId.value now).state ≠ .unknown ∧
      (gate.registry.resolve request.target.registryId.value now).state ≠ .stale := by
  have hblocked {code message : Str} : ¬ blocked request code message = .ok outcome := by
    intro hno
    rw [prepared_of_blocked hno] at hpayload
    cases hpayload
  unfold prepareForModel at h
  simp only at h
  split at h
  · exact absurd h hblocked
  rename_i hunknown
  split at h
  · exact absurd h hblocked
  rename_i hstale
  refine ⟨?_, hunknown, hstale⟩
  split at h
  · exact absurd h hblocked
  rename_i capability hcapability
  split at h
  · exact absurd h hblocked
  rename_i hsupports
  split at h
  · rename_i hpass
    obtain ⟨hvision, hmedia, hpdf, hverified⟩ := hpass
    unfold passPdfs at h
    split at h
    · exact absurd h hblocked
    · cases h
    · rename_i parts hparts
      obtain ⟨payload', hready⟩ := ready_eq_ok h
      obtain rfl : payload' = payload := by simpa [hready.prepared] using hpayload
      have hresolve : gate.registry.resolve request.target.registryId.value now =
          ⟨.vision, some capability⟩ := by
        rw [← hvision, ← hcapability]
      obtain ⟨c, hc, hvisionTarget⟩ := CapabilityRegistry.resolve_vision_iff.mp hresolve
      cases hc
      refine .pdfs hvisionTarget ?_ hpdf hverified
        (inlined_of_normalizeVisionContent hparts) hready
      by_contra hno
      exact hsupports ⟨hvision, hmedia, hno⟩
  rename_i hpass
  split at h
  · rename_i hmedia
    unfold convert at h
    split at h
    · exact absurd h hblocked
    · cases h
    · exact absurd h hblocked
    · rename_i context hcontext
      obtain ⟨text, htext, h⟩ := ok_of_bind h
      obtain ⟨payload', hready⟩ := ready_eq_ok h
      obtain rfl : payload' = payload := by simpa [hready.prepared] using hpayload
      refine .converted hmedia ?_ hcontext (required_eq_ok.mp htext) hready
      rintro c hc ⟨hpdf, hverified⟩
      have hresolve := CapabilityRegistry.resolve_vision_iff.mpr ⟨c, rfl, hc⟩
      rw [hresolve] at hcapability hpass
      cases hcapability
      exact hpass ⟨rfl, hmedia, hpdf, hverified⟩
  · rename_i hmedia
    obtain ⟨payload', hready⟩ := ready_eq_ok h
    obtain rfl : payload' = payload := by simpa [hready.prepared] using hpayload
    exact .textOnly (by simpa using hmedia) rfl hready

/-- The media of the request are PDFs, and they are sent inline to a target that is
registered for them. -/
structure InlinePdfs (gate : PreRequestGate) (now : Instant) (tenantId : Str)
    (request : PrepareForModelRequest) (outcome : GateOutcome) (payload : DownstreamPayload) :
    Prop where
  onlyPdfs : ∀ part, ContentPart.media part ∈ request.content → part.mediaType = .pdf
  target : ∃ capability,
    gate.registry.ResolvesToVision request.target.registryId.value now capability ∧
      lit "pdf" ∈ capability.inputModalities ∧ capability.pdfPassthroughVerified = true
  action : payload.action = lit "passthrough" ∧ outcome.result.action = .passthrough
  capability : payload.capability = lit "vision" ∧
    outcome.result.targetSupportsVision = some true
  inlined : Inlined gate.backends tenantId 1 request.content payload.content

/-- The media of the request are replaced by one text without references to them. -/
structure ConvertedText (gate : PreRequestGate) (tenantId : Str)
    (request : PrepareForModelRequest) (outcome : GateOutcome) (payload : DownstreamPayload) :
    Prop where
  action : payload.action = lit "converted" ∧ outcome.result.action = .converted
  capability : payload.capability = lit "non_vision" ∧
    outcome.result.targetSupportsVision = some false
  content : ∃ text : TextPart, payload.content = [.text text] ∧
    ∀ locator, locator ≠ [] → Reported gate.backends tenantId request.content locator →
      ¬ gate.unicode.nfkc locator <:+: text.text.value

/-- What a prepared payload says about the media of its request. -/
structure MediaBoundary (gate : PreRequestGate) (now : Instant) (tenantId : Str)
    (request : PrepareForModelRequest) (outcome : GateOutcome) (payload : DownstreamPayload) :
    Prop where
  known : (gate.registry.resolve request.target.registryId.value now).state ≠ .unknown ∧
    (gate.registry.resolve request.target.registryId.value now).state ≠ .stale
  withMedia : (∃ part, ContentPart.media part ∈ payload.content) →
    InlinePdfs gate now tenantId request outcome payload
  withoutMedia : (∃ part, ContentPart.media part ∈ request.content) →
    (¬ ∃ part, ContentPart.media part ∈ payload.content) →
      ConvertedText gate tenantId request outcome payload

theorem media_mem_of_inlined {B : Backends} {k : Nat} {content inlined : List ContentPart}
    (h : Inlined B tenantId k content inlined) {part : MediaPart}
    (hpart : ContentPart.media part ∈ content) :
    ∃ part', ContentPart.media part' ∈ inlined := by
  induction h with
  | nil => cases hpart
  | text _ ih =>
      obtain ⟨part', hmem⟩ := ih (by simpa using hpart)
      exact ⟨part', List.mem_cons_of_mem _ hmem⟩
  | @media k part part' acquired content inlined _ _ _ _ => exact ⟨part', by simp⟩

theorem Prepared.inlinePdfs {outcome : GateOutcome} {payload : DownstreamPayload}
    (h : Prepared gate now tenantId request outcome payload)
    (hmedia : ∃ part, ContentPart.media part ∈ payload.content) :
    InlinePdfs gate now tenantId request outcome payload := by
  obtain ⟨part, hpart⟩ := hmedia
  cases h with
  | pdfs htarget hsupports hpdf hverified hinlined hready =>
      have hmem : MediaType.pdf ∈ (detectMedia request.content).modalities := by
        rw [hpdf]
        exact Finset.mem_singleton_self _
      refine ⟨?_, ⟨_, htarget, ?_, hverified⟩, ⟨hready.action, hready.resultAction⟩,
        ⟨hready.capability, hready.supportsVision⟩, ?_⟩
      · intro part hpart
        have hin : part.mediaType ∈ (detectMedia request.content).modalities :=
          mem_detectMedia_modalities.mpr ⟨part, hpart, rfl⟩
        rw [hpdf] at hin
        exact Finset.mem_singleton.mp hin
      · exact ModelCapability.supportsAll_iff.mp hsupports .pdf hmem
      · rw [hready.content]
        exact hinlined
  | converted hmedia _ hcontext htext hready =>
      obtain ⟨t, -, rfl⟩ := textPart_eq_some_iff.mp htext
      rw [hready.content] at hpart
      simp at hpart
  | textOnly hnone hlevel hready =>
      rw [hready.content] at hpart
      exact absurd hpart (detectMedia_mediaCount_eq_zero.mp hnone part)

theorem Prepared.convertedText {outcome : GateOutcome} {payload : DownstreamPayload}
    (h : Prepared gate now tenantId request outcome payload)
    (hmedia : ∃ part, ContentPart.media part ∈ request.content)
    (hnone : ¬ ∃ part, ContentPart.media part ∈ payload.content) :
    ConvertedText gate tenantId request outcome payload := by
  obtain ⟨part, hpart⟩ := hmedia
  cases h with
  | pdfs htarget hsupports hpdf hverified hinlined hready =>
      rw [hready.content] at hnone
      exact absurd (media_mem_of_inlined hinlined hpart) hnone
  | converted hcount _ hcontext htext hready =>
      obtain ⟨locators, hsafe, hreported⟩ := safe_of_extractContext hcontext
      obtain ⟨t, ht, rfl⟩ := textPart_eq_some_iff.mp htext
      refine ⟨⟨hready.action, hready.resultAction⟩,
        ⟨hready.capability, hready.supportsVision⟩, ⟨t⟩, hready.content, ?_⟩
      intro locator hne hlocator
      rw [ht]
      exact hsafe.noLocator locator (hreported locator hne hlocator) hne
  | textOnly hcount hlevel hready =>
      exact absurd hpart (detectMedia_mediaCount_eq_zero.mp hcount part)

/-- Whatever the backends answer, a prepared payload keeps the media boundary, up to the spelling
of the reported names. -/
theorem prepareForModel_mediaBoundary (gate : PreRequestGate) (now : Instant) (signedAt : ℚ)
    (tenantId : Str) (request : PrepareForModelRequest) {outcome : GateOutcome}
    {payload : DownstreamPayload}
    (h : gate.prepareForModel now signedAt tenantId request = .ok outcome)
    (hpayload : outcome.prepared = some payload) :
    MediaBoundary gate now tenantId request outcome payload := by
  obtain ⟨hprepared, hknown⟩ := prepared_of_prepareForModel h hpayload
  exact ⟨hknown, hprepared.inlinePdfs, hprepared.convertedText⟩

section Sample

/-- The acquirer on inline data, and backends that recognise a greeting. -/
def sampleBackends : Backends where
  acquire _ part _ := .ok
    { data := match part.source with
        | .base64 data => (Base64.decode data.value).getD []
        | _ => []
      mediaType := part.mediaType.value
      mimeType := match part.mediaType with
        | .image => lit "image/png"
        | .pdf => lit "application/pdf"
      filename := part.filename.map (·.value)
      forbiddenLocators := [] }
  openWorkspace _ := .ok ()
  writeBytes _ _ _ _ := .ok ()
  cleanup _ := .ok ()
  render _ data := .ok [⟨1, data, lit "image/png", lit "page-1.png"⟩]
  ocr _ _ _ _ _ := .ok ⟨.success, some (lit "hello")⟩
  vision _ _ _ _ _ := .ok ⟨.success, some (lit "a page")⟩

def sampleRegistry : CapabilityRegistry where
  capabilities := [{ modelId := lit "text-model", inputModalities := {lit "text"} },
    { modelId := lit "pdf-model", inputModalities := {lit "text", lit "pdf"},
      pdfPassthroughVerified := true }]
  version := lit "1"
  modelIds_nodup := by decide +kernel

/-- A letter and its accent become one letter. -/
def composeAcute (s : Str) : Str := s.replaceAll [cp 101, cp 0x301] [cp 0xE9]

def sampleGate : PreRequestGate where
  unicode := .ascii composeAcute
  platform := .sample
  setOrder := ⟨List.dedup, perm_dedup⟩
  registry := sampleRegistry
  backends := sampleBackends
  signer := .sample

/-- A validated field of a concrete request. -/
def sampleField (limit : Nat) (s : Str)
    (h : Constrained.Valid limit anyText s) : Constrained limit anyText :=
  ⟨s, h.1, h.2.1, h.2.2⟩

/-- A request to read a PDF, to a target that takes PDFs. -/
def samplePdfRequest : PrepareForModelRequest where
  content := [.media ⟨.pdf, .base64 (sampleField _ (lit "JVBERi0=") (by decide)), none, none⟩]
  target := ⟨⟨lit "pdf-model", by decide +kernel, by decide +kernel, by decide +kernel⟩⟩
  content_nonempty := by decide
  content_length := by decide

/-- A file name with the letter é written as a letter and an accent. -/
def decomposedName : Str := [cp 101, cp 0x301] ++ lit ".png"

theorem encodable_sampleTarget : Str.encodable (lit "text-model") = true := by decide

/-- An image with the decomposed name, after a text. -/
def sampleNamedRequest (text : TextPart) : PrepareForModelRequest where
  content := [.text text,
    .media ⟨.image, .base64 (sampleField _ (lit "iVBORw0KGgo=") (by decide)),
      some (sampleField _ decomposedName (by decide)), none⟩]
  target := ⟨⟨lit "text-model", encodable_sampleTarget, by decide +kernel, by decide +kernel⟩⟩
  content_nonempty := by simp
  content_length := by simp

/-- A text in which a control character separates the letter of that name from its accent. -/
def sampleImageRequest : PrepareForModelRequest :=
  sampleNamedRequest ⟨sampleField _ (lit "see " ++ [cp 101, cp 0, cp 0x301] ++ lit ".png")
    (by decide)⟩

/-- A text with that name. -/
def sampleCleanRequest : PrepareForModelRequest :=
  sampleNamedRequest ⟨sampleField _ (lit "see " ++ decomposedName) (by decide)⟩

/-- The content of a prepared payload. -/
def preparedContent : Except GateRaised GateOutcome → Option (List ContentPart)
  | .ok outcome => outcome.prepared.map (·.content)
  | .error _ => none

/-- A prepared content that passes a test. -/
theorem of_preparedContent {run : Except GateRaised GateOutcome} {test : List ContentPart → Bool}
    (h : (preparedContent run).any test = true) :
    ∃ outcome payload, run = .ok outcome ∧ outcome.prepared = some payload ∧
      test payload.content = true := by
  cases run with
  | error e => cases h
  | ok outcome =>
      obtain ⟨content, hcontent, htest⟩ := (Option.any_eq_true _ _).mp h
      obtain ⟨payload, hpayload, rfl⟩ := Option.map_eq_some_iff.mp hcontent
      exact ⟨outcome, payload, rfl, hpayload, htest⟩

/-- The content is one text with a given infix. -/
def isTextWith (locator : Str) : List ContentPart → Bool
  | [.text part] => Str.contains part.text.value locator
  | _ => false

end Sample

end PreRequestGate

end MediaBridge.Core
