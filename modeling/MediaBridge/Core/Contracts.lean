import MediaBridge.Foundation.Text

/-!
# Input and output contracts

The validated models of `media_bridge/contracts.py`. A value of one of these
types exists only when its validation succeeded: every constructor carries the
limits it was checked against, and `validate` is the only way in.

## Implementation notes

A length or pattern constraint makes the validator read the string as UTF-8, so
a constrained string is also free of lone surrogates. Patterns are anchored at
both ends and are given as decidable predicates on the whole string.
-/

namespace MediaBridge.Core

open Foundation

/-- A string field with a maximum length and a pattern. -/
structure Constrained (limit : Nat) (pattern : Str → Bool) where
  value : Str
  encodable : Str.encodable value = true
  length_le : value.length ≤ limit
  accepted : pattern value = true
deriving DecidableEq

namespace Constrained

variable {limit : Nat} {pattern : Str → Bool}

/-- Validation of a raw string; `none` is a `ValidationError`. -/
def validate (limit : Nat) (pattern : Str → Bool) (s : Str) :
    Option (Constrained limit pattern) :=
  if h : Str.encodable s = true ∧ s.length ≤ limit ∧ pattern s = true then
    some ⟨s, h.1, h.2.1, h.2.2⟩
  else none

/-- What a validated field was checked for. -/
def Valid (limit : Nat) (pattern : Str → Bool) (s : Str) : Prop :=
  Str.encodable s = true ∧ s.length ≤ limit ∧ pattern s = true

instance (limit : Nat) (pattern : Str → Bool) (s : Str) : Decidable (Valid limit pattern s) :=
  inferInstanceAs (Decidable (_ ∧ _ ∧ _))

theorem valid (field : Constrained limit pattern) : Valid limit pattern field.value :=
  ⟨field.encodable, field.length_le, field.accepted⟩

theorem validate_of_valid {s : Str} (h : Valid limit pattern s) :
    validate limit pattern s = some ⟨s, h.1, h.2.1, h.2.2⟩ :=
  dif_pos h

theorem validate_eq_none_iff {s : Str} :
    validate limit pattern s = none ↔ ¬ Valid limit pattern s := by
  simp [validate, Valid]

theorem value_of_validate {s : Str} {field : Constrained limit pattern}
    (h : validate limit pattern s = some field) : field.value = s := by
  have hs : Valid limit pattern s := by
    by_contra hno
    rw [validate_eq_none_iff.mpr hno] at h
    cases h
  rw [validate_of_valid hs, Option.some.injEq] at h
  rw [← h]

theorem valid_of_validate {s : Str} {field : Constrained limit pattern}
    (h : validate limit pattern s = some field) : Valid limit pattern s :=
  value_of_validate h ▸ field.valid

/-- Validating the text of a validated field gives the field back. -/
theorem validate_value (field : Constrained limit pattern) :
    validate limit pattern field.value = some field :=
  validate_of_valid field.valid

end Constrained

/-- No pattern. -/
def anyText (_ : Str) : Bool := true

/-- `Literal["image", "pdf"]`. -/
inductive MediaType
  | image
  | pdf
deriving DecidableEq, Repr

/-- The value of the literal. -/
def MediaType.value : MediaType → Str
  | .image => lit "image"
  | .pdf => lit "pdf"

/-- The characters of `[A-Za-z0-9_-]`. -/
def urlSafeChar (c : CodePoint) : Bool := c.isAsciiAlnum || c == cp 95 || c == cp 45

/-- `^mb_[A-Za-z0-9_-]{22,64}$`. -/
def assetIdPattern (s : Str) : Bool :=
  Str.startsWith s (lit "mb_") && 25 ≤ s.length && s.length ≤ 67 &&
    (s.drop 3).all urlSafeChar

/-- `^https://`. -/
def httpsPattern (s : Str) : Bool := Str.startsWith s (lit "https://")

/-- The characters of `[a-z0-9]`. -/
def registryHeadChar (c : CodePoint) : Bool := c.isAsciiLower || c.isAsciiDigit

/-- The characters of `[a-z0-9./:_-]`. -/
def registryChar (c : CodePoint) : Bool :=
  registryHeadChar c || c == cp 46 || c == cp 47 || c == cp 58 || c == cp 95 || c == cp 45

/-- `^[a-z0-9][a-z0-9./:_-]{0,127}$`. -/
def registryIdPattern : Str → Bool
  | [] => false
  | c :: rest => registryHeadChar c && rest.length ≤ 127 && rest.all registryChar

abbrev Base64Source := Constrained 2796204 anyText
abbrev AssetSource := Constrained 67 assetIdPattern
abbrev UrlSource := Constrained 2048 httpsPattern
abbrev LocalPathSource := Constrained 4096 anyText

/-- Where the bytes of a media item come from. -/
inductive MediaSource
  | base64 (data : Base64Source)
  | assetId (assetId : AssetSource)
  | url (url : UrlSource)
  | localPath (path : LocalPathSource)
deriving DecidableEq

/-- A text item of a request. -/
structure TextPart where
  text : Constrained 200000 anyText
deriving DecidableEq

abbrev Filename := Constrained 255 anyText
abbrev DeclaredMime := Constrained 100 anyText

/-- A media item of a request. -/
structure MediaPart where
  mediaType : MediaType
  source : MediaSource
  filename : Option Filename := none
  declaredMime : Option DeclaredMime := none
deriving DecidableEq

/-- One content part, told apart by its `type`. -/
inductive ContentPart
  | text (part : TextPart)
  | media (part : MediaPart)
deriving DecidableEq

namespace ContentPart

/-- The text, for a text part. -/
def text? : ContentPart → Option Str
  | .text part => some part.text.value
  | .media _ => none

/-- The media item, for a media part. -/
def media? : ContentPart → Option MediaPart
  | .text _ => none
  | .media part => some part

def isMedia : ContentPart → Bool
  | .text _ => false
  | .media _ => true

end ContentPart

/-- `TextPart(text=s)`; `none` is a `ValidationError`. -/
def textPart (s : Str) : Option ContentPart :=
  (Constrained.validate 200000 anyText s).map fun t => .text ⟨t⟩

abbrev RegistryId := Constrained 128 registryIdPattern

/-- The model a request is addressed to. -/
structure TargetModel where
  registryId : RegistryId
deriving DecidableEq

/-- How much of a converted medium is described. -/
inductive ConversionProfile
  | generic
  | errorScreenshot
  | document
deriving DecidableEq, Repr

/-- The value of the literal. -/
def ConversionProfile.value : ConversionProfile → Str
  | .generic => lit "generic"
  | .errorScreenshot => lit "error_screenshot"
  | .document => lit "document"

/-- A request with one to thirty-two content parts. -/
structure PrepareForModelRequest where
  content : List ContentPart
  target : TargetModel
  conversionProfile : ConversionProfile := .generic
  content_nonempty : content ≠ []
  content_length : content.length ≤ 32

/-- `PrepareForModelRequest(...)`; `none` is a `ValidationError`. -/
def PrepareForModelRequest.validate (content : List ContentPart) (target : TargetModel)
    (profile : ConversionProfile) : Option PrepareForModelRequest :=
  if h : content ≠ [] ∧ content.length ≤ 32 then
    some ⟨content, target, profile, h.1, h.2⟩
  else none

/-- `^[a-z][a-z0-9_]{0,63}$`. -/
def errorCodePattern : Str → Bool
  | [] => false
  | c :: rest =>
      c.isAsciiLower && rest.length ≤ 63 &&
        rest.all fun d => d.isAsciiLower || d.isAsciiDigit || d == cp 95

/-- An error that may be shown to a client. -/
structure SafeError where
  code : Constrained 64 errorCodePattern
  message : Constrained 200 anyText
deriving DecidableEq

/-- `SafeError(code=..., message=...)`; `none` is a `ValidationError`. -/
def SafeError.validate (code message : Str) : Option SafeError := do
  let code ← Constrained.validate 64 errorCodePattern code
  let message ← Constrained.validate 200 anyText message
  return ⟨code, message⟩

/-- What the gate decided. -/
inductive GateAction
  | passthrough
  | converted
  | blocked
deriving DecidableEq, Repr

/-- The value of the literal. -/
def GateAction.value : GateAction → Str
  | .passthrough => lit "passthrough"
  | .converted => lit "converted"
  | .blocked => lit "blocked"

/-- The public result of the gate. -/
structure PrepareForModelResult where
  action : GateAction
  targetModel : Str
  containsMedia : Bool
  containsImage : Bool
  containsPdf : Bool
  targetSupportsVision : Option Bool
  sanitizedText : Option (Constrained 200000 anyText)
  originalImageRemoved : Bool
  error : Option SafeError

theorem textPart_eq_some_iff {s : Str} {part : ContentPart} :
    textPart s = some part ↔ ∃ t : Constrained 200000 anyText,
      t.value = s ∧ part = .text ⟨t⟩ := by
  constructor
  · intro h
    obtain ⟨t, ht, hpart⟩ := Option.map_eq_some_iff.mp h
    exact ⟨t, Constrained.value_of_validate ht, hpart.symm⟩
  · rintro ⟨t, rfl, rfl⟩
    simp [textPart, Constrained.validate_value]

theorem textPart_eq_none_iff {s : Str} :
    textPart s = none ↔ ¬ Constrained.Valid 200000 anyText s := by
  rw [textPart, Option.map_eq_none_iff, Constrained.validate_eq_none_iff]

theorem PrepareForModelRequest.validate_eq_none_iff {content : List ContentPart}
    {target : TargetModel} {profile : ConversionProfile} :
    validate content target profile = none ↔ ¬ (content ≠ [] ∧ content.length ≤ 32) := by
  rw [validate, dite_eq_right_iff]
  simp

end MediaBridge.Core
