import MediaBridge.Core.Contracts
import Mathlib.Data.Finset.Lattice.Basic
import Mathlib.Data.Finset.Insert

/-!
# Media detection and the capability registry

`media_bridge/detector.py` and `media_bridge/capabilities.py`: which media a
request holds, and what the operator has registered about the target model.
-/

namespace MediaBridge.Core

open Foundation

/-- A `datetime`, in microseconds since the epoch. -/
abbrev Instant := Int

/-- Which media a list of content parts holds. -/
structure MediaDetection where
  mediaCount : Nat
  modalities : Finset MediaType
deriving DecidableEq

namespace MediaDetection

def containsImage (d : MediaDetection) : Bool := decide (.image ∈ d.modalities)

def containsPdf (d : MediaDetection) : Bool := decide (.pdf ∈ d.modalities)

end MediaDetection

/-- The media parts of a content list. -/
def mediaParts (content : List ContentPart) : List MediaPart :=
  content.filterMap ContentPart.media?

def detectMedia (content : List ContentPart) : MediaDetection where
  mediaCount := (mediaParts content).length
  modalities := ((mediaParts content).map MediaPart.mediaType).toFinset

/-- `StrEnum` of the registry's answers. -/
inductive CapabilityState
  | vision
  | nonVision
  | unknown
  | stale
deriving DecidableEq, Repr

/-- The value of the enumeration member. -/
def CapabilityState.value : CapabilityState → Str
  | .vision => lit "vision"
  | .nonVision => lit "non_vision"
  | .unknown => lit "unknown"
  | .stale => lit "stale"

structure ModelCapability where
  modelId : Str
  inputModalities : Finset Str
  expiresAt : Option Instant := none
  pdfPassthroughVerified : Bool := false
deriving DecidableEq

namespace ModelCapability

def supportsAll (c : ModelCapability) (modalities : Finset MediaType) : Bool :=
  decide (∀ m ∈ modalities, m.value ∈ c.inputModalities)

theorem supportsAll_iff {c : ModelCapability} {modalities : Finset MediaType} :
    c.supportsAll modalities = true ↔ ∀ m ∈ modalities, m.value ∈ c.inputModalities := by
  rw [supportsAll, decide_eq_true_iff]

def isStale (c : ModelCapability) (now : Instant) : Bool :=
  match c.expiresAt with
  | none => false
  | some expiry => decide (expiry ≤ now)

/-- `input_modalities.intersection({"image", "pdf"})` is not empty. -/
def takesMedia (c : ModelCapability) : Bool :=
  decide (lit "image" ∈ c.inputModalities ∨ lit "pdf" ∈ c.inputModalities)

end ModelCapability

structure CapabilityResolution where
  state : CapabilityState
  capability : Option ModelCapability
deriving DecidableEq

/-- A registry of exact model identifiers, no two alike. -/
structure CapabilityRegistry where
  capabilities : List ModelCapability
  version : Str
  modelIds_nodup : (capabilities.map ModelCapability.modelId).Nodup

namespace CapabilityRegistry

/-- `CapabilityRegistry(capabilities, version)`; `none` is the `ValueError` for
a duplicate identifier. -/
def build (capabilities : List ModelCapability) (version : Str) : Option CapabilityRegistry :=
  if h : (capabilities.map ModelCapability.modelId).Nodup then
    some ⟨capabilities, version, h⟩
  else none

def lookup (r : CapabilityRegistry) (modelId : Str) : Option ModelCapability :=
  r.capabilities.find? fun c => decide (c.modelId = modelId)

def resolve (r : CapabilityRegistry) (modelId : Str) (now : Instant) : CapabilityResolution :=
  match r.lookup modelId with
  | none => ⟨.unknown, none⟩
  | some c =>
      if c.isStale now then ⟨.stale, some c⟩
      else if c.takesMedia then ⟨.vision, some c⟩
      else ⟨.nonVision, some c⟩

/-- The target is registered, not stale, and takes some medium. -/
structure ResolvesToVision (r : CapabilityRegistry) (modelId : Str) (now : Instant)
    (c : ModelCapability) : Prop where
  registered : r.lookup modelId = some c
  fresh : c.isStale now = false
  takesMedia : c.takesMedia = true

theorem resolve_vision_iff {r : CapabilityRegistry} {modelId : Str} {now : Instant}
    {capability : Option ModelCapability} :
    r.resolve modelId now = ⟨.vision, capability⟩ ↔
      ∃ c, capability = some c ∧ r.ResolvesToVision modelId now c := by
  constructor
  · intro h
    cases hl : r.lookup modelId with
    | none => simp [resolve, hl] at h
    | some c =>
        simp only [resolve, hl] at h
        split at h
        · cases h
        · rename_i hs
          split at h
          · rename_i ht
            cases h
            exact ⟨c, rfl, hl, by simpa using hs, ht⟩
          · cases h
  · rintro ⟨c, rfl, hc⟩
    simp [resolve, hc.registered, hc.fresh, hc.takesMedia]

/-- A target that took media takes them at any time at which it is not stale. -/
theorem ResolvesToVision.at_time {r : CapabilityRegistry} {modelId : Str} {now now' : Instant}
    {c : ModelCapability} (h : r.ResolvesToVision modelId now c)
    (hstate : (r.resolve modelId now').state ≠ .stale) : r.ResolvesToVision modelId now' c := by
  refine ⟨h.registered, ?_, h.takesMedia⟩
  by_contra hstale
  apply hstate
  rw [resolve, h.registered]
  simp only [Bool.not_eq_false] at hstale
  simp [hstale]

/-- The registry names a capability exactly when the target is known. -/
theorem resolve_unknown_iff {r : CapabilityRegistry} {modelId : Str} {now : Instant} :
    (r.resolve modelId now).state = .unknown ↔ (r.resolve modelId now).capability = none := by
  cases hl : r.lookup modelId with
  | none => simp [resolve, hl]
  | some c =>
      simp only [resolve, hl]
      split
      · simp
      · split <;> simp

end CapabilityRegistry

theorem mediaParts_cons_text (part : TextPart) (rest : List ContentPart) :
    mediaParts (.text part :: rest) = mediaParts rest := rfl

theorem mediaParts_cons_media (part : MediaPart) (rest : List ContentPart) :
    mediaParts (.media part :: rest) = part :: mediaParts rest := rfl

theorem mem_mediaParts {content : List ContentPart} {part : MediaPart} :
    part ∈ mediaParts content ↔ ContentPart.media part ∈ content := by
  induction content with
  | nil => simp [mediaParts]
  | cons head rest ih =>
      cases head with
      | text t => simp [mediaParts_cons_text, ih]
      | media p => simp [mediaParts_cons_media, ih]

theorem mem_detectMedia_modalities {content : List ContentPart} {m : MediaType} :
    m ∈ (detectMedia content).modalities ↔
      ∃ part : MediaPart, ContentPart.media part ∈ content ∧ part.mediaType = m := by
  simp only [detectMedia, List.mem_toFinset, List.mem_map, mem_mediaParts]

/-- No media is counted exactly when there is no media part. -/
theorem detectMedia_mediaCount_eq_zero {content : List ContentPart} :
    (detectMedia content).mediaCount = 0 ↔
      ∀ part : MediaPart, ContentPart.media part ∉ content := by
  simp only [detectMedia, List.length_eq_zero_iff, List.eq_nil_iff_forall_not_mem,
    mem_mediaParts]

theorem detectMedia_modalities_eq_empty {content : List ContentPart} :
    (detectMedia content).modalities = ∅ ↔ (detectMedia content).mediaCount = 0 := by
  rw [detectMedia_mediaCount_eq_zero, Finset.eq_empty_iff_forall_notMem]
  constructor
  · intro h part hpart
    exact h part.mediaType (mem_detectMedia_modalities.mpr ⟨part, hpart, rfl⟩)
  · intro h m hm
    obtain ⟨part, hpart, -⟩ := mem_detectMedia_modalities.mp hm
    exact h part hpart

end MediaBridge.Core
