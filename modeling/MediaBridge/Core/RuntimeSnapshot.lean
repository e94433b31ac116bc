import MediaBridge.Core.ConfigSnapshot

/-!
# The capability registry of a snapshot

`media_bridge/runtime_snapshot.py`: the registry document inside a verified snapshot, and
the exact registry that the gateway builds from it. An entry of the document gives one
capability for its identifier and one for each alias.
-/

namespace MediaBridge.Core

open Foundation

/-- `Literal["text", "image", "pdf"]`. -/
def modalityNames : Finset Str := {lit "text", lit "image", lit "pdf"}

structure SnapshotModelEntry where
  modelId : RegistryId
  providerId : Option Str
  routingProfileId : Option Str
  aliases : List RegistryId
  inputModalities : Finset Str
  expiresAt : Option Datetime
  pdfPassthroughVerified : Bool
  reasoningEffort : Option Str
  modalities_known : inputModalities ⊆ modalityNames
  expiry_aware : ∀ d ∈ expiresAt, d.aware = true

structure SnapshotRegistry where
  version : Constrained 100 anyText
  models : List SnapshotModelEntry
  version_ne : version.value ≠ []
  models_ne : models ≠ []

namespace RuntimeSnapshot

/-- A field of type `str | None`, which may be absent. -/
def optionalText (fields : Entries Str Json) (key : String) : Option (Option Str) :=
  match Json.field fields key with
  | .null => some none
  | .str s => some (some s)
  | _ => none

/-- A field of type `datetime | None`, aware when it is given. -/
def optionalTime (R : FieldReader) (fields : Entries Str Json) (key : String) :
    Option (Option Datetime) :=
  match Json.field fields key with
  | .null => some none
  | v => do
      let d ← R.datetime v
      if d.aware then some (some d) else none

/-- The items of a list of strings. -/
def textItems (v : Json) : Option (List Str) :=
  match v with
  | .arr items => items.mapM Json.str?
  | _ => none

/-- The aliases of an entry; none are the default. -/
def readAliases (fields : Entries Str Json) : Option (List RegistryId) :=
  match Entries.get? fields (lit "aliases") with
  | none => some []
  | some v => do
      let texts ← textItems v
      texts.mapM (Constrained.validate 128 registryIdPattern)

/-- A field of type `bool` with the default `False`. -/
def optionalFlag (R : FieldReader) (fields : Entries Str Json) (key : String) : Option Bool :=
  match Entries.get? fields (lit key) with
  | none => some false
  | some v => R.boolean v

/-- The keys of a model entry. -/
def entryNames : List String :=
  ["id", "provider_id", "routing_profile_id", "aliases", "input_modalities", "expires_at",
    "pdf_passthrough_verified", "reasoning_effort"]

/-- `SnapshotModelEntry.model_validate`; `none` is a `ValidationError`. -/
def readEntry (R : FieldReader) (v : Json) : Option SnapshotModelEntry := do
  let fields ← v.obj?
  if !Json.keysWithin fields entryNames then none
  else do
    let modelId ← (Json.field fields "id").str?
    let modelId ← Constrained.validate 128 registryIdPattern modelId
    let providerId ← optionalText fields "provider_id"
    let routingProfileId ← optionalText fields "routing_profile_id"
    let aliases ← readAliases fields
    let modalities ← textItems (Json.field fields "input_modalities")
    let expiresAt ← optionalTime R fields "expires_at"
    let verified ← optionalFlag R fields "pdf_passthrough_verified"
    let effort ← optionalText fields "reasoning_effort"
    if h : modalities.toFinset ⊆ modalityNames ∧ ∀ d ∈ expiresAt, d.aware = true then
      return ⟨modelId, providerId, routingProfileId, aliases, modalities.toFinset, expiresAt,
        verified, effort, h.1, h.2⟩
    else none

/-- `SnapshotRegistry.model_validate`; `none` is a `ValidationError`. -/
def readRegistry (R : FieldReader) (v : Json) : Option SnapshotRegistry := do
  let fields ← v.obj?
  if !Json.keysWithin fields ["version", "models"] then none
  else do
    let version ← (Json.field fields "version").str?
    let version ← Constrained.validate 100 anyText version
    match Json.field fields "models" with
    | .arr items => do
        let models ← items.mapM (readEntry R)
        if h : version.value ≠ [] ∧ models ≠ [] then return ⟨version, models, h.1, h.2⟩
        else none
    | _ => none

/-- The names of an entry: its identifier, then its aliases. -/
def entryIds (item : SnapshotModelEntry) : List Str :=
  item.modelId.value :: item.aliases.map Constrained.value

/-- The capability of an entry under one of its names. -/
def entryCapability (item : SnapshotModelEntry) (modelId : Str) : ModelCapability where
  modelId := modelId
  inputModalities := item.inputModalities
  expiresAt := item.expiresAt.map Datetime.instant
  pdfPassthroughVerified := item.pdfPassthroughVerified

/-- The capabilities of all entries, in order. -/
def capabilities (models : List SnapshotModelEntry) : List ModelCapability :=
  models.flatMap fun item => (entryIds item).map (entryCapability item)

/-- `capability_registry_from_snapshot`; `none` is the `SnapshotVerificationError`. -/
def capabilityRegistryFromSnapshot (R : FieldReader) (body : Entries Str Json) :
    Option CapabilityRegistry := do
  let registry ← readRegistry R (Json.field body "registry")
  CapabilityRegistry.build (capabilities registry.models) registry.version.value

end RuntimeSnapshot

end MediaBridge.Core
