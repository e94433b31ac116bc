import MediaBridge.Control.Configuration

/-!
# Operations on the configuration

`create_*`, `update_*` and `delete_*` of `ConfigurationService` in
`media_bridge_control/configuration.py`, for providers, routing profiles and models.

## Implementation notes

The rows of a table are told apart by their identifiers. A flush first binds the values, which a
text with a null character fails, and then checks the `UNIQUE` columns and the foreign keys.
-/

namespace MediaBridge.Control

open Foundation MediaBridge.Core Gateway

/-- The three tables. -/
structure ConfigurationTables where
  providers : List Provider := []
  routingProfiles : List RoutingProfile := []
  models : List ModelCapability := []
deriving DecidableEq

namespace ConfigurationTables

variable (C : ConfigurationContext) (T : ConfigurationTables)

/-- `session.get(Provider, id)`. -/
def provider? (id : Uuid) : Option Provider :=
  Rows.lookup (fun row : Provider => row.id) T.providers id

/-- `session.get(RoutingProfile, id)`. -/
def profile? (id : Uuid) : Option RoutingProfile :=
  Rows.lookup (fun row : RoutingProfile => row.id) T.routingProfiles id

/-- `session.get(ModelCapability, id)`. -/
def model? (id : Uuid) : Option ModelCapability :=
  Rows.lookup (fun row : ModelCapability => row.id) T.models id

def notFound : ConfigurationFailure := .refused "configuration_not_found"
def conflict : ConfigurationFailure := .refused "configuration_conflict"
def invalid : ConfigurationFailure := .refused "invalid_configuration"

section Providers

/-- Another row has the identifier, the name or the alias of a row. -/
def clashes (others : List Provider) (row : Provider) : Bool :=
  others.any fun other => other.id = row.id || other.name = row.name ||
    (other.aliasName.isSome && other.aliasName = row.aliasName)

/-- A provider is flushed beside the other rows. -/
def flushProvider (others : List Provider) (row : Provider) : Except ConfigurationFailure Unit :=
  if ¬ Storable row.endpoint then .error .dataError
  else if clashes others row then .error conflict
  else .ok ()

/-- `create_provider`. -/
def createProvider (id : Uuid) (request : ProviderFields) (draw : Bytes) :
    Except ConfigurationFailure ConfigurationTables :=
  match providerValues C request with
  | .error code => .error (.refused code)
  | .ok columns =>
      let row : Provider := { columns with
        id := id
        encryptedApiKey := request.apiKey.map (C.encryptSecret draw) }
      (flushProvider T.providers row).map fun _ => { T with providers := T.providers ++ [row] }

/-- The row that `update_provider` writes. -/
def updatedProvider (row : Provider) (changes : ProviderChanges) (draw : Bytes) :
    Except ConfigurationFailure Provider :=
  if ¬ (changes.candidate row).Valid then .error invalid
  else
    match providerValues C (changes.candidate row) with
    | .error code => .error (.refused code)
    | .ok columns => .ok { columns with
        id := row.id
        encryptedApiKey := (changes.apiKey.map (C.encryptSecret draw)).or row.encryptedApiKey }

/-- `update_provider`. -/
def updateProvider (id : Uuid) (changes : ProviderChanges) (draw : Bytes) :
    Except ConfigurationFailure ConfigurationTables :=
  match T.provider? id with
  | none => .error notFound
  | some row =>
      match updatedProvider C row changes draw with
      | .error failure => .error failure
      | .ok row' =>
          (flushProvider (Rows.drop (fun row : Provider => row.id) T.providers id) row').map
            fun _ => { T with providers := Rows.put (fun row : Provider => row.id) T.providers row' }

/-- `delete_provider`; models have a foreign key to providers. -/
def deleteProvider (id : Uuid) : Except ConfigurationFailure ConfigurationTables :=
  match T.provider? id with
  | none => .error notFound
  | some _ =>
      if T.models.any fun row => row.providerId = some id then .error .integrityError
      else .ok { T with providers := Rows.drop (fun row : Provider => row.id) T.providers id }

end Providers

section Profiles

/-- `_routing_provider_ids`. -/
def checkProviderIds (fields : ProfileFields) : Except ConfigurationFailure Unit :=
  if (fields.analysisProviderIds ++ fields.llmProviderIds).any fun id => (T.provider? id).isNone then
    .error (.refused "routing_profile_provider_not_found")
  else if (fields.analysisProviderIds.filterMap T.provider?).any fun row => !row.kind.analyses then
    .error (.refused "routing_profile_analysis_provider_invalid")
  else if (fields.llmProviderIds.filterMap T.provider?).any fun row => row.kind ≠ .llm then
    .error (.refused "routing_profile_llm_provider_invalid")
  else .ok ()

/-- A profile is flushed beside the other rows. -/
def flushProfile (others : List RoutingProfile) (row : RoutingProfile) :
    Except ConfigurationFailure Unit :=
  if ¬ Storable row.name then .error .dataError
  else if others.any fun other => other.id = row.id || other.name = row.name then .error conflict
  else .ok ()

/-- `create_routing_profile`. -/
def createRoutingProfile (id : Uuid) (request : ProfileFields) :
    Except ConfigurationFailure ConfigurationTables :=
  match T.checkProviderIds request with
  | .error failure => .error failure
  | .ok _ =>
      let row : RoutingProfile := { request with id := id }
      (flushProfile T.routingProfiles row).map fun _ =>
        { T with routingProfiles := T.routingProfiles ++ [row] }

/-- `update_routing_profile`. -/
def updateRoutingProfile (id : Uuid) (changes : ProfileChanges) :
    Except ConfigurationFailure ConfigurationTables :=
  match T.profile? id with
  | none => .error notFound
  | some row =>
      let candidate := changes.candidate row
      if ¬ candidate.Valid then .error invalid
      else
        match T.checkProviderIds candidate with
        | .error failure => .error failure
        | .ok _ =>
            let row' : RoutingProfile := { candidate with id := row.id }
            (flushProfile (Rows.drop (fun row : RoutingProfile => row.id) T.routingProfiles id)
              row').map fun _ => { T with
                routingProfiles :=
                  Rows.put (fun row : RoutingProfile => row.id) T.routingProfiles row' }

/-- `delete_routing_profile`; models have a foreign key to profiles. -/
def deleteRoutingProfile (id : Uuid) : Except ConfigurationFailure ConfigurationTables :=
  match T.profile? id with
  | none => .error notFound
  | some _ =>
      if T.models.any fun row => row.routingProfileId = some id then .error .integrityError
      else .ok { T with
        routingProfiles := Rows.drop (fun row : RoutingProfile => row.id) T.routingProfiles id }

end Profiles

section Models

/-- The provider with which `create_model` registers a model. -/
def modelProvider (request : ModelFields) : Except ConfigurationFailure Provider :=
  let profile := request.routingProfileId.bind T.profile?
  let provider := request.providerId.bind T.provider?
  if request.routingProfileId.isSome ∧ profile.isNone then
    .error (.refused "model_routing_profile_not_found")
  else if provider.any fun row => row.kind ≠ .llm then .error (.refused "model_provider_invalid")
  else
    match profile, provider with
    | none, none => .error (.refused "model_provider_or_routing_required")
    | none, some row => .ok row
    | some profile, some row =>
        if row.id ∈ profile.llmProviderIds then .ok row
        else .error (.refused "model_provider_not_in_routing_profile")
    | some profile, none =>
        match profile.llmProviderIds.head?.bind T.provider? with
        | none => .error (.refused "model_routing_provider_invalid")
        | some row =>
            if row.kind = .llm then .ok row
            else .error (.refused "model_routing_provider_invalid")

/-- The identifier under which `create_model` registers a model. -/
def publicModelId (provider : Provider) (modelId : Str) : Str :=
  if cp 47 ∈ modelId then modelId
  else provider.aliasName.getD (providerAlias C.unicode provider.name) ++ cp 47 :: modelId

/-- The foreign keys of a model hold. -/
def keysHold (row : ModelCapability) : Bool :=
  (row.providerId.all fun id => (T.provider? id).isSome) &&
    row.routingProfileId.all fun id => (T.profile? id).isSome

/-- A model is flushed beside the other rows. -/
def flushModel (others : List ModelCapability) (row : ModelCapability) :
    Except ConfigurationFailure Unit :=
  if ¬ row.Storable then .error .dataError
  else if (others.any fun other => other.id = row.id || other.modelId = row.modelId) ||
      !T.keysHold row then .error conflict
  else .ok ()

/-- The row that `create_model` adds. -/
def createdModel (id : Uuid) (provider : Provider) (request : ModelFields) : ModelCapability where
  id := id
  providerId := some provider.id
  routingProfileId := request.routingProfileId
  modelId := publicModelId C provider request.modelId
  aliases := sortedTexts request.aliases
  inputModalities := sortedModalities request.inputModalities
  evidence := request.evidence
  reviewedAt := request.reviewedAt.instant
  expiresAt := request.expiresAt.map Datetime.instant
  pdfPassthroughVerified := request.pdfPassthroughVerified
  reasoningEffort := storedModelEffort request.reasoningEffort

/-- `create_model`. -/
def createModel (id : Uuid) (request : ModelFields) :
    Except ConfigurationFailure ConfigurationTables :=
  match T.modelProvider request with
  | .error failure => .error failure
  | .ok provider =>
      let row := createdModel C id provider request
      (T.flushModel T.models row).map fun _ => { T with models := T.models ++ [row] }

/-- The check of the provider in `update_model`. -/
def checkModelProvider (providerId : Option Uuid) : Except ConfigurationFailure Unit :=
  match providerId with
  | none => .ok ()
  | some id =>
      match T.provider? id with
      | none => .error (.refused "model_provider_not_found")
      | some row => if row.kind = .llm then .ok () else .error (.refused "model_provider_invalid")

/-- The row that `update_model` writes. -/
def updatedModel (row : ModelCapability) (candidate : ModelFields) : ModelCapability where
  id := row.id
  providerId := candidate.providerId.or row.providerId
  routingProfileId := candidate.routingProfileId
  modelId := candidate.modelId
  aliases := sortedTexts candidate.aliases
  inputModalities := sortedModalities candidate.inputModalities
  evidence := candidate.evidence
  reviewedAt := candidate.reviewedAt.instant
  expiresAt := none
  pdfPassthroughVerified := candidate.pdfPassthroughVerified
  reasoningEffort := storedModelEffort candidate.reasoningEffort

/-- `update_model`. -/
def updateModel (id : Uuid) (changes : ModelChanges) :
    Except ConfigurationFailure ConfigurationTables :=
  match T.model? id with
  | none => .error notFound
  | some row =>
      if ¬ row.readable C then .error .dataError
      else
        let candidate := changes.candidate row
        if ¬ candidate.Valid then .error invalid
        else
          match T.checkModelProvider candidate.providerId with
          | .error failure => .error failure
          | .ok _ =>
              let row' := updatedModel row candidate
              (T.flushModel (Rows.drop (fun row : ModelCapability => row.id) T.models id) row').map
                fun _ => { T with
                  models := Rows.put (fun row : ModelCapability => row.id) T.models row' }

/-- `delete_model`. -/
def deleteModel (id : Uuid) : Except ConfigurationFailure ConfigurationTables :=
  match T.model? id with
  | none => .error notFound
  | some row =>
      if ¬ row.readable C then .error .dataError
      else .ok { T with models := Rows.drop (fun row : ModelCapability => row.id) T.models id }

end Models

end ConfigurationTables

/-- An operation on the configuration. -/
inductive ConfigurationOperation
  | createProvider (id : Uuid) (request : ProviderCreate) (draw : Bytes)
  | updateProvider (id : Uuid) (request : ProviderUpdate) (draw : Bytes)
  | deleteProvider (id : Uuid)
  | createRoutingProfile (id : Uuid) (request : ProfileCreate)
  | updateRoutingProfile (id : Uuid) (request : ProfileUpdate)
  | deleteRoutingProfile (id : Uuid)
  | createModel (id : Uuid) (request : ModelCreate)
  | updateModel (id : Uuid) (request : ModelUpdate)
  | deleteModel (id : Uuid)

namespace ConfigurationTables

variable (C : ConfigurationContext) (T : ConfigurationTables)

/-- What an operation makes of the tables. -/
def apply : ConfigurationOperation → Except ConfigurationFailure ConfigurationTables
  | .createProvider id request draw => T.createProvider C id request draw
  | .updateProvider id request draw => T.updateProvider C id request draw
  | .deleteProvider id => T.deleteProvider id
  | .createRoutingProfile id request => T.createRoutingProfile id request
  | .updateRoutingProfile id request => T.updateRoutingProfile id request
  | .deleteRoutingProfile id => T.deleteRoutingProfile id
  | .createModel id request => T.createModel C id request
  | .updateModel id request => T.updateModel C id request
  | .deleteModel id => T.deleteModel C id

/-- The tables after an operation; one that fails is rolled back. -/
def after (operation : ConfigurationOperation) : ConfigurationTables :=
  match T.apply C operation with
  | .ok T' => T'
  | .error _ => T

/-- The runs from empty tables. -/
def machine : Machine ConfigurationTables ConfigurationOperation where
  initial T := T = {}
  step T operation T' := T' = T.after C operation

end ConfigurationTables

section Effects

/-- No `UNIQUE` column of two providers is the same. -/
structure Provider.Apart (row other : Provider) : Prop where
  id : row.id ≠ other.id
  name : row.name ≠ other.name
  aliasName : row.aliasName = none ∨ row.aliasName ≠ other.aliasName

structure RoutingProfile.Apart (row other : RoutingProfile) : Prop where
  id : row.id ≠ other.id
  name : row.name ≠ other.name

structure ModelCapability.Apart (row other : ModelCapability) : Prop where
  id : row.id ≠ other.id
  modelId : row.modelId ≠ other.modelId

namespace ConfigurationTables

variable {C : ConfigurationContext} {T T' : ConfigurationTables}

/-- The rows of `providers` but one. -/
abbrev otherProviders (T : ConfigurationTables) (id : Uuid) : List Provider :=
  Rows.drop (fun row : Provider => row.id) T.providers id

abbrev otherProfiles (T : ConfigurationTables) (id : Uuid) : List RoutingProfile :=
  Rows.drop (fun row : RoutingProfile => row.id) T.routingProfiles id

abbrev otherModels (T : ConfigurationTables) (id : Uuid) : List ModelCapability :=
  Rows.drop (fun row : ModelCapability => row.id) T.models id

/-- The tables after a row has been written. -/
abbrev putProvider (T : ConfigurationTables) (row : Provider) : ConfigurationTables :=
  { T with providers := Rows.put (fun row : Provider => row.id) T.providers row }

abbrev putProfile (T : ConfigurationTables) (row : RoutingProfile) : ConfigurationTables :=
  { T with routingProfiles := Rows.put (fun row : RoutingProfile => row.id) T.routingProfiles row }

abbrev putModel (T : ConfigurationTables) (row : ModelCapability) : ConfigurationTables :=
  { T with models := Rows.put (fun row : ModelCapability => row.id) T.models row }

/-- What an operation that succeeds has done. -/
inductive Effect (C : ConfigurationContext) (T : ConfigurationTables) :
    ConfigurationOperation → ConfigurationTables → Prop
  | createProvider {id : Uuid} {request : ProviderCreate} {draw : Bytes} {row : Provider} :
      providerValues C request = .ok row.toProviderColumns → row.id = id →
      Storable row.endpoint → (∀ other ∈ T.providers, other.Apart row) →
      Effect C T (.createProvider id request draw) { T with providers := T.providers ++ [row] }
  | updateProvider {id : Uuid} {request : ProviderUpdate} {draw : Bytes} {row row' : Provider} :
      T.provider? id = some row → updatedProvider C row request draw = .ok row' →
      Storable row'.endpoint → (∀ other ∈ T.otherProviders id, other.Apart row') →
      Effect C T (.updateProvider id request draw) (T.putProvider row')
  | deleteProvider {id : Uuid} : (∀ row ∈ T.models, row.providerId ≠ some id) →
      Effect C T (.deleteProvider id) { T with providers := T.otherProviders id }
  | createRoutingProfile {id : Uuid} {request : ProfileCreate} :
      T.checkProviderIds request = .ok () → Storable request.val.name →
      (∀ other ∈ T.routingProfiles, other.Apart { request.val with id := id }) →
      Effect C T (.createRoutingProfile id request)
        { T with routingProfiles := T.routingProfiles ++ [{ request.val with id := id }] }
  | updateRoutingProfile {id : Uuid} {request : ProfileUpdate} {row : RoutingProfile} :
      T.profile? id = some row → (request.val.candidate row).Valid →
      T.checkProviderIds (request.val.candidate row) = .ok () →
      Storable (request.val.candidate row).name →
      (∀ other ∈ T.otherProfiles id, other.Apart { request.val.candidate row with id := row.id }) →
      Effect C T (.updateRoutingProfile id request)
        (T.putProfile { request.val.candidate row with id := row.id })
  | deleteRoutingProfile {id : Uuid} : (∀ row ∈ T.models, row.routingProfileId ≠ some id) →
      Effect C T (.deleteRoutingProfile id) { T with routingProfiles := T.otherProfiles id }
  | createModel {id : Uuid} {request : ModelCreate} {provider : Provider} :
      T.modelProvider request = .ok provider → (createdModel C id provider request).Storable →
      (∀ other ∈ T.models, other.Apart (createdModel C id provider request)) →
      T.keysHold (createdModel C id provider request) = true →
      Effect C T (.createModel id request)
        { T with models := T.models ++ [createdModel C id provider request] }
  | updateModel {id : Uuid} {request : ModelUpdate} {row : ModelCapability} :
      T.model? id = some row → (request.val.candidate row).Valid →
      T.checkModelProvider (request.val.candidate row).providerId = .ok () →
      (updatedModel row (request.val.candidate row)).Storable →
      (∀ other ∈ T.otherModels id, other.Apart (updatedModel row (request.val.candidate row))) →
      T.keysHold (updatedModel row (request.val.candidate row)) = true →
      Effect C T (.updateModel id request) (T.putModel (updatedModel row (request.val.candidate row)))
  | deleteModel {id : Uuid} : Effect C T (.deleteModel id) { T with models := T.otherModels id }

/-- A row clashes with none of the others exactly if it is apart from all of them. -/
theorem clashes_eq_false_iff {others : List Provider} {row : Provider} :
    clashes others row = false ↔ ∀ other ∈ others, other.Apart row := by
  unfold clashes
  rw [List.any_eq_false]
  apply forall₂_congr
  intro other _
  constructor
  · intro h
    simp only [Bool.or_eq_true, decide_eq_true_eq, Bool.and_eq_true, not_or] at h
    refine ⟨h.1.1, h.1.2, ?_⟩
    cases hname : other.aliasName with
    | none => exact .inl rfl
    | some text => exact .inr fun heq => h.2 ⟨by rw [hname]; rfl, hname.trans heq⟩
  · rintro ⟨hid, hname, hother⟩
    simp only [Bool.or_eq_true, decide_eq_true_eq, Bool.and_eq_true, not_or]
    refine ⟨⟨hid, hname⟩, ?_⟩
    rintro ⟨hsome, heq⟩
    rcases hother with hnone | hne
    · rw [hnone] at hsome
      cases hsome
    · exact hne heq

theorem flushProvider_ok_iff {others : List Provider} {row : Provider} :
    flushProvider others row = .ok () ↔
      Storable row.endpoint ∧ ∀ other ∈ others, other.Apart row := by
  rw [← clashes_eq_false_iff]
  unfold flushProvider
  by_cases hstore : Storable row.endpoint
  · cases hclash : clashes others row <;> simp [hstore]
  · simp [hstore]

theorem flushProfile_ok_iff {others : List RoutingProfile} {row : RoutingProfile} :
    flushProfile others row = .ok () ↔ Storable row.name ∧ ∀ other ∈ others, other.Apart row := by
  have hclash : (others.any fun other => other.id = row.id || other.name = row.name) = false ↔
      ∀ other ∈ others, other.Apart row := by
    rw [List.any_eq_false]
    apply forall₂_congr
    intro other _
    simp only [Bool.or_eq_true, decide_eq_true_eq, not_or]
    exact ⟨fun h => ⟨h.1, h.2⟩, fun h => ⟨h.id, h.name⟩⟩
  rw [← hclash]
  unfold flushProfile
  by_cases hstore : Storable row.name
  · cases others.any fun other => other.id = row.id || other.name = row.name <;> simp [hstore]
  · simp [hstore]

theorem flushModel_ok_iff {others : List ModelCapability} {row : ModelCapability} :
    T.flushModel others row = .ok () ↔
      row.Storable ∧ (∀ other ∈ others, other.Apart row) ∧ T.keysHold row = true := by
  have hclash : (others.any fun other => other.id = row.id || other.modelId = row.modelId) = false ↔
      ∀ other ∈ others, other.Apart row := by
    rw [List.any_eq_false]
    apply forall₂_congr
    intro other _
    simp only [Bool.or_eq_true, decide_eq_true_eq, not_or]
    exact ⟨fun h => ⟨h.1, h.2⟩, fun h => ⟨h.id, h.modelId⟩⟩
  rw [← hclash]
  unfold flushModel
  by_cases hstore : row.Storable
  · cases others.any fun other => other.id = row.id || other.modelId = row.modelId <;>
      cases T.keysHold row <;> simp [hstore]
  · simp [hstore]

/-- A flush that succeeds, and what follows it. -/
theorem map_ok {α : Type*} {e : Except ConfigurationFailure Unit} {a b : α}
    (h : (e.map fun _ => a) = .ok b) : e = .ok () ∧ b = a := by
  cases e with
  | error failure => cases h
  | ok _ =>
      cases h
      exact ⟨rfl, rfl⟩

theorem effect_of_apply {operation : ConfigurationOperation} (h : T.apply C operation = .ok T') :
    Effect C T operation T' := by
  cases operation with
  | createProvider id request draw =>
      change T.createProvider C id request draw = _ at h
      unfold createProvider at h
      split at h
      · cases h
      · next columns hvalues =>
          obtain ⟨hflush, rfl⟩ := map_ok h
          obtain ⟨hstore, hapart⟩ := flushProvider_ok_iff.mp hflush
          exact .createProvider hvalues rfl hstore hapart
  | updateProvider id request draw =>
      change T.updateProvider C id request draw = _ at h
      unfold updateProvider at h
      split at h
      · cases h
      · next row hrow =>
          split at h
          · cases h
          · next row' hupdated =>
              obtain ⟨hflush, rfl⟩ := map_ok h
              obtain ⟨hstore, hapart⟩ := flushProvider_ok_iff.mp hflush
              exact .updateProvider hrow hupdated hstore hapart
  | deleteProvider id =>
      change T.deleteProvider id = _ at h
      unfold deleteProvider at h
      split at h
      · cases h
      · split at h
        · cases h
        · next hnone =>
            cases h
            exact .deleteProvider (by simpa using hnone)
  | createRoutingProfile id request =>
      change T.createRoutingProfile id request = _ at h
      unfold createRoutingProfile at h
      split at h
      · cases h
      · next hcheck =>
          obtain ⟨hflush, rfl⟩ := map_ok h
          obtain ⟨hstore, hapart⟩ := flushProfile_ok_iff.mp hflush
          exact .createRoutingProfile hcheck hstore hapart
  | updateRoutingProfile id request =>
      change T.updateRoutingProfile id request = _ at h
      simp only [updateRoutingProfile] at h
      split at h
      · cases h
      · next row hrow =>
          split at h
          · cases h
          · next hvalid =>
              split at h
              · cases h
              · next hcheck =>
                  obtain ⟨hflush, rfl⟩ := map_ok h
                  obtain ⟨hstore, hapart⟩ := flushProfile_ok_iff.mp hflush
                  exact .updateRoutingProfile hrow (not_not.mp hvalid) hcheck hstore hapart
  | deleteRoutingProfile id =>
      change T.deleteRoutingProfile id = _ at h
      unfold deleteRoutingProfile at h
      split at h
      · cases h
      · split at h
        · cases h
        · next hnone =>
            cases h
            exact .deleteRoutingProfile (by simpa using hnone)
  | createModel id request =>
      change T.createModel C id request = _ at h
      unfold createModel at h
      split at h
      · cases h
      · next provider hprovider =>
          obtain ⟨hflush, rfl⟩ := map_ok h
          obtain ⟨hstore, hapart, hkeys⟩ := flushModel_ok_iff.mp hflush
          exact .createModel hprovider hstore hapart hkeys
  | updateModel id request =>
      change T.updateModel C id request = _ at h
      simp only [updateModel] at h
      split at h
      · cases h
      · next row hrow =>
          split at h
          · cases h
          · split at h
            · cases h
            · next hvalid =>
                split at h
                · cases h
                · next hcheck =>
                    obtain ⟨hflush, rfl⟩ := map_ok h
                    obtain ⟨hstore, hapart, hkeys⟩ := flushModel_ok_iff.mp hflush
                    exact .updateModel hrow (not_not.mp hvalid) hcheck hstore hapart hkeys
  | deleteModel id =>
      change T.deleteModel C id = _ at h
      unfold deleteModel at h
      split at h
      · cases h
      · split at h
        · cases h
        · cases h
          exact .deleteModel

/-- An operation either has an effect or changes nothing. -/
theorem after_cases (C : ConfigurationContext) (T : ConfigurationTables)
    (operation : ConfigurationOperation) :
    T.after C operation = T ∨ Effect C T operation (T.after C operation) := by
  unfold after
  cases happly : T.apply C operation with
  | error failure => exact .inl rfl
  | ok T' => exact .inr (effect_of_apply happly)

/-- What effects keep holds in every state of every run. -/
theorem invariant_of_effects {I : ConfigurationTables → Prop}
    {allowed : ConfigurationTables → ConfigurationOperation → Prop} (hempty : I {})
    (heffect : ∀ T operation T', I T → allowed T operation → Effect C T operation T' → I T')
    (h : (machine C).Reachable allowed T) : I T := by
  apply h.invariant
  · rintro T rfl
    exact hempty
  · rintro T operation T' hT hallowed rfl
    rcases after_cases C T operation with heq | hdone
    · rw [heq]
      exact hT
    · exact heffect T operation _ hT hallowed hdone

end ConfigurationTables

end Effects

end MediaBridge.Control
