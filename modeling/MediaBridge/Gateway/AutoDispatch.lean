import MediaBridge.Gateway.LlmBackends
import MediaBridge.Gateway.ProviderChoice
import MediaBridge.Gateway.RegistryNames
import MediaBridge.Gateway.SnapshotRuntime

/-!
# The model for `auto` and its provider

`_auto_model_for_snapshot` chooses a model at load time; `_provider_for_target` finds its
provider and `provider_backend` of `media_bridge_gateway/entrypoints.py` builds the backend
at request time. When they agree.
-/

namespace MediaBridge.Gateway

open Foundation MediaBridge.Core ProviderRouting RuntimeSnapshot

namespace LlmBackends

/-- What `build_llm_backend` asks of a provider record. -/
structure BackendFields (U : UnicodeData) (P : Platform) (casefold : Str → Str)
    (provider : Entries Str Json) (catalogId protocol model endpoint : Str) : Prop where
  hasCatalogId : filledText provider "catalog_id" = some catalogId
  hasProtocol : filledText provider "protocol" = some protocol
  hasModel : filledText provider "model_id" = some model
  hasEndpoint : filledText provider "endpoint" = some endpoint
  pair : allowedPair catalogId protocol = true
  effortKnown : ∃ name ∈ effortNames, lit name = effortText P provider
  effortSupported : effortText P provider = lit "provider_default" ∨
    ∃ c ∈ reasoningCapability casefold catalogId protocol model, effortText P provider ∈ c.efforts
  endpointUsable : ∃ split, endpointFor U protocol endpoint model = some split

/-- A backend is built exactly for the providers with these fields. -/
theorem buildLlmBackend_eq_some_iff {U : UnicodeData} {P : Platform} {casefold : Str → Str}
    {provider : Entries Str Json} :
    (∃ backend, buildLlmBackend U P casefold provider = some backend) ↔
      ∃ catalogId protocol model endpoint,
        BackendFields U P casefold provider catalogId protocol model endpoint := by
  constructor
  · rintro ⟨backend, h⟩
    obtain ⟨catalogId, hcatalogId, h⟩ := Option.bind_eq_some_iff.mp h
    obtain ⟨protocol, hprotocol, h⟩ := Option.bind_eq_some_iff.mp h
    obtain ⟨model, hmodel, h⟩ := Option.bind_eq_some_iff.mp h
    obtain ⟨endpoint, hendpoint, h⟩ := Option.bind_eq_some_iff.mp h
    split at h
    · cases h
    · rename_i hpair
      dsimp only at h
      split at h
      · cases h
      · rename_i heffort
        split at h
        · cases h
        · rename_i hsupported
          obtain ⟨split, hsplit, -⟩ := Option.bind_eq_some_iff.mp h
          refine ⟨catalogId, protocol, model, endpoint, hcatalogId, hprotocol, hmodel,
            hendpoint, by simpa using hpair, by simpa using heffort, ?_, split, hsplit⟩
          by_contra hno
          rw [not_or] at hno
          exact hsupported hno
  · rintro ⟨catalogId, protocol, model, endpoint, h⟩
    obtain ⟨split, hsplit⟩ := h.endpointUsable
    have heffort : (effortNames.any fun name =>
        decide (lit name = effortText P provider)) = true := by
      simpa using h.effortKnown
    have hsupported : ¬ (effortText P provider ≠ lit "provider_default" ∧
        ¬ ∃ c ∈ reasoningCapability casefold catalogId protocol model,
          effortText P provider ∈ c.efforts) := by
      rw [not_and_not_right]
      exact fun hne => h.effortSupported.resolve_left hne
    rw [buildLlmBackend, h.hasCatalogId, h.hasProtocol, h.hasModel, h.hasEndpoint]
    simp only [Option.bind_eq_bind, Option.bind_some, h.pair, Bool.not_true, Bool.false_eq_true,
      if_false, heffort, hsupported, hsplit]
    exact ⟨_, rfl⟩

/-- `provider_backend`; `none` is a `ValueError`. -/
def providerBackend (U : UnicodeData) (P : Platform) (casefold : Str → Str)
    (provider : Entries Str Json) : Option ProviderTextBackend := do
  let id ← (Json.field provider "id").str?
  if id.isEmpty then none else buildLlmBackend U P casefold provider

end LlmBackends

open LlmBackends Generation

/-- A model record may be chosen for `auto`. -/
def AutoEligible (body model : Entries Str Json) : Prop :=
  ∃ id, (Json.field model "id").str? = some id ∧ id ∈ publicModels body ∧
    hasProvider (listOr (Json.field body "providers"))
      (listOr (Json.field body "routing_profiles")) model = true

/-- The first model record of the registry that may be chosen for `auto`. -/
def FirstEligible (body model : Entries Str Json) : Prop :=
  ∃ before after, objects (registryModelList body) = before ++ model :: after ∧
    AutoEligible body model ∧ ∀ other ∈ before, ¬ AutoEligible body other

/-- The providers that the automatic choice sees behind a model record. -/
def autoProviderIds (body model : Entries Str Json) : List Str :=
  providerIds (autoRoute (listOr (Json.field body "routing_profiles")) model) model

theorem providers_of_eligible {body model : Entries Str Json} (h : AutoEligible body model) :
    ∃ providers, Json.field body "providers" = .arr providers := by
  obtain ⟨id, -, -, hprovider⟩ := h
  cases hproviders : Json.field body "providers" with
  | arr providers => exact ⟨providers, rfl⟩
  | null | bool _ | int _ | float _ | str _ | obj _ =>
      rw [hproviders] at hprovider
      simp [hasProvider, listOr, enabledLlmIds, objects] at hprovider

/-- The identifier of a model record that may be chosen for `auto`. -/
def autoId (body model : Entries Str Json) : Option Str :=
  ((Json.field model "id").str?).filter fun id => decide (id ∈ publicModels body) &&
    hasProvider (listOr (Json.field body "providers"))
      (listOr (Json.field body "routing_profiles")) model

theorem autoId_eq_some_iff {body model : Entries Str Json} {name : Str} :
    autoId body model = some name ↔
      AutoEligible body model ∧ (Json.field model "id").str? = some name := by
  rw [autoId, AutoEligible, Option.filter_eq_some_iff, Bool.and_eq_true, decide_eq_true_iff]
  constructor
  · rintro ⟨hid, hpublic, hprovider⟩
    exact ⟨⟨name, hid, hpublic, hprovider⟩, hid⟩
  · rintro ⟨⟨id, hid, hpublic, hprovider⟩, hname⟩
    obtain rfl : id = name := Option.some_inj.mp (hid.symm.trans hname)
    exact ⟨hid, hpublic, hprovider⟩

theorem autoId_eq_none_iff {body model : Entries Str Json} :
    autoId body model = none ↔ ¬ AutoEligible body model := by
  constructor
  · rintro hnone ⟨id, hid, heligible⟩
    rw [autoId_eq_some_iff.mpr ⟨⟨id, hid, heligible⟩, hid⟩] at hnone
    cases hnone
  · intro hno
    refine Option.eq_none_iff_forall_ne_some.mpr fun name hname => ?_
    exact hno (autoId_eq_some_iff.mp hname).1

theorem autoModel_eq (body : Entries Str Json) :
    autoModel body = (objects (registryModelList body)).findSome? (autoId body) := by
  cases hproviders : Json.field body "providers" with
  | null | bool _ | int _ | float _ | str _ | obj _ =>
      rw [autoModel, hproviders]
      refine (List.findSome?_eq_none_iff.mpr fun model _ => ?_).symm
      rw [autoId_eq_none_iff]
      intro heligible
      obtain ⟨providers, harr⟩ := providers_of_eligible heligible
      cases hproviders.symm.trans harr
  | arr providers =>
      rw [autoModel, hproviders]
      change (objects (registryModelList body)).findSome? _ = _
      congr 1
      ext1 model
      rw [autoId, hproviders]
      cases (Json.field model "id").str? with
      | none => rfl
      | some id =>
          simp only [Option.filter, listOr, Bool.and_eq_true, decide_eq_true_eq]
          exact if_congr Iff.rfl rfl rfl

/-- The model for `auto` is the identifier of the first eligible record. -/
theorem autoModel_eq_some_iff {body : Entries Str Json} {name : Str} :
    autoModel body = some name ↔
      ∃ model, FirstEligible body model ∧ (Json.field model "id").str? = some name := by
  rw [autoModel_eq, List.findSome?_eq_some_iff]
  constructor
  · rintro ⟨before, model, after, hmodels, hmodel, hbefore⟩
    obtain ⟨heligible, hid⟩ := autoId_eq_some_iff.mp hmodel
    exact ⟨model, ⟨before, after, hmodels, heligible,
      fun other hother => autoId_eq_none_iff.mp (hbefore other hother)⟩, hid⟩
  · rintro ⟨model, ⟨before, after, hmodels, heligible, hbefore⟩, hid⟩
    exact ⟨before, model, after, hmodels, autoId_eq_some_iff.mpr ⟨heligible, hid⟩,
      fun other hother => autoId_eq_none_iff.mpr (hbefore other hother)⟩

/-- A request for `auto` finds a provider: the downstream dispatches the chosen model to an
enabled provider that the automatic choice has seen, and a backend is built for it. -/
def AutoDispatches (U : UnicodeData) (P : Platform) (casefold : Str → Str)
    (body : Entries Str Json) : Prop :=
  ∀ name, autoModel body = some name →
    ∃ model ∈ objects (registryModelList body), (Json.field model "id").str? = some name ∧
      ∃ provider backend, providerForTarget body name = .ok provider ∧
        serves (autoProviderIds body model) provider = true ∧
        providerBackend U P casefold provider = some backend

/-- The first eligible model is served by a provider that the automatic choice has seen,
and that provider has what the backend needs. -/
def AutoServiceable (U : UnicodeData) (P : Platform) (casefold : Str → Str)
    (body : Entries Str Json) : Prop :=
  ∀ model, FirstEligible body model →
    ∃ provider, ServedBy (Json.field body "routing_profiles")
        (listOr (Json.field body "providers")) model provider ∧
      providerIdent provider ∈ autoProviderIds body model ∧ providerIdent provider ≠ [] ∧
      ∃ catalogId protocol wireModel endpoint,
        BackendFields U P casefold provider catalogId protocol wireModel endpoint

/-- The automatic choice and the dispatch agree exactly for such snapshots. -/
theorem autoDispatches_iff (U : UnicodeData) (P : Platform) (casefold : Str → Str)
    {R : FieldReader} {body : Entries Str Json} {registry : CapabilityRegistry}
    (h : capabilityRegistryFromSnapshot R body = some registry) :
    AutoDispatches U P casefold body ↔ AutoServiceable U P casefold body := by
  obtain ⟨records, models, hregistry⟩ := RegistryOf.of_capabilityRegistryFromSnapshot h
  have hlist : objects (registryModelList body) = records := by
    rw [registryModelList, hregistry.document]
    exact RegistryOf.objects_records
  have hdispatch {model : Entries Str Json} (hfirst : FirstEligible body model) {name : Str}
      (hid : (Json.field model "id").str? = some name) :
      providerForTarget body name = providerForModel (Json.field body "routing_profiles")
        (listOr (Json.field body "providers")) model := by
    obtain ⟨before, after, hmodels, heligible, -⟩ := hfirst
    obtain ⟨providers, hproviders⟩ := providers_of_eligible heligible
    have hmem : model ∈ records := by
      rw [← hlist, hmodels]
      exact List.mem_append_right _ List.mem_cons_self
    rw [hregistry.providerForTarget_eq hmem (names_of_id hid) hproviders, hproviders]
    rfl
  constructor
  · intro hauto model hfirst
    obtain ⟨name, hid⟩ : ∃ name, (Json.field model "id").str? = some name := by
      obtain ⟨-, -, -, ⟨name, hid, -⟩, -⟩ := hfirst
      exact ⟨name, hid⟩
    obtain ⟨model', hmodel', hid', provider, backend, htarget, hserves, hbackend⟩ :=
      hauto name (autoModel_eq_some_iff.mpr ⟨model, hfirst, hid⟩)
    have hmem : model ∈ records := by
      obtain ⟨before, after, hmodels, -⟩ := hfirst
      rw [← hlist, hmodels]
      exact List.mem_append_right _ List.mem_cons_self
    obtain rfl : model' = model := by
      rw [hlist] at hmodel'
      have hsame := (hregistry.filter_names hmodel' (names_of_id hid')).symm.trans
        (hregistry.filter_names hmem (names_of_id hid))
      exact (List.cons.inj hsame).1
    rw [hdispatch hfirst hid, providerForModel_eq_ok_iff] at htarget
    obtain ⟨id, hident, hbackend⟩ := Option.bind_eq_some_iff.mp hbackend
    have hident : providerIdent provider = id := by
      rw [providerIdent, hident]
      rfl
    split at hbackend
    · cases hbackend
    · rename_i hne
      refine ⟨provider, htarget, providerIdent_mem hserves, ?_,
        buildLlmBackend_eq_some_iff.mp ⟨backend, hbackend⟩⟩
      rw [hident]
      exact fun hempty => hne (by rw [hempty]; rfl)
  · intro hserviceable name hname
    obtain ⟨model, hfirst, hid⟩ := autoModel_eq_some_iff.mp hname
    obtain ⟨provider, hserved, hseen, hne, hfields⟩ := hserviceable model hfirst
    obtain ⟨backend, hbackend⟩ := buildLlmBackend_eq_some_iff.mpr hfields
    have hmodel : model ∈ objects (registryModelList body) := by
      obtain ⟨before, after, hmodels, -⟩ := hfirst
      rw [hmodels]
      exact List.mem_append_right _ List.mem_cons_self
    refine ⟨model, hmodel, hid, provider, backend, ?_, serves_of_serves hserved.serves hseen, ?_⟩
    · rw [hdispatch hfirst hid]
      exact providerForModel_eq_ok_iff.mpr hserved
    · rw [providerBackend, str?_of_serves hserved.serves]
      simpa [hne] using hbackend

section Sample

/-- A snapshot with one model and one enabled text provider with some more fields. -/
def oneProviderBody (fields : Entries Str Json) : Entries Str Json :=
  [(lit "registry", .obj [(lit "version", .str (lit "1")),
      (lit "models", .arr [.obj [(lit "id", .str (lit "m")), (lit "provider_id", .str (lit "p")),
        (lit "input_modalities", .arr [.str (lit "text")])]])]),
    (lit "providers", .arr [.obj ([(lit "id", .str (lit "p")), (lit "kind", .str (lit "llm")),
      (lit "enabled", .bool true)] ++ fields)])]

/-- The fields of a provider that can serve. -/
def solarFields : Entries Str Json :=
  [(lit "catalog_id", .str (lit "upstage-solar")),
    (lit "protocol", .str (lit "openai-chat-completions")),
    (lit "endpoint", .str (lit "https://api.upstage.ai/v1")),
    (lit "model_id", .str (lit "solar-pro4"))]

theorem autoDispatches_iff_solar : ∃ registry,
    capabilityRegistryFromSnapshot sampleReader (oneProviderBody solarFields) = some registry ∧
      (AutoDispatches (.ascii id) .sample id (oneProviderBody solarFields) ↔
        AutoServiceable (.ascii id) .sample id (oneProviderBody solarFields)) := by
  have hsome : (capabilityRegistryFromSnapshot sampleReader
      (oneProviderBody solarFields)).isSome = true := by decide +kernel
  obtain ⟨registry, hregistry⟩ := Option.isSome_iff_exists.mp hsome
  exact ⟨registry, hregistry, autoDispatches_iff (.ascii id) .sample id hregistry⟩

/-- A provider without the fields of the catalog is enough for the automatic choice. -/
theorem auto_without_catalog : ∃ registry,
    capabilityRegistryFromSnapshot sampleReader (oneProviderBody []) = some registry ∧
      autoModel (oneProviderBody []) = some (lit "m") ∧
      ¬ AutoDispatches (.ascii id) .sample id (oneProviderBody []) := by
  have hsome : (capabilityRegistryFromSnapshot sampleReader
      (oneProviderBody [])).isSome = true := by decide +kernel
  obtain ⟨registry, hregistry⟩ := Option.isSome_iff_exists.mp hsome
  have hauto : autoModel (oneProviderBody []) = some (lit "m") := by decide +kernel
  have hfails : (providerForTarget (oneProviderBody []) (lit "m")).isOk = false := by
    decide +kernel
  refine ⟨registry, hregistry, hauto, fun hdispatches => ?_⟩
  obtain ⟨model, -, -, provider, backend, htarget, -⟩ := hdispatches _ hauto
  rw [htarget] at hfails
  cases hfails

end Sample

end MediaBridge.Gateway
