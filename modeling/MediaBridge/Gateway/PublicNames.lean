import MediaBridge.Core.GateBoundary
import MediaBridge.Gateway.AutoDispatch

/-!
# Names of models, from the request to the provider

What one generation makes of a name: `_resolve_public_request` at the front, the registry
of the gate, and `_provider_for_target` behind it.
-/

namespace MediaBridge.Gateway

open Foundation MediaBridge.Core ProviderRouting RuntimeSnapshot Generation

/-- The registry resolves a name to a capability that is not stale. -/
def Routable (registry : CapabilityRegistry) (now : Instant) (name : Str) : Prop :=
  (registry.resolve name now).state ≠ .unknown ∧ (registry.resolve name now).state ≠ .stale

/-- A request that names a model, with an effort that the gateway takes. -/
structure NamedRequest (payload : Entries Str Json) (name : Str) : Prop where
  model : Json.field payload "model" = .str name
  effort : checkEffort (Json.field payload "reasoning_effort") = .ok ()

/-- The model records of a body. -/
def modelRecords (body : Entries Str Json) : List (Entries Str Json) :=
  objects (registryModelList body)

/-- The provider behind a model record. -/
def RecordServedBy (body record provider : Entries Str Json) : Prop :=
  ServedBy (Json.field body "routing_profiles") (listOr (Json.field body "providers")) record
    provider

/-- How a generation treats names. A routable name belongs to one record, whose provider is
the one that the name is dispatched to; public identifiers are accepted as they are; what is
not registered is not dispatched, and what is not routable is not prepared. -/
structure RoutesNames (generation : GatewayGeneration) (body : Entries Str Json) : Prop where
  dispatched : ∀ now name, Routable generation.gate.registry now name →
    ∃ record, (modelRecords body).filter (names · name) = [record] ∧
      ∀ provider, providerForTarget body name = .ok provider ↔
        RecordServedBy body record provider
  accepted : ∀ record ∈ modelRecords body, ∀ id, (Json.field record "id").str? = some id →
    id ∈ generation.models → id ≠ lit "auto" → ∀ payload, NamedRequest payload id →
      resolvePublicRequest (.obj payload) (some generation) = .ok payload
  listed : Entries.get? body (lit "models") = none → ∀ record ∈ modelRecords body, ∀ id,
    (Json.field record "id").str? = some id → id ∈ generation.models
  unregistered : ∀ name, generation.gate.registry.lookup name = none → ∀ provider,
    providerForTarget body name ≠ .ok provider
  gated : ∀ now signedAt tenantId request outcome,
    generation.gate.prepareForModel now signedAt tenantId request = .ok outcome →
      outcome.prepared ≠ none →
        Routable generation.gate.registry now request.target.registryId.value

/-- A name in the public list is accepted as it is. -/
theorem resolvePublicRequest_of_mem {generation : GatewayGeneration} {name : Str}
    (hmem : name ∈ generation.models) (hauto : name ≠ lit "auto") {payload : Entries Str Json}
    (hnamed : NamedRequest payload name) :
    resolvePublicRequest (.obj payload) (some generation) = .ok payload := by
  have hpublic : namePublicModel payload generation = .ok payload := by
    rw [namePublicModel, hnamed.model]
    simp [Json.isNull, Json.isLit, Json.str?, hauto, hmem]
  rw [resolvePublicRequest]
  simp only [hpublic, bind, Except.bind, hnamed.effort]
  rfl

/-- A routable name is registered. -/
theorem Routable.exists_lookup {registry : CapabilityRegistry} {now : Instant} {name : Str}
    (h : Routable registry now name) : ∃ c, registry.lookup name = some c := by
  cases hlookup : registry.lookup name with
  | none =>
      refine absurd ?_ h.1
      rw [CapabilityRegistry.resolve, hlookup]
  | some c => exact ⟨c, rfl⟩

/-- Nothing is served where there is no list of providers. -/
theorem not_servedBy_nil {profiles : Json} {model provider : Entries Str Json} :
    ¬ ServedBy profiles [] model provider := by
  intro h
  obtain ⟨other, hother, -⟩ := h.chosen.offered
  cases hother

/-- The dispatch of a name goes by its record. -/
theorem RegistryOf.providerForTarget_iff {R : FieldReader} {body : Entries Str Json}
    {registry : CapabilityRegistry} {records : List (Entries Str Json)}
    {models : List SnapshotModelEntry} (h : RegistryOf R body registry records models)
    {record : Entries Str Json} (hrecord : record ∈ records) {name : Str}
    (hname : names record name = true) {provider : Entries Str Json} :
    providerForTarget body name = .ok provider ↔ RecordServedBy body record provider := by
  rw [RecordServedBy]
  cases hproviders : Json.field body "providers" with
  | arr providers =>
      rw [h.providerForTarget_eq hrecord hname hproviders]
      exact providerForModel_eq_ok_iff
  | null | bool _ | int _ | float _ | str _ | obj _ =>
      refine iff_of_false ?_ not_servedBy_nil
      rw [providerForTarget, h.document, hproviders]
      rintro ⟨⟩

/-- The identifier of an entry is not empty. -/
theorem RegistryOf.id_ne_nil {R : FieldReader} {body : Entries Str Json}
    {registry : CapabilityRegistry} {records : List (Entries Str Json)}
    {models : List SnapshotModelEntry} (h : RegistryOf R body registry records models)
    {record : Entries Str Json} (hrecord : record ∈ records) {id : Str}
    (hid : (Json.field record "id").str? = some id) : id ≠ [] := by
  rintro rfl
  obtain ⟨item, -, hitem⟩ := exists_of_mapM h.entries hrecord
  obtain ⟨_, ⟨⟩, hreads⟩ := ReadsAs.of_readEntry hitem
  have haccepted := item.modelId.accepted
  rw [Option.some_inj.mp (hreads.modelId.symm.trans hid)] at haccepted
  cases haccepted

/-- What the gateway builds treats names so. -/
theorem routesNames_of_build {F : GatewayTransactionFactory} {snapshot : SignedSnapshot}
    {generation : GatewayGeneration} (h : F.build snapshot = some generation) :
    RoutesNames generation snapshot.body := by
  obtain ⟨gate, verifier, hgate, -, rfl⟩ := GatewayTransactionFactory.build_eq_some h
  obtain ⟨registry, hregistry, rfl⟩ := Option.map_eq_some_iff.mp hgate
  obtain ⟨records, models, hof⟩ := RegistryOf.of_capabilityRegistryFromSnapshot hregistry
  have hlist : registryModelList snapshot.body = records.map .obj := by
    rw [registryModelList, hof.document]
    rfl
  have hrecords : modelRecords snapshot.body = records := by
    rw [modelRecords, hlist]
    exact RegistryOf.objects_records
  refine ⟨?_, ?_, ?_, ?_, ?_⟩
  · intro now name hroutable
    obtain ⟨c, hlookup⟩ := hroutable.exists_lookup
    obtain ⟨record, hrecord, item, -, hname, -⟩ := hof.exists_of_lookup hlookup
    refine ⟨record, ?_, fun provider => hof.providerForTarget_iff hrecord hname⟩
    rw [modelRecords, hlist]
    exact hof.filter_names hrecord hname
  · intro record hrecord id hid hmem hauto payload hnamed
    exact resolvePublicRequest_of_mem hmem hauto hnamed
  · intro hmodels record hrecord id hid
    rw [hrecords] at hrecord
    change id ∈ publicModels snapshot.body
    rw [publicModels, hmodels, hlist]
    refine List.mem_filterMap.mpr ⟨.obj record, List.mem_map_of_mem hrecord, ?_⟩
    have hne := hof.id_ne_nil hrecord hid
    simp [publicName, hid, Option.filter, hne]
  · intro name hlookup provider htarget
    rw [hof.providerForTarget_of_lookup_none hlookup] at htarget
    cases htarget
  · intro now signedAt tenantId request outcome hprepare hprepared
    obtain ⟨payload, hpayload⟩ := Option.ne_none_iff_exists'.mp hprepared
    exact (PreRequestGate.prepared_of_prepareForModel hprepare hpayload).2

section Sample

/-- A verified snapshot with a body. -/
def sampleSnapshot (body : Entries Str Json) : SignedSnapshot where
  snapshotId := lit "s"
  version := 1
  issuedAt := ⟨0, some 0⟩
  body := body
  digest := ⟨lit "sha256:" ++ List.replicate 64 (cp 48), by decide +kernel, by decide +kernel,
    by decide +kernel⟩
  signature := ⟨lit "ed25519:" ++ List.replicate 86 (cp 65), by decide +kernel,
    by decide +kernel, by decide +kernel⟩
  keyId := ⟨lit "k", by decide +kernel, by decide +kernel, by decide +kernel⟩
  version_pos := by decide
  issued_aware := rfl

theorem routesNames_of_build_solar : ∃ generation,
    sampleRuntime.factory.build (sampleSnapshot (oneProviderBody solarFields)) =
      some generation ∧ RoutesNames generation (oneProviderBody solarFields) := by
  have hsome : (sampleRuntime.factory.build
      (sampleSnapshot (oneProviderBody solarFields))).isSome = true := by decide +kernel
  obtain ⟨generation, hgeneration⟩ := Option.isSome_iff_exists.mp hsome
  exact ⟨generation, hgeneration, routesNames_of_build hgeneration⟩

/-- Every routable name is accepted, and dispatched to the provider of its record. -/
def EveryNameRouted (generation : GatewayGeneration) (body : Entries Str Json) : Prop :=
  ∀ now name, Routable generation.gate.registry now name →
    (∀ payload, NamedRequest payload name →
      resolvePublicRequest (.obj payload) (some generation) = .ok payload) ∧
    ∃ record ∈ modelRecords body, names record name = true ∧
      ∃ provider, providerForTarget body name = .ok provider ∧ RecordServedBy body record provider

/-- A snapshot whose own public list leaves its model out. -/
def unlistedBody : Entries Str Json :=
  oneProviderBody solarFields ++ [(lit "models", .arr [])]

/-- A routable model may have no provider, and it may be left out of the public list. -/
theorem unserved_or_unlisted :
    (∃ generation, sampleRuntime.factory.build (sampleSnapshot sampleRegistryBody) =
        some generation ∧ ¬ EveryNameRouted generation sampleRegistryBody) ∧
      ∃ generation, sampleRuntime.factory.build (sampleSnapshot unlistedBody) =
        some generation ∧ ¬ EveryNameRouted generation unlistedBody := by
  constructor
  · have hbuild : (sampleRuntime.factory.build (sampleSnapshot sampleRegistryBody)).any
        (fun generation => decide ((generation.gate.registry.resolve (lit "m") 0).state =
          .nonVision)) = true := by decide +kernel
    obtain ⟨generation, hgeneration, hstate⟩ := (Option.any_eq_true _ _).mp hbuild
    have hstate := of_decide_eq_true hstate
    refine ⟨generation, hgeneration, fun hrouted => ?_⟩
    obtain ⟨-, record, -, -, provider, htarget, -⟩ := hrouted 0 (lit "m")
      ⟨by rw [hstate]; decide, by rw [hstate]; decide⟩
    have hfails : (providerForTarget sampleRegistryBody (lit "m")).isOk = false := by
      decide +kernel
    rw [htarget] at hfails
    cases hfails
  · have hbuild : (sampleRuntime.factory.build (sampleSnapshot unlistedBody)).any
        (fun generation => decide ((generation.gate.registry.resolve (lit "m") 0).state =
          .nonVision) && !(resolvePublicRequest (.obj [(lit "model", .str (lit "m"))])
            (some generation)).isOk) = true := by decide +kernel
    obtain ⟨generation, hgeneration, hboth⟩ := (Option.any_eq_true _ _).mp hbuild
    obtain ⟨hstate, hrefused⟩ := Bool.and_eq_true_iff.mp hboth
    have hstate := of_decide_eq_true hstate
    refine ⟨generation, hgeneration, fun hrouted => ?_⟩
    have haccepted := (hrouted 0 (lit "m") ⟨by rw [hstate]; decide, by rw [hstate]; decide⟩).1
      [(lit "model", .str (lit "m"))] ⟨rfl, rfl⟩
    rw [haccepted] at hrefused
    cases hrefused

end Sample

end MediaBridge.Gateway
