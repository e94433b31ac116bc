import MediaBridge.Core.RuntimeSnapshot
import MediaBridge.Foundation.Collect
import MediaBridge.Gateway.ProviderRouting
import Mathlib.Data.Set.List

/-!
# Names in the registry

The gate looks a target up in the capability registry, the downstream in the registry
document of the snapshot. Where the registry has been built, both know the same names,
and a name belongs to one record.
-/

namespace MediaBridge.Gateway

open Foundation MediaBridge.Core ProviderRouting RuntimeSnapshot

/-- The identifier of a record is one of its names. -/
theorem names_of_id {record : Entries Str Json} {name : Str}
    (h : (Json.field record "id").str? = some name) : names record name = true := by
  rw [names, Bool.or_eq_true, decide_eq_true_iff]
  exact .inl h

/-- The entry that is read from a record has its names. -/
structure ReadsAs (record : Entries Str Json) (item : SnapshotModelEntry) : Prop where
  modelId : (Json.field record "id").str? = some item.modelId.value
  names_iff : ∀ name, names record name = true ↔ name ∈ entryIds item

namespace ReadsAs

/-- The aliases of a record are those of its entry. -/
theorem names_iff_of_readAliases {record : Entries Str Json} {aliases : List RegistryId}
    (h : readAliases record = some aliases) (name : Str) :
    names record name = true ↔ (Json.field record "id").str? = some name ∨
      name ∈ aliases.map Constrained.value := by
  rw [names, Bool.or_eq_true, decide_eq_true_iff]
  apply or_congr_right
  unfold readAliases at h
  cases hget : Entries.get? record (lit "aliases") with
  | none =>
      rw [hget] at h
      cases h
      simp [Json.field, hget]
  | some v =>
      rw [hget] at h
      obtain ⟨texts, htexts, haliases⟩ := Option.bind_eq_some_iff.mp h
      have hfield : Json.field record "aliases" = v := by rw [Json.field, hget]; rfl
      rw [hfield]
      cases v with
      | null | bool _ | int _ | float _ | str _ | obj _ => cases htexts
      | arr items =>
          have hvalue (text : Str) (name : RegistryId)
              (hname : Constrained.validate 128 registryIdPattern text = some name) :
              name.value = id text := Constrained.value_of_validate hname
          rw [map_eq_of_mapM haliases hvalue, List.map_id, mem_iff_of_mapM htexts]
          simp only [List.any_eq_true, decide_eq_true_eq]

/-- A record that can be read has the names of its entry. -/
theorem of_readEntry {R : FieldReader} {v : Json} {item : SnapshotModelEntry}
    (h : readEntry R v = some item) : ∃ record, v = .obj record ∧ ReadsAs record item := by
  obtain ⟨record, hrecord, h⟩ := Option.bind_eq_some_iff.mp h
  have hv : v = .obj record := by
    cases v with
    | obj fields =>
        cases hrecord
        rfl
    | null | bool _ | int _ | float _ | str _ | arr _ => cases hrecord
  refine ⟨record, hv, ?_⟩
  split at h
  · cases h
  · obtain ⟨rawId, hrawId, h⟩ := Option.bind_eq_some_iff.mp h
    obtain ⟨modelId, hmodelId, h⟩ := Option.bind_eq_some_iff.mp h
    obtain ⟨providerId, -, h⟩ := Option.bind_eq_some_iff.mp h
    obtain ⟨routingProfileId, -, h⟩ := Option.bind_eq_some_iff.mp h
    obtain ⟨aliases, haliases, h⟩ := Option.bind_eq_some_iff.mp h
    obtain ⟨modalities, -, h⟩ := Option.bind_eq_some_iff.mp h
    obtain ⟨expiresAt, -, h⟩ := Option.bind_eq_some_iff.mp h
    obtain ⟨verified, -, h⟩ := Option.bind_eq_some_iff.mp h
    obtain ⟨effort, -, h⟩ := Option.bind_eq_some_iff.mp h
    have hid : (Json.field record "id").str? = some modelId.value := by
      rw [hrawId, Constrained.value_of_validate hmodelId]
    split at h
    · cases h
      refine ⟨hid, fun name => ?_⟩
      rw [names_iff_of_readAliases haliases, hid, entryIds, List.mem_cons, Option.some_inj]
      exact or_congr_left eq_comm
    · cases h

end ReadsAs

/-- The registry document of a body and the registry that is built from it. -/
structure RegistryOf (R : FieldReader) (body : Entries Str Json) (registry : CapabilityRegistry)
    (records : List (Entries Str Json)) (models : List SnapshotModelEntry) : Prop where
  document : registryModels body = some (records.map .obj)
  entries : records.mapM (fun record => readEntry R (.obj record)) = some models
  capabilities : registry.capabilities = capabilities models

namespace RegistryOf

/-- Where a registry has been built, there is such a document. -/
theorem of_capabilityRegistryFromSnapshot {R : FieldReader} {body : Entries Str Json}
    {registry : CapabilityRegistry} (h : capabilityRegistryFromSnapshot R body = some registry) :
    ∃ records models, RegistryOf R body registry records models := by
  obtain ⟨document, hdocument, h⟩ := Option.bind_eq_some_iff.mp h
  obtain ⟨fields, hfields, hdocument⟩ := Option.bind_eq_some_iff.mp hdocument
  have hregistry : Json.field body "registry" = .obj fields := by
    cases hfield : Json.field body "registry" with
    | obj fields' =>
        rw [hfield] at hfields
        cases hfields
        rfl
    | null | bool _ | int _ | float _ | str _ | arr _ =>
        rw [hfield] at hfields
        cases hfields
  split at hdocument
  · cases hdocument
  · obtain ⟨rawVersion, -, hdocument⟩ := Option.bind_eq_some_iff.mp hdocument
    obtain ⟨version, -, hdocument⟩ := Option.bind_eq_some_iff.mp hdocument
    split at hdocument
    · rename_i items hitems
      obtain ⟨models, hmodels, hdocument⟩ := Option.bind_eq_some_iff.mp hdocument
      split at hdocument
      · cases hdocument
        have hobjects : items ∈ Set.range (List.map Json.obj) := by
          rw [Set.range_list_map]
          intro v hv
          obtain ⟨item, -, hitem⟩ := exists_of_mapM hmodels hv
          obtain ⟨record, hrecord, -⟩ := ReadsAs.of_readEntry hitem
          exact ⟨record, hrecord.symm⟩
        obtain ⟨records, rfl⟩ := hobjects
        have hcapabilities : registry.capabilities = RuntimeSnapshot.capabilities models := by
          unfold CapabilityRegistry.build at h
          split at h
          · cases h
            rfl
          · cases h
        refine ⟨records, models, ?_, ?_, hcapabilities⟩
        · rw [registryModels, hregistry]
          simp only [hitems]
        · rw [List.mapM_map] at hmodels
          exact hmodels
      · cases hdocument
    · cases hdocument

variable {R : FieldReader} {body : Entries Str Json} {registry : CapabilityRegistry}
  {records : List (Entries Str Json)} {models : List SnapshotModelEntry}
  (h : RegistryOf R body registry records models)
include h

omit h in
theorem objects_records : objects (records.map .obj) = records := by
  rw [objects, List.filterMap_map]
  exact List.filterMap_some

omit h in
/-- The names that are read from a record. -/
def readNames (R : FieldReader) (record : Entries Str Json) : List Str :=
  ((readEntry R (.obj record)).map entryIds).getD []

omit h in
theorem readNames_of_readEntry {record : Entries Str Json} {item : SnapshotModelEntry}
    (hitem : readEntry R (.obj record) = some item) : readNames R record = entryIds item := by
  rw [readNames, hitem]
  rfl

/-- The names of a record are those that are read from it. -/
theorem names_iff {record : Entries Str Json} (hrecord : record ∈ records) (name : Str) :
    names record name = true ↔ name ∈ readNames R record := by
  obtain ⟨item, -, hitem⟩ := exists_of_mapM h.entries hrecord
  obtain ⟨_, ⟨⟩, hreads⟩ := ReadsAs.of_readEntry hitem
  rw [readNames_of_readEntry hitem]
  exact hreads.names_iff name

/-- The registry has the names of all records. -/
theorem modelIds_eq : registry.capabilities.map ModelCapability.modelId =
    records.flatMap (readNames R) := by
  have hnames : records.map (readNames R) = models.map entryIds :=
    (map_eq_of_mapM h.entries fun _ _ hitem => (readNames_of_readEntry hitem).symm).symm
  calc
    registry.capabilities.map ModelCapability.modelId = models.flatMap entryIds := by
      rw [h.capabilities, RuntimeSnapshot.capabilities, List.map_flatMap]
      refine List.flatMap_congr fun item _ => ?_
      rw [List.map_map]
      exact List.map_id _
    _ = (models.map entryIds).flatten := List.flatMap_def ..
    _ = records.flatMap (readNames R) := by rw [← hnames, List.flatMap_def]

/-- A name belongs to one record. -/
theorem filter_names {record : Entries Str Json} (hrecord : record ∈ records) {name : Str}
    (hname : names record name = true) :
    (objects (records.map .obj)).filter (names · name) = [record] := by
  have hnodup : (records.flatMap (readNames R)).Nodup := by
    rw [← h.modelIds_eq]
    exact registry.modelIds_nodup
  rw [objects_records, ← filter_eq_singleton hnodup hrecord ((h.names_iff hrecord name).mp hname)]
  refine List.filter_congr fun other hother => ?_
  rw [Bool.eq_iff_iff, decide_eq_true_iff]
  exact h.names_iff hother name

/-- A name that the registry does not know belongs to no record. -/
theorem filter_names_of_lookup_none {name : Str} (hname : registry.lookup name = none) :
    (objects (records.map .obj)).filter (names · name) = [] := by
  rw [objects_records]
  apply List.filter_eq_nil_iff.mpr
  intro record hrecord hnames
  have hmem : name ∈ registry.capabilities.map ModelCapability.modelId := by
    rw [h.modelIds_eq]
    exact List.mem_flatMap.mpr ⟨record, hrecord, (h.names_iff hrecord name).mp hnames⟩
  obtain ⟨c, hc, hid⟩ := List.mem_map.mp hmem
  exact List.find?_eq_none.mp hname c hc (decide_eq_true hid)

/-- A name that the registry knows is a name of the record of its entry. -/
theorem exists_of_lookup {name : Str} {c : ModelCapability}
    (hname : registry.lookup name = some c) :
    ∃ record ∈ records, ∃ item, readEntry R (.obj record) = some item ∧
      names record name = true ∧ c = entryCapability item name := by
  have hc := List.mem_of_find?_eq_some hname
  have hid := List.find?_some hname
  rw [h.capabilities, RuntimeSnapshot.capabilities, List.mem_flatMap] at hc
  obtain ⟨item, hitem, hc⟩ := hc
  obtain ⟨name', hname', rfl⟩ := List.mem_map.mp hc
  obtain rfl : name' = name := of_decide_eq_true hid
  obtain ⟨record, hrecord, hread⟩ := (mem_iff_of_mapM h.entries).mp hitem
  refine ⟨record, hrecord, item, hread, (h.names_iff hrecord name').mpr ?_, rfl⟩
  rw [readNames_of_readEntry hread]
  exact hname'

/-- The downstream looks a name up in its record. -/
theorem providerForTarget_eq {record : Entries Str Json} (hrecord : record ∈ records)
    {name : Str} (hname : names record name = true) {providers : List Json}
    (hproviders : Json.field body "providers" = .arr providers) :
    providerForTarget body name =
      providerForModel (Json.field body "routing_profiles") providers record := by
  simp only [providerForTarget, h.document, hproviders, h.filter_names hrecord hname]

/-- The downstream has no provider for a name that the registry does not know. -/
theorem providerForTarget_of_lookup_none {name : Str} (hname : registry.lookup name = none) :
    providerForTarget body name = .error noUniqueProvider := by
  rw [providerForTarget, h.document]
  split
  · rename_i heq hproviders
    cases heq
    rw [h.filter_names_of_lookup_none hname]
  · rfl

end RegistryOf

end MediaBridge.Gateway
