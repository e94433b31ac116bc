import MediaBridge.Control.ConfigurationIntegrity

/-!
# Updates of one field

An update of one field of a stored provider, routing profile or model: to the value that the field
has, or to one with which a creation of the row would be accepted.

## Implementation notes

The row is compared with the request that has its own values. What a field is set to is what its
column holds of the new value; an update of a model also clears the expiry.
-/

namespace MediaBridge.Control

open Foundation MediaBridge.Core Gateway ConfigurationTables

section Providers

/-- A field of a provider, with a value. -/
inductive ProviderField
  | name (value : Str)
  | aliasName (value : Str)
  | kind (value : ProviderKind)
  | catalogId (value : Str)
  | modelId (value : Str)
  | endpoint (value : Str)
  | protocol (value : Str)
  | capabilities (value : List ProviderCapability)
  | secretRef (value : SecretReference)
  | apiKey (value : Str)
  | reasoningEffort (value : ReasoningEffort)
  | enabled (value : Bool)

/-- The protocol of a request, or the one of its catalog entry. -/
def ProviderFields.protocolOr (request : ProviderFields) : Option Str :=
  request.protocol.or ((request.catalogId.bind ProviderCatalog.entry?).map fun e => e.protocol)

/-- The capabilities of a request, or those of its catalog entry. -/
def ProviderFields.capabilitiesOr (request : ProviderFields) : List ProviderCapability :=
  if request.capabilities.isEmpty then
    ((request.catalogId.bind ProviderCatalog.entry?).map fun e => e.capabilities).getD []
  else request.capabilities

namespace ProviderField

/-- The update of the field alone. -/
def changes : ProviderField → ProviderChanges
  | .name value => { name := some value }
  | .aliasName value => { aliasName := some value }
  | .kind value => { kind := some value }
  | .catalogId value => { catalogId := some value }
  | .modelId value => { modelId := some value }
  | .endpoint value => { endpoint := some value }
  | .protocol value => { protocol := some value }
  | .capabilities value => { capabilities := some value }
  | .secretRef value => { secretRef := some value }
  | .apiKey value => { apiKey := some value }
  | .reasoningEffort value => { reasoningEffort := some value }
  | .enabled value => { enabled := some value }

/-- A request with the value in the field. -/
def on (fields : ProviderFields) : ProviderField → ProviderFields
  | .name value => { fields with name := value }
  | .aliasName value => { fields with aliasName := some value }
  | .kind value => { fields with kind := value }
  | .catalogId value => { fields with catalogId := some value }
  | .modelId value => { fields with modelId := some value }
  | .endpoint value => { fields with endpoint := value }
  | .protocol value => { fields with protocol := some value }
  | .capabilities value => { fields with capabilities := value }
  | .secretRef value => { fields with secretRef := value }
  | .apiKey value => { fields with apiKey := some value }
  | .reasoningEffort value => { fields with reasoningEffort := value }
  | .enabled value => { fields with enabled := value }

/-- A row with the value in the column of the field. -/
def set (C : ConfigurationContext) (draw : Bytes) (row : Provider) : ProviderField → Provider
  | .name value => { row with name := value }
  | .aliasName value => { row with aliasName := some value }
  | .kind value => { row with kind := value }
  | .catalogId value => { row with catalogId := some value }
  | .modelId value => { row with modelId := some value }
  | .endpoint value => { row with endpoint := value }
  | .protocol value => { row with protocol := some value }
  | .capabilities value => { row with
      capabilities :=
        sortedCapabilities { row.fields with capabilities := value }.capabilitiesOr }
  | .secretRef value => { row with secretRef := value }
  | .apiKey value => { row with encryptedApiKey := some (C.encryptSecret draw value) }
  | .reasoningEffort value => { row with reasoningEffort := storedEffort value }
  | .enabled value => { row with enabled := value }

/-- The field of the row has the value. -/
def Own (C : ConfigurationContext) (row : Provider) : ProviderField → Prop
  | .name value => row.name = value
  | .aliasName value => row.aliasName = some value
  | .kind value => row.kind = value
  | .catalogId value => row.catalogId = some value
  | .modelId value => row.modelId = some value
  | .endpoint value => row.endpoint = value
  | .protocol value => row.protocol = some value
  | .capabilities value => row.capabilities = sortedCapabilities value
  | .secretRef value => row.secretRef = value
  | .apiKey value => ∃ draw, row.encryptedApiKey = some (C.encryptSecret draw value)
  | .reasoningEffort value => row.reasoningEffort = storedEffort value
  | .enabled value => row.enabled = value

/-- No other column of the row follows the field: a key makes the reference one to the database, and
a catalog entry fills in a missing protocol and missing capabilities. -/
def Separate (row : Provider) : ProviderField → Prop
  | .apiKey _ => row.secretRef = databaseReference
  | .catalogId _ => row.catalogId.isSome = true ∨
      row.protocol.isSome = true ∧ row.capabilities ≠ []
  | .name _ => True
  | .aliasName _ => True
  | .kind _ => True
  | .modelId _ => True
  | .endpoint _ => True
  | .protocol _ => True
  | .capabilities _ => True
  | .secretRef _ => True
  | .reasoningEffort _ => True
  | .enabled _ => True

/-- The alias of the row, with the value in the field, is one that a request may have. -/
def AliasFits (row : Provider) (field : ProviderField) : Prop :=
  ((field.on row.fields).aliasName.all providerAliasPattern) = true

/-- A creation of the row, with the value in the field, would be accepted beside the other rows. -/
def Creates (C : ConfigurationContext) (T : ConfigurationTables) (row : Provider)
    (field : ProviderField) : Prop :=
  (field.on row.fields).Valid ∧ ∃ draw T',
    createProvider C { T with providers := T.otherProviders row.id } row.id (field.on row.fields)
      draw = .ok T'

end ProviderField

variable {C : ConfigurationContext} {request : ProviderFields} {values : ProviderColumns}
  {row : Provider}

theorem candidate_providerChanges (field : ProviderField) (row : Provider) :
    field.changes.candidate row = field.on row.fields := by
  cases field <;> rfl

theorem catalogDefaults_eq {protocol model : Option Str} {capabilities : List ProviderCapability}
    (h : catalogDefaults request = .ok (protocol, capabilities, model)) :
    protocol = request.protocolOr ∧ capabilities = request.capabilitiesOr := by
  unfold catalogDefaults at h
  unfold ProviderFields.protocolOr ProviderFields.capabilitiesOr
  cases hcatalog : request.catalogId with
  | none =>
      simp only [hcatalog] at h
      cases h
      refine ⟨(Option.or_none).symm, ?_⟩
      split
      · next hnil => exact List.isEmpty_iff.mp hnil
      · rfl
  | some catalogId =>
      simp only [hcatalog] at h
      rw [Option.bind_some]
      cases hentry : ProviderCatalog.entry? catalogId with
      | none =>
          rw [hentry] at h
          cases h
      | some entry =>
          simp only [hentry] at h
          split at h
          · cases h
          · cases h
            exact ⟨rfl, rfl⟩

/-- The columns of a request. -/
def ProviderFields.columns (C : ConfigurationContext) (request : ProviderFields) :
    ProviderColumns where
  name := request.name
  aliasName := some (request.aliasName.getD
    (providerAlias C.unicode (request.catalogId.getD request.name)))
  kind := request.kind
  catalogId := request.catalogId
  modelId := request.modelId
  endpoint := request.endpoint
  protocol := request.protocolOr
  capabilities := sortedCapabilities request.capabilitiesOr
  secretRef := if request.apiKey.isSome then databaseReference else request.secretRef
  reasoningEffort := storedEffort request.reasoningEffort
  enabled := request.enabled

theorem providerValues_eq (h : providerValues C request = .ok values) :
    values = request.columns C := by
  unfold providerValues at h
  split at h
  · cases h
  · next hdefaults =>
      obtain ⟨rfl, rfl⟩ := catalogDefaults_eq hdefaults
      split at h
      · cases h
      · cases h
        rfl

/-- The entry of a provider that has one. -/
theorem entry?_of_values {catalogId : Str} (h : providerValues C request = .ok values)
    (hcatalog : request.catalogId = some catalogId) :
    ∃ entry, ProviderCatalog.entry? catalogId = some entry := by
  cases hentry : ProviderCatalog.entry? catalogId with
  | some entry => exact ⟨entry, rfl⟩
  | none =>
      unfold providerValues catalogDefaults at h
      simp only [hcatalog, hentry] at h
      cases h

/-- A request with a catalog entry has a protocol and capabilities. -/
theorem filled_of_values (h : providerValues C request = .ok values)
    (hcatalog : request.catalogId.isSome = true) :
    values.protocol.isSome = true ∧ values.capabilities ≠ [] := by
  obtain ⟨catalogId, hid⟩ := Option.isSome_iff_exists.mp hcatalog
  obtain ⟨entry, hentry⟩ := entry?_of_values h hid
  have hfound : request.catalogId.bind ProviderCatalog.entry? = some entry := by
    rw [hid, Option.bind_some, hentry]
  rw [providerValues_eq h]
  constructor
  · change request.protocolOr.isSome = true
    rw [ProviderFields.protocolOr, hfound, Option.map_some, Option.isSome_or,
      Option.isSome_some, Bool.or_true]
  · change sortedCapabilities request.capabilitiesOr ≠ []
    have hnot : request.capabilitiesOr.isEmpty = false := by
      unfold ProviderFields.capabilitiesOr
      rw [hfound]
      split
      · simpa using (entry?_sound hentry).1
      · next hne => simpa using hne
    rw [ne_eq, ← List.isEmpty_iff, isEmpty_sortedCapabilities, hnot]
    exact Bool.false_ne_true

/-- A provider with a catalog entry has a protocol and capabilities. -/
theorem filled_of_catalog (hrow : row.Stored C) (hcatalog : row.catalogId.isSome = true) :
    row.protocol.isSome = true ∧ row.capabilities ≠ [] :=
  filled_of_values hrow.values hcatalog

/-- A request with a protocol and capabilities takes nothing from a catalog entry. -/
theorem protocolOr_of_isSome (h : request.protocol.isSome = true) :
    request.protocolOr = request.protocol := by
  obtain ⟨protocol, hprotocol⟩ := Option.isSome_iff_exists.mp h
  rw [ProviderFields.protocolOr, hprotocol, Option.some_or]

theorem capabilitiesOr_of_ne_nil (h : request.capabilities ≠ []) :
    request.capabilitiesOr = request.capabilities := by
  unfold ProviderFields.capabilitiesOr
  rw [if_neg]
  rw [List.isEmpty_iff]
  exact h

/-- A row with the value in a field has the columns of the request with the value. -/
theorem columns_on (hrow : row.Stored C) (field : ProviderField) (hseparate : field.Separate row)
    (draw : Bytes) :
    (field.set C draw row).toProviderColumns = (field.on row.fields).columns C := by
  have hcolumns : row.toProviderColumns = row.fields.columns C := providerValues_eq hrow.values
  obtain ⟨text, htext, -⟩ := hrow.slug
  have halias : ∀ other, row.fields.aliasName.getD other = text := by
    intro other
    change row.aliasName.getD other = text
    rw [htext, Option.getD_some]
  cases field with
  | name value =>
      change { row.toProviderColumns with name := value } = _
      rw [hcolumns]
      unfold ProviderFields.columns
      simp only [ProviderField.on, halias]
      rfl
  | aliasName value =>
      change { row.toProviderColumns with aliasName := some value } = _
      rw [hcolumns]
      rfl
  | kind value =>
      change { row.toProviderColumns with kind := value } = _
      rw [hcolumns]
      rfl
  | catalogId value =>
      obtain ⟨hprotocol, hcapabilities⟩ : row.protocol.isSome = true ∧ row.capabilities ≠ [] :=
        hseparate.elim (filled_of_catalog hrow) id
      have hother : ∀ request : ProviderFields, request.protocol = row.protocol →
          request.capabilities = row.capabilities →
            request.protocolOr = row.protocol ∧ request.capabilitiesOr = row.capabilities := by
        intro request hp hc
        rw [← hp] at hprotocol ⊢
        rw [← hc] at hcapabilities ⊢
        exact ⟨protocolOr_of_isSome hprotocol, capabilitiesOr_of_ne_nil hcapabilities⟩
      obtain ⟨hp, hc⟩ := hother row.fields rfl rfl
      obtain ⟨hp', hc'⟩ := hother ((ProviderField.catalogId value).on row.fields) rfl rfl
      change { row.toProviderColumns with catalogId := some value } = _
      rw [hcolumns]
      unfold ProviderFields.columns
      rw [hp, hc, hp', hc']
      simp only [ProviderField.on, halias]
      rfl
  | modelId value =>
      change { row.toProviderColumns with modelId := some value } = _
      rw [hcolumns]
      rfl
  | endpoint value =>
      change { row.toProviderColumns with endpoint := value } = _
      rw [hcolumns]
      rfl
  | protocol value =>
      change { row.toProviderColumns with protocol := some value } = _
      rw [hcolumns]
      rfl
  | capabilities value =>
      change { row.toProviderColumns with
        capabilities :=
          sortedCapabilities { row.fields with capabilities := value }.capabilitiesOr } = _
      rw [hcolumns]
      rfl
  | secretRef value =>
      change { row.toProviderColumns with secretRef := value } = _
      rw [hcolumns]
      rfl
  | apiKey value =>
      have href : row.fields.secretRef = databaseReference := hseparate
      change row.toProviderColumns = _
      rw [hcolumns]
      unfold ProviderFields.columns
      simp only [ProviderField.on, Option.isSome_some, if_true, href]
      congr 1
  | reasoningEffort value =>
      change { row.toProviderColumns with reasoningEffort := storedEffort value } = _
      rw [hcolumns]
      rfl
  | enabled value =>
      change { row.toProviderColumns with enabled := value } = _
      rw [hcolumns]
      rfl

/-- A request is accepted exactly if its catalog entry and its effort are. -/
theorem providerValues_ok_iff : (∃ values, providerValues C request = .ok values) ↔
    ∃ protocol capabilities model,
      catalogDefaults request = .ok (protocol, capabilities, model) ∧
        ¬ (request.reasoningEffort ≠ .providerDefault ∧ ¬ effortSupported C request.kind
          request.catalogId protocol model request.reasoningEffort) := by
  unfold providerValues
  constructor
  · rintro ⟨values, h⟩
    split at h
    · cases h
    · next hdefaults =>
        split at h
        · cases h
        · next heffort => exact ⟨_, _, _, hdefaults, heffort⟩
  · rintro ⟨protocol, capabilities, model, hdefaults, heffort⟩
    rw [hdefaults]
    exact ⟨_, if_neg heffort⟩

/-- No capabilities make a request fail. -/
theorem providerValues_capabilities (h : providerValues C request = .ok values)
    (capabilities : List ProviderCapability) :
    ∃ values', providerValues C { request with capabilities := capabilities } = .ok values' := by
  obtain ⟨protocol, _, model, hdefaults, heffort⟩ := providerValues_ok_iff.mp ⟨values, h⟩
  apply providerValues_ok_iff.mpr
  unfold catalogDefaults at hdefaults ⊢
  cases hcatalog : request.catalogId with
  | none =>
      simp only [hcatalog] at hdefaults heffort ⊢
      cases hdefaults
      exact ⟨_, _, _, rfl, heffort⟩
  | some catalogId =>
      simp only [hcatalog] at hdefaults heffort ⊢
      split at hdefaults
      · cases hdefaults
      · split at hdefaults
        · cases hdefaults
        · next hkind =>
            cases hdefaults
            exact ⟨_, _, _, if_neg hkind, heffort⟩

/-- No key makes a request fail. -/
theorem providerValues_apiKey (h : providerValues C request = .ok values) (key : Str) :
    ∃ values', providerValues C { request with apiKey := some key } = .ok values' := by
  obtain ⟨protocol, capabilities, model, hdefaults, heffort⟩ :=
    providerValues_ok_iff.mp ⟨values, h⟩
  exact providerValues_ok_iff.mpr ⟨protocol, capabilities, model, hdefaults, heffort⟩

/-- The request with the value that a field has, but for the two that a request may have otherwise
than the row. -/
theorem on_of_own {field : ProviderField} (hown : field.Own C row)
    (hkey : ∀ key, field ≠ .apiKey key) (hlist : ∀ list, field ≠ .capabilities list) :
    field.on row.fields = row.fields := by
  cases field with
  | name value =>
      obtain rfl : row.name = value := hown
      rfl
  | aliasName value =>
      change { row.fields with aliasName := some value } = row.fields
      rw [← show row.aliasName = some value from hown]
      rfl
  | kind value =>
      obtain rfl : row.kind = value := hown
      rfl
  | catalogId value =>
      change { row.fields with catalogId := some value } = row.fields
      rw [← show row.catalogId = some value from hown]
      rfl
  | modelId value =>
      change { row.fields with modelId := some value } = row.fields
      rw [← show row.modelId = some value from hown]
      rfl
  | endpoint value =>
      obtain rfl : row.endpoint = value := hown
      rfl
  | protocol value =>
      change { row.fields with protocol := some value } = row.fields
      rw [← show row.protocol = some value from hown]
      rfl
  | capabilities value => exact absurd rfl (hlist value)
  | secretRef value =>
      obtain rfl : row.secretRef = value := hown
      rfl
  | apiKey value => exact absurd rfl (hkey value)
  | reasoningEffort value =>
      have heffort : row.fields.reasoningEffort = value := by
        change row.reasoningEffort.getD .providerDefault = value
        rw [show row.reasoningEffort = storedEffort value from hown, getD_storedEffort]
      change { row.fields with reasoningEffort := value } = row.fields
      rw [← heffort]
  | enabled value =>
      obtain rfl : row.enabled = value := hown
      rfl

/-- The value that a field has is accepted. -/
theorem values_of_own (hrow : row.Stored C) {field : ProviderField} (hown : field.Own C row) :
    ∃ values, providerValues C (field.on row.fields) = .ok values := by
  by_cases hkey : ∃ key, field = .apiKey key
  · obtain ⟨key, rfl⟩ := hkey
    exact providerValues_apiKey hrow.values key
  · by_cases hlist : ∃ list, field = .capabilities list
    · obtain ⟨list, rfl⟩ := hlist
      exact providerValues_capabilities hrow.values list
    · rw [on_of_own hown (not_exists.mp hkey) (not_exists.mp hlist)]
      exact ⟨_, hrow.values⟩

/-- A row with the value that a field has is the row, but for a new ciphertext of the key. -/
theorem set_of_own (hrow : row.Stored C) {field : ProviderField} (hown : field.Own C row)
    (hkey : ∀ key, field ≠ .apiKey key) (draw : Bytes) : field.set C draw row = row := by
  cases field with
  | name value =>
      obtain rfl : row.name = value := hown
      rfl
  | aliasName value =>
      change { row with aliasName := some value } = row
      rw [← show row.aliasName = some value from hown]
  | kind value =>
      obtain rfl : row.kind = value := hown
      rfl
  | catalogId value =>
      change { row with catalogId := some value } = row
      rw [← show row.catalogId = some value from hown]
  | modelId value =>
      change { row with modelId := some value } = row
      rw [← show row.modelId = some value from hown]
  | endpoint value =>
      obtain rfl : row.endpoint = value := hown
      rfl
  | protocol value =>
      change { row with protocol := some value } = row
      rw [← show row.protocol = some value from hown]
  | capabilities value =>
      have hsame : row.capabilities = sortedCapabilities value := hown
      have hfilled : ({ row.fields with capabilities := value } : ProviderFields).capabilitiesOr =
          value := by
        cases value with
        | cons c rest => rfl
        | nil =>
            -- A provider with a catalog entry has capabilities.
            have hnone : row.catalogId = none := by
              rw [← Option.not_isSome_iff_eq_none]
              exact fun hsome => (filled_of_catalog hrow hsome).2 hsame
            change ((row.catalogId.bind ProviderCatalog.entry?).map _).getD [] = []
            rw [hnone]
            rfl
      change { row with capabilities := sortedCapabilities _ } = row
      rw [hfilled, ← hsame]
  | secretRef value =>
      obtain rfl : row.secretRef = value := hown
      rfl
  | apiKey value => exact absurd rfl (hkey value)
  | reasoningEffort value =>
      change { row with reasoningEffort := storedEffort value } = row
      rw [← show row.reasoningEffort = storedEffort value from hown]
  | enabled value =>
      obtain rfl : row.enabled = value := hown
      rfl

theorem aliasPattern_valid {text : Str} (h : providerAliasPattern text = true) :
    Constrained.Valid 64 providerAliasPattern text := by
  cases text with
  | nil => cases h
  | cons c rest =>
      have haccepted := h
      simp only [providerAliasPattern, Bool.and_eq_true, decide_eq_true_eq] at h
      obtain ⟨⟨hlower, hlength⟩, hrest⟩ := h
      refine ⟨Str.encodable_of_ascii ?_, ?_, haccepted⟩
      · intro d hd
        apply isAscii_of_registryChar
        apply registryChar_of_slugChar
        rcases List.mem_cons.mp hd with rfl | hmem
        · unfold slugChar registryHeadChar
          rw [hlower, Bool.true_or, Bool.true_or]
        · exact List.all_eq_true.mp hrest d hmem
      · rw [List.length_cons]
        omega

/-- The request with a valid value in a field is valid, if its alias is. -/
theorem valid_on (hrow : row.Stored C) {field : ProviderField} (hchanges : field.changes.Valid)
    (halias : field.AliasFits row) : (field.on row.fields).Valid := by
  have hold := hrow.valid
  have hfits : ∀ text ∈ (field.on row.fields).aliasName,
      Constrained.Valid 64 providerAliasPattern text := by
    intro text htext
    unfold ProviderField.AliasFits at halias
    rw [Option.mem_def.mp htext] at halias
    exact aliasPattern_valid halias
  refine ⟨?_, hfits, ?_, ?_, ?_, ?_, ?_, ?_⟩
  all_goals cases field
  all_goals first
    | exact hold.name | exact hold.catalogId | exact hold.modelId | exact hold.endpoint
    | exact hold.protocol | exact hold.secretRef | exact hold.apiKey
    | exact hchanges.name _ rfl | exact hchanges.endpoint _ rfl | exact hchanges.secretRef _ rfl
    | exact hchanges.catalogId | exact hchanges.modelId | exact hchanges.protocol
    | exact hchanges.apiKey

theorem id_set (field : ProviderField) (draw : Bytes) (row : Provider) :
    (field.set C draw row).id = row.id := by
  cases field <;> rfl

/-- What an update of the field writes is the row with the value in the field. -/
theorem updatedProvider_field (hrow : row.Stored C) {field : ProviderField}
    (hvalid : (field.on row.fields).Valid) (hseparate : field.Separate row)
    (hvalues : ∃ values, providerValues C (field.on row.fields) = .ok values) (draw : Bytes) :
    updatedProvider C row field.changes draw = .ok (field.set C draw row) := by
  obtain ⟨values, hvalues⟩ := hvalues
  have hcolumns : values = (field.set C draw row).toProviderColumns :=
    (providerValues_eq hvalues).trans (columns_on hrow field hseparate draw).symm
  unfold updatedProvider
  rw [candidate_providerChanges, if_neg (not_not.mpr hvalid), hvalues, hcolumns]
  cases field <;> rfl

/-- A flush looks at the columns and the identifier. -/
theorem flushProvider_congr {others : List Provider} {a b : Provider}
    (hcolumns : a.toProviderColumns = b.toProviderColumns) (hid : a.id = b.id) :
    flushProvider others a = flushProvider others b := by
  obtain ⟨columns, id, key⟩ := a
  obtain ⟨columns', id', key'⟩ := b
  cases hcolumns
  cases hid
  rfl

variable {T : ConfigurationTables}

/-- A stored row is found by its identifier, and is apart from the others. -/
theorem StoredTables.provider (h : StoredTables C T) (hrow : row ∈ T.providers) :
    T.provider? row.id = some row ∧ ∀ other ∈ T.otherProviders row.id, other.Apart row :=
  Rows.lookup_of_pairwise (fun _ _ happart => happart.symm) (fun _ _ happart => happart.id)
    h.providersApart hrow

/-- An update of one field of a provider. -/
theorem updateProvider_field (h : StoredTables C T) (hrow : row ∈ T.providers)
    {field : ProviderField} (hchanges : field.changes.Valid) (hseparate : field.Separate row)
    (hvalue : (field.Own C row ∧ field.AliasFits row) ∨ field.Creates C T row) (draw : Bytes) :
    T.updateProvider C row.id field.changes draw = .ok (T.putProvider (field.set C draw row)) := by
  have hstored := h.providers row hrow
  obtain ⟨hfound, hapart⟩ := h.provider hrow
  have hvalid : (field.on row.fields).Valid := by
    rcases hvalue with ⟨-, halias⟩ | ⟨hvalid, -⟩
    · exact valid_on hstored hchanges halias
    · exact hvalid
  have hid := id_set (C := C) field draw row
  have hvalues : ∃ values, providerValues C (field.on row.fields) = .ok values := by
    rcases hvalue with ⟨hown, -⟩ | ⟨-, draw', T', hcreate⟩
    · exact values_of_own hstored hown
    · unfold createProvider at hcreate
      split at hcreate
      · cases hcreate
      · next values hvalues => exact ⟨values, hvalues⟩
  have hflush : flushProvider (T.otherProviders row.id) (field.set C draw row) = .ok () := by
    rcases hvalue with ⟨hown, -⟩ | ⟨-, draw', T', hcreate⟩
    · apply (flushProvider_congr ?_ hid).trans
      · exact flushProvider_ok_iff.mpr ⟨hstored.storable, hapart⟩
      · by_cases hkey : ∃ key, field = .apiKey key
        · obtain ⟨key, rfl⟩ := hkey
          rfl
        · rw [set_of_own hstored hown (not_exists.mp hkey)]
    · unfold createProvider at hcreate
      split at hcreate
      · cases hcreate
      · next values hvalues =>
          apply (flushProvider_congr _ _).trans (map_ok hcreate).1
          · exact (columns_on hstored field hseparate draw).trans (providerValues_eq hvalues).symm
          · exact hid
  unfold updateProvider
  rw [hfound]
  simp only [updatedProvider_field hstored hvalid hseparate hvalues draw]
  rw [hflush]
  rfl

/-- Only a field that no other column follows has the columns of the request. -/
theorem separate_of_columns {field : ProviderField} {draw : Bytes}
    (hvalues : providerValues C (field.on row.fields) = .ok values)
    (h : (field.set C draw row).toProviderColumns = values) : field.Separate row := by
  have hcolumns := providerValues_eq hvalues
  cases field with
  | apiKey key =>
      have href : row.secretRef = values.secretRef := congrArg ProviderColumns.secretRef h
      rw [hcolumns] at href
      exact href
  | catalogId value =>
      obtain ⟨hprotocol, hcapabilities⟩ := filled_of_values hvalues rfl
      have hp : ((ProviderField.catalogId value).set C draw row).protocol = values.protocol :=
        congrArg ProviderColumns.protocol h
      have hc : ((ProviderField.catalogId value).set C draw row).capabilities =
          values.capabilities := congrArg ProviderColumns.capabilities h
      rw [← hp] at hprotocol
      rw [← hc] at hcapabilities
      exact .inr ⟨hprotocol, hcapabilities⟩
  | name value => trivial
  | aliasName value => trivial
  | kind value => trivial
  | modelId value => trivial
  | endpoint value => trivial
  | protocol value => trivial
  | capabilities value => trivial
  | secretRef value => trivial
  | reasoningEffort value => trivial
  | enabled value => trivial

/-- What an accepted update of a provider has passed. -/
theorem aliasFits_and_separate (h : StoredTables C T) (hrow : row ∈ T.providers)
    {field : ProviderField} {draw : Bytes}
    (hupdate : T.updateProvider C row.id field.changes draw =
      .ok (T.putProvider (field.set C draw row))) : field.AliasFits row ∧ field.Separate row := by
  obtain ⟨hfound, -⟩ := h.provider hrow
  unfold updateProvider at hupdate
  rw [hfound] at hupdate
  simp only at hupdate
  split at hupdate
  · cases hupdate
  · next row' hrow' =>
      obtain ⟨-, hput⟩ := map_ok hupdate
      unfold updatedProvider at hrow'
      rw [candidate_providerChanges] at hrow'
      split at hrow'
      · cases hrow'
      · next hvalid =>
          split at hrow'
          · cases hrow'
          · next values hvalues =>
              cases hrow'
              constructor
              · unfold ProviderField.AliasFits
                rw [Option.all_eq_true]
                exact fun text htext => ((not_not.mp hvalid).aliasName text htext).2.2
              · have hwritten : field.set C draw row = { values with
                    id := row.id
                    encryptedApiKey := (field.changes.apiKey.map (C.encryptSecret draw)).or
                      row.encryptedApiKey } :=
                  Rows.eq_of_put hrow (id_set (C := C) field draw row).symm rfl
                    (congrArg ConfigurationTables.providers hput)
                exact separate_of_columns hvalues (congrArg Provider.toProviderColumns hwritten)

/-- An update of one field of a provider changes the field alone exactly if the alias is one that
a request may have and no other column follows the field. -/
theorem updateProvider_field_iff (h : StoredTables C T) (hrow : row ∈ T.providers)
    {field : ProviderField} (hchanges : field.changes.Valid)
    (hvalue : field.Own C row ∨ field.Creates C T row) (draw : Bytes) :
    T.updateProvider C row.id field.changes draw = .ok (T.putProvider (field.set C draw row)) ↔
      field.AliasFits row ∧ field.Separate row := by
  refine ⟨aliasFits_and_separate h hrow, ?_⟩
  rintro ⟨halias, hseparate⟩
  exact updateProvider_field h hrow hchanges hseparate (hvalue.imp_left fun hown => ⟨hown, halias⟩)
    draw

end Providers

section Profiles

/-- A field of a routing profile, with a value. -/
inductive ProfileField
  | name (value : Str)
  | analysisProviderIds (value : List Uuid)
  | llmProviderIds (value : List Uuid)
  | strategy (value : RoutingStrategy)
  | enabled (value : Bool)

namespace ProfileField

/-- The update of the field alone. -/
def changes : ProfileField → ProfileChanges
  | .name value => { name := some value }
  | .analysisProviderIds value => { analysisProviderIds := some value }
  | .llmProviderIds value => { llmProviderIds := some value }
  | .strategy value => { strategy := some value }
  | .enabled value => { enabled := some value }

/-- A request with the value in the field. -/
def on (fields : ProfileFields) : ProfileField → ProfileFields
  | .name value => { fields with name := value }
  | .analysisProviderIds value => { fields with analysisProviderIds := value }
  | .llmProviderIds value => { fields with llmProviderIds := value }
  | .strategy value => { fields with strategy := value }
  | .enabled value => { fields with enabled := value }

/-- A row with the value in the column of the field. -/
def set (row : RoutingProfile) (field : ProfileField) : RoutingProfile :=
  { row with toProfileFields := field.on row.toProfileFields }

/-- The field of the row has the value. -/
def Own (row : RoutingProfile) (field : ProfileField) : Prop :=
  field.on row.toProfileFields = row.toProfileFields

/-- A creation of the row, with the value in the field, would be accepted beside the other rows. -/
def Creates (T : ConfigurationTables) (row : RoutingProfile) (field : ProfileField) : Prop :=
  ∃ T', createRoutingProfile { T with routingProfiles := T.otherProfiles row.id } row.id
    (field.on row.toProfileFields) = .ok T'

end ProfileField

variable {C : ConfigurationContext} {T : ConfigurationTables} {row : RoutingProfile}

theorem candidate_profileChanges (field : ProfileField) (row : RoutingProfile) :
    field.changes.candidate row = field.on row.toProfileFields := by
  cases field <;> rfl

/-- The request with a valid value in a field is valid. -/
theorem valid_profileOn (hrow : row.toProfileFields.Valid) {field : ProfileField}
    (hchanges : field.changes.Valid) : (field.on row.toProfileFields).Valid := by
  cases field with
  | name value => exact ⟨hchanges.name value rfl, hrow.analysis, hrow.llm⟩
  | analysisProviderIds value => exact ⟨hrow.name, hchanges.analysis value rfl, hrow.llm⟩
  | llmProviderIds value => exact ⟨hrow.name, hrow.analysis, hchanges.llm value rfl⟩
  | strategy value => exact ⟨hrow.name, hrow.analysis, hrow.llm⟩
  | enabled value => exact ⟨hrow.name, hrow.analysis, hrow.llm⟩

theorem StoredTables.profile (h : StoredTables C T) (hrow : row ∈ T.routingProfiles) :
    T.profile? row.id = some row ∧ ∀ other ∈ T.otherProfiles row.id, other.Apart row :=
  Rows.lookup_of_pairwise (fun _ _ happart => happart.symm) (fun _ _ happart => happart.id)
    h.profilesApart hrow

/-- An update of one field of a profile. -/
theorem updateRoutingProfile_field (h : StoredTables C T) (hrow : row ∈ T.routingProfiles)
    {field : ProfileField} (hchanges : field.changes.Valid)
    (hvalue : (field.Own row ∧ T.checkProviderIds row.toProfileFields = .ok ()) ∨
      field.Creates T row) :
    T.updateRoutingProfile row.id field.changes = .ok (T.putProfile (field.set row)) := by
  obtain ⟨hvalid, hstore⟩ := h.profiles row hrow
  obtain ⟨hfound, hapart⟩ := h.profile hrow
  have hchecked : T.checkProviderIds (field.on row.toProfileFields) = .ok () ∧
      flushProfile (T.otherProfiles row.id) (field.set row) = .ok () := by
    rcases hvalue with ⟨hown, hcheck⟩ | ⟨T', hcreate⟩
    · have hset : field.set row = row := by
        unfold ProfileField.set
        rw [show field.on row.toProfileFields = row.toProfileFields from hown]
      rw [show field.on row.toProfileFields = row.toProfileFields from hown, hset]
      exact ⟨hcheck, flushProfile_ok_iff.mpr ⟨hstore, hapart⟩⟩
    · unfold createRoutingProfile at hcreate
      split at hcreate
      · cases hcreate
      · next hcheck => exact ⟨hcheck, (map_ok hcreate).1⟩
  unfold updateRoutingProfile
  rw [hfound]
  simp only [candidate_profileChanges]
  rw [if_neg (not_not.mpr (valid_profileOn hvalid hchanges)), hchecked.1]
  change (flushProfile _ (field.set row)).map _ = _
  rw [hchecked.2]
  rfl

/-- An update of one field of a profile changes the field alone exactly if the providers that it
lists pass the check. -/
theorem updateRoutingProfile_field_iff (h : StoredTables C T) (hrow : row ∈ T.routingProfiles)
    {field : ProfileField} (hchanges : field.changes.Valid)
    (hvalue : field.Own row ∨ field.Creates T row) :
    T.updateRoutingProfile row.id field.changes = .ok (T.putProfile (field.set row)) ↔
      T.checkProviderIds (field.on row.toProfileFields) = .ok () := by
  constructor
  · intro hupdate
    unfold updateRoutingProfile at hupdate
    rw [(h.profile hrow).1] at hupdate
    simp only [candidate_profileChanges] at hupdate
    split at hupdate
    · cases hupdate
    · split at hupdate
      · cases hupdate
      · next hcheck => exact hcheck
  · intro hcheck
    refine updateRoutingProfile_field h hrow hchanges (hvalue.imp_left fun hown => ⟨hown, ?_⟩)
    rwa [show field.on row.toProfileFields = row.toProfileFields from hown] at hcheck

end Profiles

section Models

/-- A field of a model, with a value. -/
inductive ModelField
  | routingProfileId (value : Uuid)
  | providerId (value : Uuid)
  | modelId (value : Str)
  | aliases (value : List Str)
  | inputModalities (value : List InputModality)
  | evidence (value : Str)
  | reviewedAt (value : Datetime)
  | expiresAt (value : Datetime)
  | pdfPassthroughVerified (value : Bool)
  | reasoningEffort (value : ModelEffort)

namespace ModelField

/-- The update of the field alone. -/
def changes : ModelField → ModelChanges
  | .routingProfileId value => { routingProfileId := some value }
  | .providerId value => { providerId := some value }
  | .modelId value => { modelId := some value }
  | .aliases value => { aliases := some value }
  | .inputModalities value => { inputModalities := some value }
  | .evidence value => { evidence := some value }
  | .reviewedAt value => { reviewedAt := some value }
  | .expiresAt value => { expiresAt := some value }
  | .pdfPassthroughVerified value => { pdfPassthroughVerified := some value }
  | .reasoningEffort value => { reasoningEffort := some value }

/-- A request with the value in the field. -/
def on (fields : ModelFields) : ModelField → ModelFields
  | .routingProfileId value => { fields with routingProfileId := some value }
  | .providerId value => { fields with providerId := some value }
  | .modelId value => { fields with modelId := value }
  | .aliases value => { fields with aliases := value }
  | .inputModalities value => { fields with inputModalities := value }
  | .evidence value => { fields with evidence := some value }
  | .reviewedAt value => { fields with reviewedAt := value }
  | .expiresAt value => { fields with expiresAt := some value }
  | .pdfPassthroughVerified value => { fields with pdfPassthroughVerified := value }
  | .reasoningEffort value => { fields with reasoningEffort := value }

/-- A row with the value in the column of the field, and without an expiry. -/
def set (row : ModelCapability) : ModelField → ModelCapability
  | .routingProfileId value => { row with routingProfileId := some value, expiresAt := none }
  | .providerId value => { row with providerId := some value, expiresAt := none }
  | .modelId value => { row with modelId := value, expiresAt := none }
  | .aliases value => { row with aliases := sortedTexts value, expiresAt := none }
  | .inputModalities value =>
      { row with inputModalities := sortedModalities value, expiresAt := none }
  | .evidence value => { row with evidence := some value, expiresAt := none }
  | .reviewedAt value => { row with reviewedAt := value.instant, expiresAt := none }
  | .expiresAt _ => { row with expiresAt := none }
  | .pdfPassthroughVerified value =>
      { row with pdfPassthroughVerified := value, expiresAt := none }
  | .reasoningEffort value =>
      { row with reasoningEffort := storedModelEffort value, expiresAt := none }

/-- The field of the row has the value. -/
def Own (row : ModelCapability) : ModelField → Prop
  | .routingProfileId value => row.routingProfileId = some value
  | .providerId value => row.providerId = some value
  | .modelId value => row.modelId = value
  | .aliases value => row.aliases = sortedTexts value
  | .inputModalities value => row.inputModalities = sortedModalities value
  | .evidence value => row.evidence = some value
  | .reviewedAt value => row.reviewedAt = value.instant
  | .expiresAt value => row.expiresAt = some value.instant
  | .pdfPassthroughVerified value => row.pdfPassthroughVerified = value
  | .reasoningEffort value => row.reasoningEffort = storedModelEffort value

/-- A creation writes what an update does: the provider is there, and an identifier that a creation
would put under the provider is no other model's. -/
def Separate (T : ConfigurationTables) (row : ModelCapability) : ModelField → Prop
  | .providerId value => (T.provider? value).isSome = true
  | .modelId value => cp 47 ∈ value ∨ ∀ other ∈ T.otherModels row.id, other.modelId ≠ value
  | .routingProfileId _ => True
  | .aliases _ => True
  | .inputModalities _ => True
  | .evidence _ => True
  | .reviewedAt _ => True
  | .expiresAt _ => True
  | .pdfPassthroughVerified _ => True
  | .reasoningEffort _ => True

/-- A creation of the row, with the value in the field, would be accepted beside the other rows. -/
def Creates (C : ConfigurationContext) (T : ConfigurationTables) (row : ModelCapability)
    (field : ModelField) : Prop :=
  (field.on row.fields).Valid ∧ ∃ T',
    createModel C { T with models := T.otherModels row.id } row.id (field.on row.fields) = .ok T'

end ModelField

variable {C : ConfigurationContext} {T : ConfigurationTables} {row : ModelCapability}

theorem candidate_modelChanges (field : ModelField) (row : ModelCapability) :
    field.changes.candidate row = field.on row.fields := by
  cases field <;> rfl

/-- What an update of the field writes is the row with the value in the field. -/
theorem updatedModel_field (hrow : row.Stored) (field : ModelField) :
    updatedModel row (field.on row.fields) = field.set row := by
  have hrewritten := hrow.rewritten
  obtain ⟨id, providerId, profileId, modelId, aliases, modalities, evidence, reviewed, expires, pdf,
    effort⟩ := row
  simp only [updatedModel, ModelCapability.fields, ModelChanges.candidate, Option.getD_none,
    Option.none_or, ModelCapability.mk.injEq] at hrewritten
  cases field <;>
    simp [updatedModel, ModelField.on, ModelField.set, ModelCapability.fields,
      ModelChanges.candidate, hrewritten]

/-- A row with the value that a field has is the row, but for the expiry. -/
theorem set_of_ownModel {field : ModelField} (hown : field.Own row) :
    field.set row = { row with expiresAt := none } := by
  cases field with
  | routingProfileId value =>
      change { row with routingProfileId := some value, expiresAt := none } = _
      rw [← show row.routingProfileId = some value from hown]
  | providerId value =>
      change { row with providerId := some value, expiresAt := none } = _
      rw [← show row.providerId = some value from hown]
  | modelId value =>
      obtain rfl : row.modelId = value := hown
      rfl
  | aliases value =>
      change { row with aliases := sortedTexts value, expiresAt := none } = _
      rw [← show row.aliases = sortedTexts value from hown]
  | inputModalities value =>
      change { row with inputModalities := sortedModalities value, expiresAt := none } = _
      rw [← show row.inputModalities = sortedModalities value from hown]
  | evidence value =>
      change { row with evidence := some value, expiresAt := none } = _
      rw [← show row.evidence = some value from hown]
  | reviewedAt value =>
      change { row with reviewedAt := value.instant, expiresAt := none } = _
      rw [← show row.reviewedAt = value.instant from hown]
  | expiresAt value => rfl
  | pdfPassthroughVerified value =>
      obtain rfl : row.pdfPassthroughVerified = value := hown
      rfl
  | reasoningEffort value =>
      change { row with reasoningEffort := storedModelEffort value, expiresAt := none } = _
      rw [← show row.reasoningEffort = storedModelEffort value from hown]

/-- The request with the value that a field has is valid. -/
theorem valid_modelOn (hrow : row.Stored) {field : ModelField} (hchanges : field.changes.Valid)
    (hown : field.Own row) : (field.on row.fields).Valid := by
  have hold := hrow.valid
  cases field with
  | routingProfileId value => exact { hold with }
  | providerId value => exact { hold with }
  | modelId value => exact { hold with modelId := hchanges.modelId value rfl }
  | aliases value => exact { hold with aliases := hchanges.aliases value rfl }
  | inputModalities value =>
      refine { hold with modalities := hchanges.modalities value rfl, pdf := ?_ }
      intro hpdf
      have hmem : InputModality.pdf ∈ row.inputModalities := hold.pdf hpdf
      rw [show row.inputModalities = sortedModalities value from hown] at hmem
      exact mem_sortedModalities.mp hmem
  | evidence value => exact { hold with evidence := hchanges.evidence }
  | reviewedAt value =>
      refine { hold with reviewed := hchanges.reviewed value rfl, expires := ?_ }
      intro d hd
      have hsame : value.instant = row.reviewedAt := Eq.symm hown
      refine ⟨(hold.expires d hd).1, ?_⟩
      change value.instant < d.instant
      rw [hsame]
      exact (hold.expires d hd).2
  | expiresAt value =>
      refine { hold with expires := ?_ }
      rintro d ⟨⟩
      have hexpiry : row.fields.expiresAt = some (storedDatetime value.instant) := by
        change row.expiresAt.map storedDatetime = _
        rw [show row.expiresAt = some value.instant from hown]
        rfl
      exact ⟨hchanges.expires value rfl, (hold.expires _ hexpiry).2⟩
  | pdfPassthroughVerified value =>
      obtain rfl : row.pdfPassthroughVerified = value := hown
      exact { hold with }
  | reasoningEffort value => exact { hold with }

theorem StoredTables.model (h : StoredTables C T) (hrow : row ∈ T.models) :
    T.model? row.id = some row ∧ ∀ other ∈ T.otherModels row.id, other.Apart row :=
  Rows.lookup_of_pairwise (fun _ _ happart => happart.symm) (fun _ _ happart => happart.id)
    h.modelsApart hrow

/-- A provider that answers passes the check of an update. -/
theorem checkModelProvider_ok {id : Uuid} {provider : Provider}
    (hfound : T.provider? id = some provider) (hkind : provider.kind = .llm) :
    T.checkModelProvider (some id) = .ok () := by
  simp only [checkModelProvider, hfound]
  exact if_pos hkind

/-- The provider that a request for a new model names answers. -/
theorem llm_of_modelProvider {request : ModelFields} {id : Uuid} {provider named : Provider}
    (h : T.modelProvider request = .ok provider) (hid : request.providerId = some id)
    (hnamed : T.provider? id = some named) : named.kind = .llm := by
  simp only [modelProvider, hid, Option.bind_some, hnamed, Option.any_some] at h
  split at h
  · cases h
  · split at h
    · cases h
    · next hkind =>
        by_contra hnot
        exact hkind (decide_eq_true hnot)

/-- A creation that is accepted has passed the checks of an update. -/
theorem checked_of_creates (h : StoredTables C T) (hrow : row ∈ T.models) {field : ModelField}
    (hcreates : field.Creates C T row) (hseparate : field.Separate T row) :
    T.checkModelProvider (field.on row.fields).providerId = .ok () ∧
      T.flushModel (T.otherModels row.id) (field.set row) = .ok () := by
  obtain ⟨hvalid, T', hcreate⟩ := hcreates
  obtain ⟨hfound, hapart⟩ := h.model hrow
  have hstored := h.models row hrow
  have hkeys := Bool.and_eq_true_iff.mp (h.keys row hrow)
  obtain ⟨own, hown⟩ := Option.isSome_iff_exists.mp hstored.provider
  unfold createModel at hcreate
  split at hcreate
  · cases hcreate
  · next provider hprovider =>
      change T.modelProvider (field.on row.fields) = .ok provider at hprovider
      have hflush := (map_ok hcreate).1
      obtain ⟨hstore, hcreated, hcreatedKeys⟩ := flushModel_ok_iff.mp hflush
      have hnamed : ∃ id named, (field.on row.fields).providerId = some id ∧
          T.provider? id = some named := by
        cases field
        case providerId value =>
          obtain ⟨named, hnamed⟩ := Option.isSome_iff_exists.mp hseparate
          exact ⟨value, named, rfl, hnamed⟩
        all_goals
          have hsome : (T.provider? own).isSome = true := by
            have hall := hkeys.1
            rw [hown] at hall
            exact hall
          obtain ⟨named, hnamed⟩ := Option.isSome_iff_exists.mp hsome
          exact ⟨own, named, hown, hnamed⟩
      obtain ⟨id, named, hid, hnamed⟩ := hnamed
      constructor
      · rw [hid]
        exact checkModelProvider_ok hnamed (llm_of_modelProvider hprovider hid hnamed)
      · apply flushModel_ok_iff.mpr
        refine ⟨?_, ?_, ?_⟩
        · rw [← updatedModel_field hstored]
          exact ⟨hvalid.modelId.2.1, hstore.aliases, hstore.evidence⟩
        · intro other hother
          have hold := hapart other hother
          refine ⟨(by cases field <;> exact hold.id), ?_⟩
          cases field
          case modelId value =>
            rcases hseparate with hslash | hothers
            · have hpublic : (createdModel C row.id provider
                  ((ModelField.modelId value).on row.fields)).modelId = value := if_pos hslash
              exact hpublic ▸ (hcreated other hother).modelId
            · exact hothers other hother
          all_goals exact hold.modelId
        · apply Bool.and_eq_true_iff.mpr
          have hprofile := (Bool.and_eq_true_iff.mp hcreatedKeys).2
          cases field
          case providerId value => exact ⟨hseparate, hkeys.2⟩
          case routingProfileId value => exact ⟨hkeys.1, hprofile⟩
          all_goals exact hkeys

/-- An update of one field of a model. -/
theorem updateModel_field (h : StoredTables C T) (hrow : row ∈ T.models)
    (hread : row.readable C = true) {field : ModelField} (hchanges : field.changes.Valid)
    (hvalue : (field.Own row ∧ T.checkModelProvider row.providerId = .ok ()) ∨
      (field.Creates C T row ∧ field.Separate T row)) :
    T.updateModel C row.id field.changes = .ok (T.putModel (field.set row)) := by
  have hstored := h.models row hrow
  obtain ⟨hfound, hapart⟩ := h.model hrow
  have hvalid : (field.on row.fields).Valid := by
    rcases hvalue with ⟨hown, -⟩ | ⟨hcreates, -⟩
    · exact valid_modelOn hstored hchanges hown
    · exact hcreates.1
  have hchecked : T.checkModelProvider (field.on row.fields).providerId = .ok () ∧
      T.flushModel (T.otherModels row.id) (field.set row) = .ok () := by
    rcases hvalue with ⟨hown, hcheck⟩ | ⟨hcreates, hseparate⟩
    · constructor
      · cases field
        case providerId value =>
          rw [show row.providerId = some value from hown] at hcheck
          exact hcheck
        all_goals exact hcheck
      · rw [set_of_ownModel hown]
        apply flushModel_ok_iff.mpr
        refine ⟨?_, fun other hother => ?_, h.keys row hrow⟩
        · exact ⟨hstored.storable.modelId, hstored.storable.aliases, hstored.storable.evidence⟩
        · exact ⟨(hapart other hother).id, (hapart other hother).modelId⟩
    · exact checked_of_creates h hrow hcreates hseparate
  unfold updateModel
  rw [hfound]
  simp only [candidate_modelChanges, updatedModel_field hstored field]
  rw [if_neg (not_not.mpr hread), if_neg (not_not.mpr hvalid), hchecked.1]
  simp only []
  rw [hchecked.2]
  rfl

/-- An update of one field of a model changes the field alone, and the expiry, exactly if the driver
can return its times, its provider passes the check, and it is not given an unknown provider or the
identifier of another model. -/
theorem updateModel_field_iff (h : StoredTables C T) (hrow : row ∈ T.models) {field : ModelField}
    (hchanges : field.changes.Valid) (hvalue : field.Own row ∨ field.Creates C T row) :
    T.updateModel C row.id field.changes = .ok (T.putModel (field.set row)) ↔
      row.readable C = true ∧ T.checkModelProvider (field.on row.fields).providerId = .ok () ∧
        field.Separate T row := by
  constructor
  · intro hupdate
    unfold updateModel at hupdate
    rw [(h.model hrow).1] at hupdate
    simp only [candidate_modelChanges, updatedModel_field (h.models row hrow) field] at hupdate
    split at hupdate
    · cases hupdate
    · next hread =>
        split at hupdate
        · cases hupdate
        · split at hupdate
          · cases hupdate
          · next hcheck =>
              obtain ⟨-, hothers, hkeys⟩ := flushModel_ok_iff.mp (map_ok hupdate).1
              refine ⟨not_not.mp hread, hcheck, ?_⟩
              cases field with
              | providerId value => exact (Bool.and_eq_true_iff.mp hkeys).1
              | modelId value => exact .inr fun other hother => (hothers other hother).modelId
              | routingProfileId value => trivial
              | aliases value => trivial
              | inputModalities value => trivial
              | evidence value => trivial
              | reviewedAt value => trivial
              | expiresAt value => trivial
              | pdfPassthroughVerified value => trivial
              | reasoningEffort value => trivial
  · rintro ⟨hread, hcheck, hseparate⟩
    refine updateModel_field h hrow hread hchanges (hvalue.imp (fun hown => ⟨hown, ?_⟩)
      fun hcreates => ⟨hcreates, hseparate⟩)
    cases field with
    | providerId value => rwa [show row.providerId = some value from hown]
    | modelId value => exact hcheck
    | routingProfileId value => exact hcheck
    | aliases value => exact hcheck
    | inputModalities value => exact hcheck
    | evidence value => exact hcheck
    | reviewedAt value => exact hcheck
    | expiresAt value => exact hcheck
    | pdfPassthroughVerified value => exact hcheck
    | reasoningEffort value => exact hcheck

end Models

section Results

variable (C : ConfigurationContext) (T : ConfigurationTables)

/-- When the updates of one field of the rows of some tables, to the value that the field has or to
one with which a creation would be accepted, are accepted and change that field alone. -/
structure UpdatesClose : Prop where
  oneProvider : ∀ row ∈ T.providers, ∀ field : ProviderField, field.changes.Valid →
    field.Own C row ∨ field.Creates C T row → ∀ draw,
      (T.updateProvider C row.id field.changes draw = .ok (T.putProvider (field.set C draw row)) ↔
        field.AliasFits row ∧ field.Separate row)
  /-- A key is stored as a new ciphertext. -/
  sameProvider : ∀ row ∈ T.providers, ∀ field : ProviderField, field.Own C row →
    (∀ key, field ≠ .apiKey key) → ∀ draw, T.putProvider (field.set C draw row) = T
  oneProfile : ∀ row ∈ T.routingProfiles, ∀ field : ProfileField, field.changes.Valid →
    field.Own row ∨ field.Creates T row →
      (T.updateRoutingProfile row.id field.changes = .ok (T.putProfile (field.set row)) ↔
        T.checkProviderIds (field.on row.toProfileFields) = .ok ())
  sameProfile : ∀ row ∈ T.routingProfiles, ∀ field : ProfileField, field.Own row →
    T.putProfile (field.set row) = T
  oneModel : ∀ row ∈ T.models, ∀ field : ModelField, field.changes.Valid →
    field.Own row ∨ field.Creates C T row →
      (T.updateModel C row.id field.changes = .ok (T.putModel (field.set row)) ↔
        row.readable C = true ∧ T.checkModelProvider (field.on row.fields).providerId = .ok () ∧
          field.Separate T row)
  sameModel : ∀ row ∈ T.models, ∀ field : ModelField, field.Own row →
    field.set row = { row with expiresAt := none }
  provider : ∀ id (request : ProviderUpdate) draw failure,
    (∀ text ∈ request.val.endpoint, Storable text) →
      T.updateProvider C id request draw = .error failure → Refused failure
  profile : ∀ id (request : ProfileUpdate) failure,
    (∀ text ∈ request.val.name, Storable text) →
      T.updateRoutingProfile id request = .error failure → Refused failure
  model : ∀ id (request : ModelUpdate) failure,
    (∀ texts ∈ request.val.aliases, ∀ text ∈ texts, Storable text) →
      (∀ text ∈ request.val.evidence, Storable text) →
        (∀ row ∈ T.model? id, row.readable C = true) →
          T.updateModel C id request = .error failure → Refused failure

variable {C T}

/-- The first sample provider. -/
def sampleProvider : Provider where
  toProviderColumns := (sampleProviderFields "answers" .llm).columns sampleConfiguration
  id := 1
  encryptedApiKey := none

theorem valid_digitFields : (sampleProviderFields "3proxy" .llm).Valid := by decide +kernel

/-- The tables with a provider whose default alias starts with a digit. -/
def digitTables : ConfigurationTables :=
  ({} : ConfigurationTables).after sampleConfiguration
    (.createProvider 1 ⟨_, valid_digitFields⟩ [])

end Results

end MediaBridge.Control
