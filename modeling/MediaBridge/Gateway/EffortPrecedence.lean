import MediaBridge.Gateway.ProviderPayload

/-!
# The effective reasoning effort

A request, the record of its model, the policy of the snapshot and the record of the provider can
each name an effort. The gateway does not read the one of the model, and a default that the
provider does not support makes a request fail.
-/

namespace MediaBridge.Gateway

open Foundation MediaBridge.Core ProviderRouting LlmBackends

namespace ProviderPayload

/-- The level names an effort: it is not absent or empty, and does not leave the choice to the
provider. -/
def names (level : Json) : Bool := level.truthy && !level.isLit "provider_default"

/-- The effort of the first level that names one. -/
def firstNamed (levels : List Json) : Option Json := levels.find? names

/-- The fields that say something about reasoning. -/
def reasoningKeys : List String :=
  ["reasoning", "reasoning_effort", "generationConfig", "thinking", "output_config"]

/-- The table's entry for a provider record. -/
def capabilityOf (casefold : Str → Str) (provider : Entries Str Json) :
    Option ReasoningCapability :=
  let text (key : String) : Str := ((Json.field provider key).str?).getD []
  reasoningCapability casefold (text "catalog_id") (text "protocol") (text "model_id")

/-- A payload says exactly this effort, in the provider's own terms. -/
def Carries (capability : Option ReasoningCapability) (sent : Entries Str Json) :
    Option Json → Prop
  | none => ∀ key ∈ reasoningKeys, Entries.get? sent (lit key) = none
  | some level => ∃ c effort value fields, capability = some c ∧ level = .str effort ∧
      (effort, value) ∈ c.wireValues ∧ wireFields c.wireProtocol value = some fields ∧
      ∀ key ∈ reasoningKeys, Entries.get? sent (lit key) = Entries.get? fields (lit key)

/-- A default, or nothing in its place. -/
def Kept (level level' : Json) : Prop := level' = level ∨ level' = .null

/-- Two records that differ in the effort only. -/
def SameOthers (provider provider' : Entries Str Json) : Prop :=
  ∀ key, key ≠ lit "reasoning_effort" → Entries.get? provider' key = Entries.get? provider key

/-- The record of a provider, or the record without its effort. -/
structure KeptRow (provider provider' : Entries Str Json) : Prop where
  others : SameOthers provider provider'
  effort : Kept (Json.field provider "reasoning_effort") (Json.field provider' "reasoning_effort")

/-- The effort in the record of the model. -/
def modelEffort (body : Entries Str Json) (targetId : Str) : Json :=
  match (objects ((registryModels body).getD [])).filter (ProviderRouting.names · targetId) with
  | [model] => Json.field model "reasoning_effort"
  | _ => .null

/-- The first effort is sent, and no default makes a request fail. -/
structure EffortRespected (C : Context) (body : Entries Str Json) (targetId : Str)
    (payload provider : Entries Str Json) (options : TextGenerationOptions) : Prop where
  first : ∀ sent, invoke C body targetId payload = .ok sent →
    Carries (capabilityOf C.casefold provider) sent
      (firstNamed [Json.field payload "reasoning_effort", modelEffort body targetId,
        policyDefault body, Json.field provider "reasoning_effort"])
  harmless : ∀ default' provider' sent', Kept (policyDefault body) default' →
    KeptRow provider provider' →
    dispatch C (Json.field payload "reasoning_effort") default' provider' options
      (textFromResponsesPayload payload) = .ok sent' →
    ∃ sent, invoke C body targetId payload = .ok sent

/-- A provider record, the credential and the request allow a call, apart from the effort. -/
structure Servable (C : Context) (provider : Entries Str Json) (options : TextGenerationOptions)
    (prompt : Str) : Prop where
  ident : ∃ id, (Json.field provider "id").str? = some id ∧ id.isEmpty = false
  fields : ∃ catalogId protocol model endpoint split,
    filledText provider "catalog_id" = some catalogId ∧
    filledText provider "protocol" = some protocol ∧
    filledText provider "model_id" = some model ∧
    filledText provider "endpoint" = some endpoint ∧
    allowedPair catalogId protocol = true ∧
    endpointFor C.unicode protocol endpoint model = some split ∧
    (specified options = true → protocol = lit "openai-chat-completions" ∨
      protocol = lit "openai-responses")
  prompt : prompt.isEmpty = false
  secret : (C.secret.getD []).strip.isEmpty = false

/-- The table has the effort. -/
def Supported (capability : Option ReasoningCapability) (level : Json) : Prop :=
  ∃ c effort, capability = some c ∧ level = .str effort ∧ effort ∈ c.efforts

/-- The default leaves the choice to the provider's record. -/
def Defers (default : Json) : Prop :=
  default.isNull = true ∨ default.isLit "provider_default" = true

/-- The effort of the first of the two defaults that the gateway reads. -/
def defaultNamed (default row : Json) : Option Json :=
  if default.isNull || default.isLit "provider_default" then
    if names row then some row else none
  else some default

/-- The defaults that the gateway reads are supported. -/
structure DefaultsSupported (capability : Option ReasoningCapability) (default row : Json) :
    Prop where
  policy : Defers default ∨ Supported capability default ∧ requestable default = true
  record : Defers default → names row = true → Supported capability row

/-- The defaults are supported, and the model does not name another effort. -/
structure SafeDefaults (capability : Option ReasoningCapability) (model default row : Json) : Prop
    extends DefaultsSupported capability default row where
  model : names model = true → defaultNamed default row = some model

section Table

variable {casefold : Str → Str}

/-- The entries of the table. -/
def capabilities : List ReasoningCapability :=
  openaiEfforts.map (fun row => .named "openai-responses" row.2) ++
    openaiEfforts.map (fun row => .named "openai-chat" row.2) ++
    solarEfforts.map (fun row => .named "openai-chat" row.2) ++
    gemini25Models.map (fun row => .budgets row.2) ++
    gemini3Levels.map (fun row => .named "gemini-level" row.2) ++
    anthropicEfforts.map (fun row => .named "anthropic-adaptive" row.2)

theorem exists_row_of_rowOf {α : Type} {table : List (String × α)} {model : Str} {x : α}
    (h : rowOf table model = some x) : ∃ row ∈ table, row.2 = x := by
  obtain ⟨row, hrow, rfl⟩ := Option.map_eq_some_iff.mp h
  exact ⟨row, List.mem_of_find?_eq_some hrow, rfl⟩

theorem mem_map_of_rowOf {α : Type} {table : List (String × α)} {model : Str}
    {entry : α → ReasoningCapability} {c : ReasoningCapability}
    (h : (rowOf table model).map entry = some c) :
    c ∈ table.map fun row => entry row.2 := by
  obtain ⟨x, hx, rfl⟩ := Option.map_eq_some_iff.mp h
  obtain ⟨row, hrow, rfl⟩ := exists_row_of_rowOf hx
  exact List.mem_map_of_mem hrow

theorem mem_capabilities {catalogId protocol model : Str} {c : ReasoningCapability}
    (h : reasoningCapability casefold catalogId protocol model = some c) : c ∈ capabilities := by
  unfold capabilities
  simp only [List.mem_append]
  unfold reasoningCapability at h
  split at h
  · cases h
  · dsimp only at h
    split at h
    · exact .inl (.inl (.inl (.inl (.inl (mem_map_of_rowOf h)))))
    · split at h
      · exact .inl (.inl (.inl (.inl (.inr (mem_map_of_rowOf h)))))
      · split at h
        · exact .inl (.inl (.inl (.inr (mem_map_of_rowOf h))))
        · split at h
          · split at h
            · rename_i efforts hrow
              obtain ⟨row, hmem, rfl⟩ := exists_row_of_rowOf hrow
              cases h
              exact .inl (.inl (.inr (List.mem_map.mpr ⟨row, hmem, rfl⟩)))
            · exact .inl (.inr (mem_map_of_rowOf h))
          · split at h
            · exact .inr (mem_map_of_rowOf h)
            · cases h

/-- The wire protocols that have fields. -/
def wireProtocols : List String :=
  ["gemini-level", "gemini-budget", "openai-responses", "openai-chat", "anthropic-adaptive"]

/-- What all entries of the table have in common. -/
structure SoundCapability (c : ReasoningCapability) : Prop where
  protocol : ∃ name ∈ wireProtocols, c.wireProtocol = lit name
  efforts : c.efforts.Nodup
  values : (c.wireValues.map Prod.snd).Nodup
  known : ∀ effort ∈ c.efforts, ∃ name ∈ effortNames, lit name = effort
  named : lit "provider_default" ∉ c.efforts

instance (c : ReasoningCapability) : Decidable (SoundCapability c) :=
  decidable_of_iff ((∃ name ∈ wireProtocols, c.wireProtocol = lit name) ∧ c.efforts.Nodup ∧
      (c.wireValues.map Prod.snd).Nodup ∧
      (∀ effort ∈ c.efforts, ∃ name ∈ effortNames, lit name = effort) ∧
      lit "provider_default" ∉ c.efforts)
    ⟨fun ⟨h1, h2, h3, h4, h5⟩ => ⟨h1, h2, h3, h4, h5⟩,
      fun ⟨h1, h2, h3, h4, h5⟩ => ⟨h1, h2, h3, h4, h5⟩⟩

theorem soundCapability {c : ReasoningCapability} (h : c ∈ capabilities) : SoundCapability c := by
  have hall : capabilities.all (fun c => decide (SoundCapability c)) = true := by decide +kernel
  exact of_decide_eq_true (List.all_eq_true.mp hall c h)

theorem SoundCapability.exists_wireFields {c : ReasoningCapability} (h : SoundCapability c)
    (value : WireValue) : ∃ fields, wireFields c.wireProtocol value = some fields := by
  obtain ⟨name, hname, heq⟩ := h.protocol
  rw [heq]
  simp only [wireProtocols, List.mem_cons, List.not_mem_nil, or_false] at hname
  obtain rfl | rfl | rfl | rfl | rfl := hname <;> exact ⟨_, rfl⟩

theorem json_injective {v w : WireValue} (h : v.json = w.json) : v = w := by
  cases v <;> cases w <;> cases h <;> rfl

/-- The fields of a wire protocol by their names, with the value in them. -/
theorem wireFields_cases {c : ReasoningCapability} (h : SoundCapability c) :
    ∃ key ∈ reasoningKeys, ∃ wrap : Json → Json, Function.Injective wrap ∧
      ∀ value fields, wireFields c.wireProtocol value = some fields →
        (Entries.keys fields).Nodup ∧ Entries.get? fields (lit key) = some (wrap value.json) := by
  obtain ⟨name, hname, heq⟩ := h.protocol
  rw [heq]
  simp only [wireProtocols, List.mem_cons, List.not_mem_nil, or_false] at hname
  obtain rfl | rfl | rfl | rfl | rfl := hname
  · refine ⟨"generationConfig", by decide, fun v => .obj [(lit "thinkingConfig",
      .obj [(lit "thinkingLevel", v)])], ?_, ?_⟩
    · intro v w h
      simpa using h
    · rintro value fields hfields
      cases hfields
      exact ⟨List.nodup_singleton _, rfl⟩
  · refine ⟨"generationConfig", by decide, fun v => .obj [(lit "thinkingConfig",
      .obj [(lit "thinkingBudget", v)])], ?_, ?_⟩
    · intro v w h
      simpa using h
    · rintro value fields hfields
      cases hfields
      exact ⟨List.nodup_singleton _, rfl⟩
  · refine ⟨"reasoning", by decide, fun v => .obj [(lit "effort", v)], ?_, ?_⟩
    · intro v w h
      simpa using h
    · rintro value fields hfields
      cases hfields
      exact ⟨List.nodup_singleton _, rfl⟩
  · refine ⟨"reasoning_effort", by decide, id, Function.injective_id, ?_⟩
    rintro value fields hfields
    cases hfields
    exact ⟨List.nodup_singleton _, rfl⟩
  · refine ⟨"output_config", by decide, fun v => .obj [(lit "effort", v)], ?_, ?_⟩
    · intro v w h
      simpa using h
    · rintro value fields hfields
      cases hfields
      refine ⟨?_, rfl⟩
      change [lit "thinking", lit "output_config"].Nodup
      decide

end Table

section Payload

variable {capability : Option ReasoningCapability} {sent : Entries Str Json}

theorem get?_update {payload more : Entries Str Json} (hmore : (Entries.keys more).Nodup)
    (key : Str) :
    Entries.get? (update payload more) key =
      (Entries.get? more key).or (Entries.get? payload key) := by
  induction more generalizing payload with
  | nil => rfl
  | cons e more ih =>
      obtain ⟨k, v⟩ := e
      have hnodup := List.nodup_cons.mp hmore
      change Entries.get? (update (Entries.set payload k v) more) key = _
      rw [ih hnodup.2, Entries.get?_cons]
      by_cases hk : k = key
      · subst hk
        rw [if_pos rfl, Entries.get?_eq_none_iff.mpr hnodup.1, Entries.get?_set_self]
        rfl
      · rw [if_neg hk, Entries.get?_set_of_ne _ _ (Ne.symm hk)]

/-- The fields that `_analyze` fills before the reasoning fields. -/
def payloadKeys : List String :=
  ["model", "messages", "max_completion_tokens", "max_tokens", "response_format", "input",
    "instructions", "max_output_tokens", "text", "contents"]

theorem keys_entry {name : String} (h : name ∈ payloadKeys) (value : Option Json) :
    ∀ e ∈ entry name value, ∃ key ∈ payloadKeys, e.1 = lit key := by
  intro e he
  obtain ⟨v, -, rfl⟩ := Option.map_eq_some_iff.mp (Option.mem_toList.mp he)
  exact ⟨name, h, rfl⟩

theorem keys_basePayload (backend : ProviderTextBackend) (options : TextGenerationOptions)
    (prompt : Str) :
    ∀ e ∈ basePayload backend options prompt, ∃ key ∈ payloadKeys, e.1 = lit key := by
  have hcons {name : String} (hname : name ∈ payloadKeys) (value : Json)
      {rest : Entries Str Json} (hrest : ∀ e ∈ rest, ∃ key ∈ payloadKeys, e.1 = lit key) :
      ∀ e ∈ (lit name, value) :: rest, ∃ key ∈ payloadKeys, e.1 = lit key :=
    List.forall_mem_cons.mpr ⟨⟨name, hname, rfl⟩, hrest⟩
  have hnil : ∀ e ∈ ([] : Entries Str Json), ∃ key ∈ payloadKeys, e.1 = lit key := nofun
  unfold basePayload
  split
  · rw [List.forall_mem_append, List.forall_mem_append]
    refine ⟨⟨hcons (by decide) _ (hcons (by decide) _ hnil), keys_entry ?_ _⟩,
      keys_entry (by decide) _⟩
    split <;> decide
  · split
    · rw [List.forall_mem_append, List.forall_mem_append, List.forall_mem_append]
      exact ⟨⟨⟨hcons (by decide) _ (hcons (by decide) _ hnil), keys_entry (by decide) _⟩,
        keys_entry (by decide) _⟩, keys_entry (by decide) _⟩
    · split
      · exact hcons (by decide) _ hnil
      · exact hcons (by decide) _ (hcons (by decide) _ (hcons (by decide) _ hnil))

/-- The payload has no reasoning fields of its own. -/
theorem get?_basePayload (backend : ProviderTextBackend) (options : TextGenerationOptions)
    (prompt : Str) {key : String} (hkey : key ∈ reasoningKeys) :
    Entries.get? (basePayload backend options prompt) (lit key) = none := by
  have hdisjoint : ∀ key ∈ reasoningKeys, ∀ name ∈ payloadKeys, lit key ≠ lit name := by decide
  rw [Entries.get?_eq_none_iff]
  intro hmem
  obtain ⟨e, he, heq⟩ := List.mem_map.mp hmem
  obtain ⟨name, hname, hlit⟩ := keys_basePayload backend options prompt e he
  exact hdisjoint key hkey name hname (heq.symm.trans hlit)

/-- No payload carries two efforts. -/
theorem Carries.unique (hsound : ∀ c, capability = some c → SoundCapability c)
    {level level' : Option Json} (h : Carries capability sent level)
    (h' : Carries capability sent level') : level = level' := by
  have hvalue {level : Json} (h : Carries capability sent (some level)) :
      ∃ c effort value, capability = some c ∧ level = .str effort ∧ (effort, value) ∈ c.wireValues ∧
        ∃ key ∈ reasoningKeys, ∃ wrap : Json → Json, Function.Injective wrap ∧
          (∀ value fields, wireFields c.wireProtocol value = some fields →
            (Entries.keys fields).Nodup ∧ Entries.get? fields (lit key) = some (wrap value.json)) ∧
          Entries.get? sent (lit key) = some (wrap value.json) := by
    obtain ⟨c, effort, value, fields, hc, hlevel, hmem, hfields, hagree⟩ := h
    obtain ⟨key, hkey, wrap, hwrap, hall⟩ := wireFields_cases (hsound c hc)
    exact ⟨c, effort, value, hc, hlevel, hmem, key, hkey, wrap, hwrap, hall,
      (hagree key hkey).trans (hall value fields hfields).2⟩
  cases level with
  | none =>
      cases level' with
      | none => rfl
      | some level' =>
          obtain ⟨c, effort, value, -, -, -, key, hkey, wrap, -, -, hget⟩ := hvalue h'
          rw [h key hkey] at hget
          cases hget
  | some level =>
      obtain ⟨c, effort, value, hc, rfl, hmem, key, hkey, wrap, hwrap, hall, hget⟩ := hvalue h
      cases level' with
      | none =>
          rw [h' key hkey] at hget
          cases hget
      | some level' =>
          obtain ⟨c', effort', value', fields', hc', rfl, hmem', hfields', hagree'⟩ := h'
          obtain rfl : c = c' := Option.some_inj.mp (hc.symm.trans hc')
          have hget' := (hagree' key hkey).trans (hall value' fields' hfields').2
          have hjson : value.json = value'.json :=
            hwrap (Option.some_inj.mp (hget.symm.trans hget'))
          obtain rfl := json_injective hjson
          have heffort : (effort, value) = (effort', value) :=
            List.inj_on_of_nodup_map (hsound c hc).values hmem hmem' rfl
          cases heffort
          rfl

end Payload

section Backends

variable {C : Context} {provider : Entries Str Json} {options : TextGenerationOptions}
  {prompt : Str}

theorem str?_of_filledText {key : String} {s : Str} (h : filledText provider key = some s) :
    (Json.field provider key).str? = some s := by
  obtain ⟨t, ht, h⟩ := Option.bind_eq_some_iff.mp h
  split at h
  · cases h
  · cases h
    exact ht

/-- The table's entry does not depend on the effort. -/
theorem capabilityOf_eq {catalogId protocol model : Str}
    (hcatalogId : filledText provider "catalog_id" = some catalogId)
    (hprotocol : filledText provider "protocol" = some protocol)
    (hmodel : filledText provider "model_id" = some model) :
    capabilityOf C.casefold provider = reasoningCapability C.casefold catalogId protocol model := by
  simp only [capabilityOf, str?_of_filledText hcatalogId, str?_of_filledText hprotocol,
    str?_of_filledText hmodel, Option.getD_some]

theorem soundCapability_of_capabilityOf {c : ReasoningCapability}
    (h : capabilityOf C.casefold provider = some c) : SoundCapability c :=
  soundCapability (mem_capabilities h)

/-- What a backend is built from. -/
theorem exists_of_providerBackend {backend : ProviderTextBackend}
    (h : providerBackend C.unicode C.platform C.casefold provider = some backend) :
    (∃ id, (Json.field provider "id").str? = some id ∧ id.isEmpty = false) ∧
      ∃ catalogId protocol model endpoint,
        BackendFields C.unicode C.platform C.casefold provider catalogId protocol model endpoint ∧
        backend.protocol = protocol ∧ backend.effort = effortText C.platform provider ∧
        backend.capability = reasoningCapability C.casefold catalogId protocol model := by
  obtain ⟨id, hid, h⟩ := Option.bind_eq_some_iff.mp h
  split at h
  · cases h
  · rename_i hempty
    obtain ⟨catalogId, protocol, model, endpoint, hfields⟩ :=
      buildLlmBackend_eq_some_iff.mp ⟨backend, h⟩
    refine ⟨⟨id, hid, Bool.eq_false_iff.mpr hempty⟩, catalogId, protocol, model, endpoint, hfields,
      ?_⟩
    obtain ⟨catalogId', hcatalogId, h⟩ := Option.bind_eq_some_iff.mp h
    obtain ⟨protocol', hprotocol, h⟩ := Option.bind_eq_some_iff.mp h
    obtain ⟨model', hmodel, h⟩ := Option.bind_eq_some_iff.mp h
    obtain ⟨endpoint', hendpoint, h⟩ := Option.bind_eq_some_iff.mp h
    obtain rfl := Option.some_inj.mp (hcatalogId.symm.trans hfields.hasCatalogId)
    obtain rfl := Option.some_inj.mp (hprotocol.symm.trans hfields.hasProtocol)
    obtain rfl := Option.some_inj.mp (hmodel.symm.trans hfields.hasModel)
    split at h
    · cases h
    · dsimp only at h
      split at h
      · cases h
      · split at h
        · cases h
        · obtain ⟨split, -, h⟩ := Option.bind_eq_some_iff.mp h
          cases h
          exact ⟨rfl, rfl, rfl⟩

/-- The effort in the record can be sent. -/
def EffortUsable (C : Context) (provider : Entries Str Json) : Prop :=
  effortText C.platform provider = lit "provider_default" ∨
    ∃ c ∈ capabilityOf C.casefold provider, effortText C.platform provider ∈ c.efforts

/-- A backend is built exactly where the record allows it. -/
theorem exists_providerBackend_iff :
    (∃ backend, providerBackend C.unicode C.platform C.casefold provider = some backend ∧
      (specified options = true → backend.protocol = lit "openai-chat-completions" ∨
        backend.protocol = lit "openai-responses")) ↔
      (∃ id, (Json.field provider "id").str? = some id ∧ id.isEmpty = false) ∧
      (∃ catalogId protocol model endpoint split,
        filledText provider "catalog_id" = some catalogId ∧
        filledText provider "protocol" = some protocol ∧
        filledText provider "model_id" = some model ∧
        filledText provider "endpoint" = some endpoint ∧
        allowedPair catalogId protocol = true ∧
        endpointFor C.unicode protocol endpoint model = some split ∧
        (specified options = true → protocol = lit "openai-chat-completions" ∨
          protocol = lit "openai-responses")) ∧ EffortUsable C provider := by
  constructor
  · rintro ⟨backend, hbackend, hprotocol⟩
    obtain ⟨hid, catalogId, protocol, model, endpoint, hfields, rfl, -, -⟩ :=
      exists_of_providerBackend hbackend
    obtain ⟨split, hsplit⟩ := hfields.endpointUsable
    refine ⟨hid, ⟨catalogId, backend.protocol, model, endpoint, split, hfields.hasCatalogId,
      hfields.hasProtocol, hfields.hasModel, hfields.hasEndpoint, hfields.pair, hsplit, hprotocol⟩,
      ?_⟩
    rw [EffortUsable, capabilityOf_eq hfields.hasCatalogId hfields.hasProtocol hfields.hasModel]
    exact hfields.effortSupported
  · rintro ⟨⟨id, hid, hempty⟩, ⟨catalogId, protocol, model, endpoint, split, hcatalogId, hprotocol,
      hmodel, hendpoint, hpair, hsplit, hoptions⟩, husable⟩
    rw [EffortUsable, capabilityOf_eq hcatalogId hprotocol hmodel] at husable
    have hknown : ∃ name ∈ effortNames, lit name = effortText C.platform provider := by
      obtain hdefault | ⟨c, hc, heffort⟩ := husable
      · exact ⟨"provider_default", by decide, hdefault.symm⟩
      · exact (soundCapability (mem_capabilities hc)).known _ heffort
    obtain ⟨backend, hbuild⟩ := buildLlmBackend_eq_some_iff.mpr
      ⟨catalogId, protocol, model, endpoint, hcatalogId, hprotocol, hmodel, hendpoint, hpair,
        hknown, husable, split, hsplit⟩
    have hbackend : providerBackend C.unicode C.platform C.casefold provider = some backend := by
      refine Option.bind_eq_some_iff.mpr ⟨id, hid, ?_⟩
      rw [hempty]
      exact hbuild
    refine ⟨backend, hbackend, ?_⟩
    obtain ⟨-, catalogId, protocol', model, endpoint, hfields, rfl, -, -⟩ :=
      exists_of_providerBackend hbackend
    rw [Option.some_inj.mp (hfields.hasProtocol.symm.trans hprotocol)]
    exact hoptions

/-- The reasoning fields of a supported effort. -/
theorem exists_reasoningPayloadFields {capability : Option ReasoningCapability} {effort : Str}
    (hsound : ∀ c, capability = some c → SoundCapability c)
    (h : effort = lit "provider_default" ∨ ∃ c ∈ capability, effort ∈ c.efforts) :
    ∃ fields, reasoningPayloadFields capability effort = some fields := by
  cases capability with
  | none => exact ⟨[], rfl⟩
  | some c =>
      by_cases hdefault : effort = lit "provider_default"
      · exact ⟨[], if_pos hdefault⟩
      · obtain ⟨c', hc, heffort⟩ := h.resolve_left hdefault
        obtain rfl := Option.some_inj.mp hc
        obtain ⟨value, hvalue⟩ : ∃ value, Entries.get? c.wireValues effort = some value := by
          refine Option.ne_none_iff_exists'.mp fun hnone => ?_
          exact Entries.get?_eq_none_iff.mp hnone heffort
        obtain ⟨fields, hfields⟩ := (hsound c rfl).exists_wireFields value
        refine ⟨fields, ?_⟩
        rw [reasoningPayloadFields, if_neg hdefault, hvalue]
        exact hfields

/-- With the fields of an effort, a payload carries this effort. -/
theorem carries_update {capability : Option ReasoningCapability} {effort : Str}
    {fields : Entries Str Json} {backend : ProviderTextBackend}
    (hsound : ∀ c, capability = some c → SoundCapability c)
    (hsupported : effort = lit "provider_default" ∨ ∃ c ∈ capability, effort ∈ c.efforts)
    (h : reasoningPayloadFields capability effort = some fields) :
    Carries capability (update (basePayload backend options prompt) fields)
      (if effort = lit "provider_default" then none else some (.str effort)) := by
  have hnone : Carries capability (update (basePayload backend options prompt) []) none :=
    fun key hkey => get?_basePayload _ _ _ hkey
  cases capability with
  | none =>
      cases h
      rw [if_pos (hsupported.resolve_right (by simp))]
      exact hnone
  | some c =>
      rw [reasoningPayloadFields] at h
      split at h
      · rename_i hdefault
        cases h
        rw [if_pos hdefault]
        exact hnone
      · rename_i hdefault
        rw [if_neg hdefault]
        obtain ⟨value, hvalue, hfields⟩ := Option.bind_eq_some_iff.mp h
        obtain ⟨named, -, wrap, -, hall⟩ := wireFields_cases (hsound c rfl)
        refine ⟨c, effort, value, fields, rfl, rfl, Entries.mem_of_get? hvalue, hfields,
          fun key hkey => ?_⟩
        rw [get?_update (hall value fields hfields).1, get?_basePayload _ _ _ hkey,
          Option.or_none]

/-- A call is made exactly for a usable effort of a servable record. -/
theorem exists_serve_iff :
    (∃ sent, serve C provider options prompt = .ok sent) ↔
      Servable C provider options prompt ∧ EffortUsable C provider := by
  constructor
  · rintro ⟨sent, h⟩
    unfold serve at h
    split at h
    · cases h
    · rename_i backend hbackend
      split at h
      · cases h
      · rename_i hprompt
        unfold analyzeSpecified at h
        split at h
        · cases h
        · rename_i hoptions
          unfold analyze at h
          split at h
          · cases h
          · rename_i hsecret
            obtain ⟨hid, hfields, husable⟩ := exists_providerBackend_iff.mp
              ⟨backend, hbackend, fun hspecified => by
                by_contra hno
                exact hoptions ⟨hspecified, not_or.mp hno⟩⟩
            exact ⟨⟨hid, hfields, Bool.eq_false_iff.mpr hprompt, Bool.eq_false_iff.mpr hsecret⟩,
              husable⟩
  · rintro ⟨hservable, husable⟩
    obtain ⟨backend, hbackend, hoptions⟩ := exists_providerBackend_iff.mpr
      ⟨hservable.ident, hservable.fields, husable⟩
    obtain ⟨-, catalogId, protocol, model, endpoint, hfields, -, heffort, hcapability⟩ :=
      exists_of_providerBackend hbackend
    obtain ⟨fields, hreasoning⟩ := exists_reasoningPayloadFields
      (fun c hc => soundCapability (mem_capabilities hc)) hfields.effortSupported
    unfold serve
    simp only [hbackend, hservable.prompt]
    have hnot : ¬ (specified options = true ∧ backend.protocol ≠ lit "openai-chat-completions" ∧
        backend.protocol ≠ lit "openai-responses") := by
      rintro ⟨hspecified, hchat, hresponses⟩
      exact (hoptions hspecified).elim hchat hresponses
    rw [if_neg (by decide), analyzeSpecified, if_neg hnot, analyze, hservable.secret,
      if_neg (by decide), hcapability, heffort, hreasoning]
    exact ⟨_, rfl⟩

/-- What is sent carries the effort of the record. -/
theorem carries_of_serve {sent : Entries Str Json}
    (h : serve C provider options prompt = .ok sent) :
    Carries (capabilityOf C.casefold provider) sent
      (if effortText C.platform provider = lit "provider_default" then none
        else some (.str (effortText C.platform provider))) := by
  unfold serve at h
  split at h
  · cases h
  · rename_i backend hbackend
    obtain ⟨-, catalogId, protocol, model, endpoint, hfields, -, heffort, hcapability⟩ :=
      exists_of_providerBackend hbackend
    have heq := (capabilityOf_eq hfields.hasCatalogId hfields.hasProtocol hfields.hasModel
      (C := C)).trans hcapability.symm
    split at h
    · cases h
    · unfold analyzeSpecified analyze at h
      split at h
      · cases h
      · split at h
        · cases h
        · rw [heq, ← heffort]
          split at h
          · cases h
          · rename_i fields hreasoning
            cases h
            refine carries_update (fun c hc => ?_) ?_ hreasoning
            · exact soundCapability (mem_capabilities (hcapability.symm.trans hc))
            · rw [hcapability, heffort]
              exact hfields.effortSupported

end Backends

section Records

variable {C : Context} {provider provider' : Entries Str Json} {options : TextGenerationOptions}
  {prompt : Str}

theorem SameOthers.field (h : SameOthers provider provider') {key : String}
    (hkey : lit key ≠ lit "reasoning_effort") :
    Json.field provider' key = Json.field provider key := by
  rw [Json.field, Json.field, h _ hkey]

theorem SameOthers.symm (h : SameOthers provider provider') : SameOthers provider' provider :=
  fun key hkey => (h key hkey).symm

theorem sameOthers_set (provider : Entries Str Json) (effort : Json) :
    SameOthers provider (Entries.set provider (lit "reasoning_effort") effort) :=
  fun _ hkey => Entries.get?_set_of_ne _ _ hkey

theorem sameOthers_erase (provider : Entries Str Json) :
    SameOthers provider (Entries.erase provider (lit "reasoning_effort")) :=
  fun _ hkey => Entries.get?_erase_of_ne _ hkey

theorem SameOthers.capabilityOf (h : SameOthers provider provider') (casefold : Str → Str) :
    ProviderPayload.capabilityOf casefold provider' =
      ProviderPayload.capabilityOf casefold provider := by
  have hcatalogId := @SameOthers.field _ _ h "catalog_id" (by decide)
  have hprotocol := @SameOthers.field _ _ h "protocol" (by decide)
  have hmodel := @SameOthers.field _ _ h "model_id" (by decide)
  simp only [ProviderPayload.capabilityOf, hcatalogId, hprotocol, hmodel]

theorem SameOthers.filledText (h : SameOthers provider provider') {key : String}
    (hkey : lit key ≠ lit "reasoning_effort") :
    LlmBackends.filledText provider' key = LlmBackends.filledText provider key := by
  unfold LlmBackends.filledText
  rw [h.field hkey]

/-- The effort in a record does not decide whether it can be served. -/
theorem Servable.of_sameOthers (hservable : Servable C provider options prompt)
    (h : SameOthers provider provider') : Servable C provider' options prompt := by
  obtain ⟨⟨id, hid, hempty⟩, ⟨catalogId, protocol, model, endpoint, split, hcatalogId, hprotocol,
    hmodel, hendpoint, hrest⟩, hprompt, hsecret⟩ := hservable
  exact ⟨⟨id, by rw [h.field (by decide), hid], hempty⟩,
    ⟨catalogId, protocol, model, endpoint, split, by rw [h.filledText (by decide), hcatalogId],
      by rw [h.filledText (by decide), hprotocol], by rw [h.filledText (by decide), hmodel],
      by rw [h.filledText (by decide), hendpoint], hrest⟩, hprompt, hsecret⟩

theorem effortText_set (P : Platform) (provider : Entries Str Json) {effort : Str}
    (h : effort.isEmpty = false) :
    effortText P (Entries.set provider (lit "reasoning_effort") (.str effort)) = effort := by
  have hfield : Json.field (Entries.set provider (lit "reasoning_effort") (.str effort))
      "reasoning_effort" = .str effort := by
    rw [Json.field, Entries.get?_set_self]
    rfl
  have htruthy : (Json.str effort).truthy = true := by
    rw [Json.truthy, h]
    rfl
  rw [effortText, hfield, if_pos htruthy]
  rfl

theorem effortText_erase (P : Platform) (provider : Entries Str Json) :
    effortText P (Entries.erase provider (lit "reasoning_effort")) = lit "provider_default" := by
  rw [effortText, Json.field, Entries.get?_erase_self]
  rfl

theorem exists_of_requestable {effort : Json} (h : requestable effort = true) :
    ∃ text, effort = .str text ∧ text.isEmpty = false ∧ text ≠ lit "provider_default" := by
  simp only [requestable, Bool.or_eq_true, Json.isLit_iff] at h
  obtain (rfl | rfl) | rfl := h <;> exact ⟨_, rfl, by decide, by decide⟩

end Records

section Levels

variable {C : Context} {request default : Json} {provider : Entries Str Json}
  {options : TextGenerationOptions} {prompt : Str}

/-- A requestable effort is put into the record. -/
theorem dispatch_of_requestable (h : requestable (requestedEffort request default) = true) :
    dispatch C request default provider options prompt =
      serve C (Entries.set provider (lit "reasoning_effort") (requestedEffort request default))
        options prompt := by
  obtain ⟨text, htext, -⟩ := exists_of_requestable h
  unfold dispatch effortProvider
  rw [htext] at h ⊢
  rw [if_neg (by simp [Json.isNull]), if_neg (by simp [Json.hashable])]
  rw [if_pos h]
  rfl

/-- Without a requested effort, the record stays as it is. -/
theorem dispatch_of_isNull (h : (requestedEffort request default).isNull = true) :
    dispatch C request default provider options prompt = serve C provider options prompt := by
  unfold dispatch effortProvider
  rw [if_pos h]
  rfl

/-- Any other effort is refused. -/
theorem requestable_of_dispatch {sent : Entries Str Json}
    (h : dispatch C request default provider options prompt = .ok sent)
    (hnull : (requestedEffort request default).isNull = false) :
    requestable (requestedEffort request default) = true := by
  unfold dispatch effortProvider at h
  rw [hnull] at h
  by_contra hnot
  split at h
  · rename_i hfalse
    cases hfalse
  · split at h
    · cases h
    · cases h

/-- A request with an effort of its own is served with it, whatever the defaults are. -/
theorem requestedEffort_of_requestable (h : requestable request = true) (default : Json) :
    requestedEffort request default = request := by
  obtain ⟨text, rfl, -, hne⟩ := exists_of_requestable h
  have hlit : (Json.str text).isLit "provider_default" = false := decide_eq_false hne
  simp [requestedEffort, Json.isNull, hlit]

/-- `str` gives a name of an effort for no value but that string. -/
def NamesApart (P : Platform) : Prop :=
  ∀ v : Json, v.str? = none → ∀ name ∈ effortNames, P.strOf v ≠ lit name

theorem effortText_of_not_names (P : Platform)
    (h : names (Json.field provider "reasoning_effort") = false) :
    effortText P provider = lit "provider_default" := by
  unfold names at h
  unfold effortText
  rw [Bool.and_eq_false_iff] at h
  dsimp only
  split
  · rename_i htruthy
    have hlit := h.resolve_left (by rw [htruthy]; decide)
    rw [Bool.not_eq_false', Json.isLit_iff] at hlit
    rw [hlit]
    rfl
  · rfl

/-- A named effort of the record is usable where the table has it. -/
theorem effortUsable_iff_of_names (hstr : NamesApart C.platform)
    (h : names (Json.field provider "reasoning_effort") = true) :
    (EffortUsable C provider ↔
      Supported (capabilityOf C.casefold provider) (Json.field provider "reasoning_effort")) ∧
    (EffortUsable C provider → effortText C.platform provider ≠ lit "provider_default" ∧
      Json.field provider "reasoning_effort" = .str (effortText C.platform provider)) := by
  unfold names at h
  rw [Bool.and_eq_true, Bool.not_eq_true'] at h
  obtain ⟨htruthy, hlit⟩ := h
  have htext : effortText C.platform provider =
      Receipts.textOf C.platform (Json.field provider "reasoning_effort") := if_pos htruthy
  unfold EffortUsable
  rw [htext]
  cases hrow : (Json.field provider "reasoning_effort").str? with
  | some s =>
      have hstring : Json.field provider "reasoning_effort" = .str s := by
        cases hvalue : Json.field provider "reasoning_effort" <;> rw [hvalue] at hrow <;>
          cases hrow
        rfl
      rw [hstring] at hlit ⊢
      have hne : s ≠ lit "provider_default" := of_decide_eq_false hlit
      refine ⟨⟨?_, ?_⟩, fun _ => ⟨hne, rfl⟩⟩
      · rintro (hdefault | ⟨c, hc, heffort⟩)
        · exact absurd hdefault hne
        · exact ⟨c, s, hc, rfl, heffort⟩
      · rintro ⟨c, effort, hc, heq, heffort⟩
        cases heq
        exact .inr ⟨c, hc, heffort⟩
  | none =>
      have hother : Receipts.textOf C.platform (Json.field provider "reasoning_effort") =
          C.platform.strOf (Json.field provider "reasoning_effort") := by
        cases hvalue : Json.field provider "reasoning_effort" with
        | str s =>
            rw [hvalue] at hrow
            cases hrow
        | null | bool _ | int _ | float _ | arr _ | obj _ => rfl
      rw [hother]
      have hnot : ¬ (C.platform.strOf (Json.field provider "reasoning_effort") =
          lit "provider_default" ∨ ∃ c ∈ capabilityOf C.casefold provider,
            C.platform.strOf (Json.field provider "reasoning_effort") ∈ c.efforts) := by
        rintro (hdefault | ⟨c, hc, heffort⟩)
        · exact hstr _ hrow "provider_default" (by decide) hdefault
        · obtain ⟨name, hname, heq⟩ := (soundCapability_of_capabilityOf hc).known _ heffort
          exact hstr _ hrow name hname heq.symm
      refine ⟨⟨fun husable => absurd husable hnot, ?_⟩, fun husable => absurd husable hnot⟩
      rintro ⟨c, effort, hc, heq, heffort⟩
      rw [heq] at hrow
      cases hrow

theorem requestedEffort_of_defers (hrequest : request.isNull = true) (h : Defers default) :
    (requestedEffort request default).isNull = true := by
  unfold requestedEffort
  rw [if_pos hrequest]
  dsimp only
  split
  · rfl
  · rename_i hlit
    exact h.resolve_right hlit

theorem requestedEffort_of_not_defers (hrequest : request.isNull = true) (h : ¬ Defers default) :
    requestedEffort request default = default ∧ default.isNull = false := by
  rw [Defers, not_or] at h
  refine ⟨?_, Bool.eq_false_iff.mpr h.1⟩
  unfold requestedEffort
  rw [if_pos hrequest]
  exact if_neg h.2

theorem defaultNamed_of_defers (h : Defers default) (row : Json) :
    defaultNamed default row = if names row then some row else none := by
  rw [defaultNamed, if_pos (Bool.or_eq_true_iff.mpr h)]

theorem defaultNamed_of_not_defers (h : ¬ Defers default) (row : Json) :
    defaultNamed default row = some default := by
  rw [defaultNamed, if_neg (fun hor => h (Bool.or_eq_true_iff.mp hor))]

/-- Without an effort in the request, the defaults decide whether it is sent. -/
theorem exists_dispatch_iff (hstr : NamesApart C.platform) (hrequest : request.isNull = true) :
    (∃ sent, dispatch C request default provider options prompt = .ok sent) ↔
      Servable C provider options prompt ∧
        DefaultsSupported (capabilityOf C.casefold provider) default
          (Json.field provider "reasoning_effort") := by
  by_cases hdefers : Defers default
  · rw [dispatch_of_isNull (requestedEffort_of_defers hrequest hdefers), exists_serve_iff]
    refine and_congr_right fun _ => ⟨fun husable => ⟨.inl hdefers, fun _ hnamed =>
      (effortUsable_iff_of_names hstr hnamed).1.mp husable⟩, fun hsupported => ?_⟩
    cases hnamed : names (Json.field provider "reasoning_effort") with
    | true =>
        exact (effortUsable_iff_of_names hstr hnamed).1.mpr (hsupported.record hdefers hnamed)
    | false => exact .inl (effortText_of_not_names _ hnamed)
  · obtain ⟨hrequested, hnull⟩ := requestedEffort_of_not_defers hrequest hdefers
    have hset := sameOthers_set provider default
    constructor
    · rintro ⟨sent, hsent⟩
      have hrequestable := requestable_of_dispatch hsent (by rw [hrequested]; exact hnull)
      rw [dispatch_of_requestable hrequestable, hrequested] at hsent
      rw [hrequested] at hrequestable
      obtain ⟨hservable, husable⟩ := exists_serve_iff.mp ⟨sent, hsent⟩
      obtain ⟨text, rfl, hempty, hne⟩ := exists_of_requestable hrequestable
      rw [EffortUsable, effortText_set _ _ hempty, hset.capabilityOf] at husable
      obtain ⟨c, hc, heffort⟩ := husable.resolve_left hne
      exact ⟨hservable.of_sameOthers hset.symm, .inr ⟨⟨c, text, hc, rfl, heffort⟩, hrequestable⟩,
        fun h => absurd h hdefers⟩
    · rintro ⟨hservable, hsupported⟩
      obtain ⟨⟨c, text, hc, rfl, heffort⟩, hrequestable⟩ := hsupported.policy.resolve_left hdefers
      rw [dispatch_of_requestable (hrequested.symm ▸ hrequestable), hrequested]
      refine exists_serve_iff.mpr ⟨hservable.of_sameOthers hset, .inr ⟨c, ?_, ?_⟩⟩
      · rw [hset.capabilityOf]
        exact hc
      · obtain ⟨text', heq, hempty, -⟩ := exists_of_requestable hrequestable
        cases heq
        rw [effortText_set _ _ hempty]
        exact heffort

/-- Without an effort in the request, the first of the two defaults is sent. -/
theorem carries_of_dispatch (hstr : NamesApart C.platform) (hrequest : request.isNull = true)
    {sent : Entries Str Json} (h : dispatch C request default provider options prompt = .ok sent) :
    Carries (capabilityOf C.casefold provider) sent
      (defaultNamed default (Json.field provider "reasoning_effort")) := by
  by_cases hdefers : Defers default
  · rw [dispatch_of_isNull (requestedEffort_of_defers hrequest hdefers)] at h
    have hcarries := carries_of_serve h
    rw [defaultNamed_of_defers hdefers]
    cases hnamed : names (Json.field provider "reasoning_effort") with
    | true =>
        obtain ⟨hne, hrow⟩ := (effortUsable_iff_of_names hstr hnamed).2
          (exists_serve_iff.mp ⟨sent, h⟩).2
        rw [if_neg hne, ← hrow] at hcarries
        exact hcarries
    | false =>
        rw [if_pos (effortText_of_not_names _ hnamed)] at hcarries
        exact hcarries
  · obtain ⟨hrequested, hnull⟩ := requestedEffort_of_not_defers hrequest hdefers
    have hrequestable := requestable_of_dispatch h (by rw [hrequested]; exact hnull)
    rw [dispatch_of_requestable hrequestable, hrequested] at h
    rw [hrequested] at hrequestable
    obtain ⟨text, rfl, hempty, hne⟩ := exists_of_requestable hrequestable
    have hcarries := carries_of_serve h
    rw [effortText_set _ _ hempty, if_neg hne, (sameOthers_set provider _).capabilityOf]
      at hcarries
    rw [defaultNamed_of_not_defers hdefers]
    exact hcarries

/-- Where the defaults are supported, the first of them is the first that names an effort. -/
theorem DefaultsSupported.firstNamed_eq {capability : Option ReasoningCapability} {row : Json}
    (h : DefaultsSupported capability default row) :
    firstNamed [default, row] = defaultNamed default row := by
  by_cases hdefers : Defers default
  · have hnot : names default = false := by
      unfold names
      obtain hnull | hlit := hdefers
      · cases default <;> cases hnull
        rfl
      · rw [hlit, Bool.not_true, Bool.and_false]
    rw [defaultNamed_of_defers hdefers, firstNamed, List.find?_cons, hnot, List.find?_cons]
    cases names row <;> rfl
  · obtain ⟨-, hrequestable⟩ := h.policy.resolve_left hdefers
    have hnamed : names default = true := by
      simp only [requestable, Bool.or_eq_true, Json.isLit_iff] at hrequestable
      obtain (rfl | rfl) | rfl := hrequestable <;> decide
    rw [defaultNamed_of_not_defers hdefers, firstNamed, List.find?_cons, hnamed]

end Levels

section Respect

variable {C : Context} {body payload provider : Entries Str Json} {targetId : Str}
  {options : TextGenerationOptions}

theorem invoke_eq_dispatch
    (hoptions : OpenaiChat.responsesGenerationOptions C.platform payload = .ok options)
    (hprovider : providerForTarget body targetId = .ok provider) :
    invoke C body targetId payload =
      dispatch C (Json.field payload "reasoning_effort") (policyDefault body) provider options
        (textFromResponsesPayload payload) := by
  rw [invoke, hoptions, hprovider]

theorem requestable_of_checkEffort {effort : Json} (h : checkEffort effort = .ok ())
    (hnull : effort.isNull = false) : requestable effort = true := by
  unfold checkEffort at h
  rw [hnull] at h
  by_contra hnot
  split at h
  · rename_i hfalse
    cases hfalse
  · split at h
    · cases h
    · split at h
      · exact hnot ‹_›
      · cases h

/-- A request that names its effort is not touched by the defaults. -/
theorem effortRespected_of_requestable
    (hinvoke : invoke C body targetId payload =
      dispatch C (Json.field payload "reasoning_effort") (policyDefault body) provider options
        (textFromResponsesPayload payload))
    (h : requestable (Json.field payload "reasoning_effort") = true) :
    EffortRespected C body targetId payload provider options := by
  have hdispatch (default : Json) (provider : Entries Str Json) :
      dispatch C (Json.field payload "reasoning_effort") default provider options
          (textFromResponsesPayload payload) =
        serve C (Entries.set provider (lit "reasoning_effort")
          (Json.field payload "reasoning_effort")) options (textFromResponsesPayload payload) := by
    have hrequested := requestedEffort_of_requestable h default
    rw [dispatch_of_requestable (by rw [hrequested]; exact h), hrequested]
  obtain ⟨text, htext, hempty, hne⟩ := exists_of_requestable h
  constructor
  · intro sent hsent
    rw [hinvoke, hdispatch, htext] at hsent
    have hcarries := carries_of_serve hsent
    rw [effortText_set _ _ hempty, if_neg hne, (sameOthers_set provider _).capabilityOf]
      at hcarries
    have hnamed : names (Json.str text) = true := by
      rw [htext] at h
      simp only [requestable, Bool.or_eq_true, Json.isLit_iff] at h
      obtain (heq | heq) | heq := h <;> rw [heq] <;> decide
    rw [firstNamed, List.find?_cons, htext, hnamed]
    exact hcarries
  · intro default' provider' sent' hdefault hrow hsent
    rw [hdispatch, htext] at hsent
    obtain ⟨hservable, husable⟩ := exists_serve_iff.mp ⟨sent', hsent⟩
    have hothers : SameOthers (Entries.set provider' (lit "reasoning_effort") (.str text))
        (Entries.set provider (lit "reasoning_effort") (.str text)) := by
      intro key hkey
      rw [Entries.get?_set_of_ne _ _ hkey, Entries.get?_set_of_ne _ _ hkey, hrow.others key hkey]
    rw [hinvoke, hdispatch, htext]
    refine exists_serve_iff.mpr ⟨hservable.of_sameOthers hothers, ?_⟩
    rw [EffortUsable, effortText_set _ _ hempty] at husable ⊢
    rw [hothers.capabilityOf]
    exact husable

/-- Without an effort in the request, all depends on the defaults. -/
theorem effortRespected_iff_of_isNull (hstr : NamesApart C.platform)
    (hinvoke : invoke C body targetId payload =
      dispatch C (Json.field payload "reasoning_effort") (policyDefault body) provider options
        (textFromResponsesPayload payload))
    (hnull : (Json.field payload "reasoning_effort").isNull = true) :
    EffortRespected C body targetId payload provider options ↔
      ¬ Servable C provider options (textFromResponsesPayload payload) ∨
        SafeDefaults (capabilityOf C.casefold provider) (modelEffort body targetId)
          (policyDefault body) (Json.field provider "reasoning_effort") := by
  have hrequest : names (Json.field payload "reasoning_effort") = false := by
    cases hvalue : Json.field payload "reasoning_effort" <;> rw [hvalue] at hnull <;> cases hnull
    rfl
  have hfirst : firstNamed [Json.field payload "reasoning_effort", modelEffort body targetId,
      policyDefault body, Json.field provider "reasoning_effort"] =
      if names (modelEffort body targetId) then some (modelEffort body targetId)
      else firstNamed [policyDefault body, Json.field provider "reasoning_effort"] := by
    rw [firstNamed, List.find?_cons, hrequest, List.find?_cons]
    cases names (modelEffort body targetId) <;> rfl
  constructor
  · intro h
    by_contra hnot
    rw [not_or, not_not] at hnot
    obtain ⟨hservable, hnot⟩ := hnot
    have hbare : ∃ sent, dispatch C (Json.field payload "reasoning_effort") .null
        (Entries.erase provider (lit "reasoning_effort")) options
          (textFromResponsesPayload payload) = .ok sent := by
      rw [dispatch_of_isNull (requestedEffort_of_defers hnull (.inl rfl))]
      exact exists_serve_iff.mpr ⟨hservable.of_sameOthers (sameOthers_erase provider),
        .inl (effortText_erase _ _)⟩
    obtain ⟨sent', hsent'⟩ := hbare
    have hkept : KeptRow provider (Entries.erase provider (lit "reasoning_effort")) :=
      ⟨sameOthers_erase provider, .inr (by rw [Json.field, Entries.get?_erase_self]; rfl)⟩
    obtain ⟨sent, hsent⟩ := h.harmless .null _ sent' (.inr rfl) hkept hsent'
    have hcarries := h.first sent hsent
    rw [hinvoke] at hsent
    have hsupported := ((exists_dispatch_iff hstr hnull).mp ⟨sent, hsent⟩).2
    refine hnot ⟨hsupported, fun hmodel => ?_⟩
    rw [hfirst, if_pos hmodel] at hcarries
    exact (carries_of_dispatch hstr hnull hsent).unique
      (fun c hc => soundCapability_of_capabilityOf hc) hcarries
  · intro h
    constructor
    · intro sent hsent
      rw [hinvoke] at hsent
      obtain ⟨hservable, hsupported⟩ := (exists_dispatch_iff hstr hnull).mp ⟨sent, hsent⟩
      have hsafe := h.resolve_left (not_not.mpr hservable)
      have hcarries := carries_of_dispatch hstr hnull hsent
      rw [hfirst]
      split
      · rename_i hmodel
        rw [← hsafe.model hmodel]
        exact hcarries
      · rw [hsupported.firstNamed_eq]
        exact hcarries
    · intro default' provider' sent' hdefault hrow hsent
      have hservable := ((exists_dispatch_iff hstr hnull).mp ⟨sent', hsent⟩).1.of_sameOthers
        hrow.others.symm
      rw [hinvoke]
      exact (exists_dispatch_iff hstr hnull).mpr
        ⟨hservable, (h.resolve_left (not_not.mpr hservable)).toDefaultsSupported⟩

/-- The first effort that is named is sent, and no default makes a request fail, exactly where the
request names its own effort, or cannot be served at all, or the defaults are supported and the
model names no other effort. -/
theorem effortRespected_iff (hstr : NamesApart C.platform)
    (hoptions : OpenaiChat.responsesGenerationOptions C.platform payload = .ok options)
    (hprovider : providerForTarget body targetId = .ok provider)
    (heffort : checkEffort (Json.field payload "reasoning_effort") = .ok ()) :
    EffortRespected C body targetId payload provider options ↔
      (Json.field payload "reasoning_effort").isNull = false ∨
        ¬ Servable C provider options (textFromResponsesPayload payload) ∨
        SafeDefaults (capabilityOf C.casefold provider) (modelEffort body targetId)
          (policyDefault body) (Json.field provider "reasoning_effort") := by
  have hinvoke := invoke_eq_dispatch hoptions hprovider
  cases hnull : (Json.field payload "reasoning_effort").isNull with
  | false =>
      exact iff_of_true (effortRespected_of_requestable hinvoke
        (requestable_of_checkEffort heffort hnull)) (.inl rfl)
  | true =>
      rw [effortRespected_iff_of_isNull hstr hinvoke hnull]
      simp

end Respect

section Samples

/-- A snapshot with an effort in the record of its model, a default of its policy, and one Solar
model behind it. -/
def effortBody (effort default model : String) : Entries Str Json :=
  [(lit "registry", .obj [(lit "version", .str (lit "1")),
      (lit "models", .arr [.obj [(lit "id", .str (lit "m")), (lit "provider_id", .str (lit "p")),
        (lit "input_modalities", .arr [.str (lit "text")]),
        (lit "reasoning_effort", .str (lit effort))]])]),
    (lit "providers", .arr [.obj [(lit "id", .str (lit "p")), (lit "kind", .str (lit "llm")),
      (lit "enabled", .bool true), (lit "catalog_id", .str (lit "upstage-solar")),
      (lit "protocol", .str (lit "openai-chat-completions")),
      (lit "endpoint", .str (lit "https://api.upstage.ai/v1")),
      (lit "model_id", .str (lit model))]]),
    (lit "defaults", .obj [(lit "reasoning_effort", .str (lit default))])]

def sampleContext : Context := ⟨.ascii id, .sample, id, some (lit "key")⟩

/-- A request without an effort. -/
def plainRequest : Entries Str Json :=
  [(lit "model", .str (lit "m")), (lit "input", .str (lit "hello"))]

theorem namesApart_sample : NamesApart sampleContext.platform := by
  intro v _ name hname
  have hall : ∀ name ∈ effortNames, ([] : Str) ≠ lit name := by decide
  exact hall name hname

theorem exists_sample (effort default model : String)
    (hprovider : (providerForTarget (effortBody effort default model) (lit "m")).isOk = true) :
    ∃ options provider,
      OpenaiChat.responsesGenerationOptions sampleContext.platform plainRequest = .ok options ∧
      providerForTarget (effortBody effort default model) (lit "m") = .ok provider := by
  have hoptions : (OpenaiChat.responsesGenerationOptions sampleContext.platform
      plainRequest).isOk = true := by decide +kernel
  obtain ⟨options, hoptions⟩ := exists_of_isOk hoptions
  obtain ⟨provider, hprovider⟩ := exists_of_isOk hprovider
  exact ⟨options, provider, hoptions, hprovider⟩

theorem effortRespected_iff_sample : ∃ options provider,
    EffortRespected sampleContext (effortBody "low" "low" "solar-pro4") (lit "m") plainRequest
        provider options ↔
      (Json.field plainRequest "reasoning_effort").isNull = false ∨
        ¬ Servable sampleContext provider options (textFromResponsesPayload plainRequest) ∨
        SafeDefaults (capabilityOf sampleContext.casefold provider)
          (modelEffort (effortBody "low" "low" "solar-pro4") (lit "m"))
          (policyDefault (effortBody "low" "low" "solar-pro4"))
          (Json.field provider "reasoning_effort") := by
  obtain ⟨options, provider, hoptions, hprovider⟩ :=
    exists_sample "low" "low" "solar-pro4" (by decide +kernel)
  exact ⟨options, provider, effortRespected_iff namesApart_sample hoptions hprovider rfl⟩

/-- The effort of the model is not sent, and a default that the provider does not support makes a
request fail that is sent without it. -/
theorem model_effort_ignored :
    (RuntimeSnapshot.capabilityRegistryFromSnapshot sampleReader
      (effortBody "high" "provider_default" "solar-pro4")).isSome = true ∧
    (∃ options provider,
      providerForTarget (effortBody "high" "provider_default" "solar-pro4") (lit "m") =
        .ok provider ∧
      Supported (capabilityOf sampleContext.casefold provider) (.str (lit "high")) ∧
      ¬ EffortRespected sampleContext (effortBody "high" "provider_default" "solar-pro4")
        (lit "m") plainRequest provider options) ∧
    (invoke sampleContext (effortBody "provider_default" "provider_default" "solar-mini")
      (lit "m") plainRequest).isOk = true ∧
    (invoke sampleContext (effortBody "provider_default" "medium" "solar-mini")
      (lit "m") plainRequest).isOk = false := by
  refine ⟨by decide +kernel, ?_, by decide +kernel, by decide +kernel⟩
  have hprovider : (providerForTarget (effortBody "high" "provider_default" "solar-pro4")
      (lit "m")).toOption.map (capabilityOf sampleContext.casefold) =
        some (some (.named "openai-chat" ["low", "medium", "high"])) := by decide +kernel
  have hsent : (invoke sampleContext (effortBody "high" "provider_default" "solar-pro4")
      (lit "m") plainRequest).toOption.map (fun sent =>
        reasoningKeys.all fun key => (Entries.get? sent (lit key)).isNone) = some true := by
    decide +kernel
  obtain ⟨options, provider, hoptions, hok⟩ :=
    exists_sample "high" "provider_default" "solar-pro4" (by decide +kernel)
  rw [hok] at hprovider
  have hcapability := Option.some_inj.mp hprovider
  refine ⟨options, provider, hok, ⟨_, lit "high", hcapability, rfl, by decide⟩, fun h => ?_⟩
  cases hinvoke : invoke sampleContext (effortBody "high" "provider_default" "solar-pro4")
      (lit "m") plainRequest with
  | error e =>
      rw [hinvoke] at hsent
      cases hsent
  | ok sent =>
      rw [hinvoke] at hsent
      have hnone : Carries (capabilityOf sampleContext.casefold provider) sent none := by
        have hall := List.all_eq_true.mp (Option.some_inj.mp hsent)
        exact fun key hkey => Option.isNone_iff_eq_none.mp (hall key hkey)
      have hfirst := h.first sent hinvoke
      have hmodel : modelEffort (effortBody "high" "provider_default" "solar-pro4") (lit "m") =
          .str (lit "high") := rfl
      rw [hmodel] at hfirst
      have hsame := hnone.unique (fun c hc => soundCapability_of_capabilityOf hc) hfirst
      cases hsame

end Samples

end ProviderPayload

end MediaBridge.Gateway
