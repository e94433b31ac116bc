import MediaBridge.Foundation.Occurrences
import MediaBridge.Personal.PlainRequests

/-!
# When accepted settings run

The configuration that is written for accepted settings is read back with the same profile. Whether
a runtime is built from it, and sends a plain request, depends on checks that the two validators do
not make.
-/

namespace MediaBridge.Personal

open Foundation MediaBridge.Core Gateway

section Fitting

variable {I : Interpreter} {config result current : Entries Str Json} {d : Nat}

/-- A section that is filled from defaults. -/
theorem fits_filled {section_ base : Entries Str Json} (h : Fits (d + 1) (.obj section_))
    (hnodup : (Entries.keys base).Nodup) (hbase : ∀ e ∈ base, Fits d e.2) :
    Fits (d + 1) (.obj (updated base section_)) :=
  (fits_obj hnodup hbase).updated h.of_mem

/-- A role that is filled from its defaults. -/
theorem fits_role (h : Fits (d + 2) (.obj config)) (name legacy : String)
    {preset protocol endpoint model reference : String} {more : Entries Str Json}
    (hmore : ∀ e ∈ more, Fits d e.2)
    (hnodup : (Entries.keys (roleBase (configSection current legacy) preset protocol endpoint
      model reference more)).Nodup) (hcurrent : Fits (d + 2) (.obj current)) :
    Fits (d + 1) (.obj (updated (roleBase (configSection current legacy) preset protocol endpoint
      model reference more)
      (Entries.erase (configSection config name) (lit "credentialEnv")))) := by
  apply fits_filled (h.configSection name).erase hnodup
  have hlegacy := hcurrent.configSection legacy
  unfold roleBase
  rw [List.forall_mem_append]
  refine ⟨?_, hmore⟩
  simp only [List.forall_mem_cons, List.not_mem_nil, false_imp_iff, implies_true, and_true]
  exact ⟨fits_str d _, fits_str d _, hlegacy.getD (fits_str d _), hlegacy.getD (fits_str d _),
    fits_str d _, fits_str d _⟩

theorem nodup_mediaProcessorBase : (Entries.keys (mediaProcessorBase config)).Nodup := by
  change [lit "preset", lit "protocol", lit "endpoint", lit "model", lit "credentialRef",
    lit "credentialEnv"].Nodup
  decide

/-- The agent is filled from its defaults. -/
theorem fits_agent {host : Str} (h : Fits (d + 2) (.obj current))
    (hconfig : Fits (d + 2) (.obj config)) :
    Fits (d + 1) (.obj (updated [(lit "preset", .str (lit "opencodex")),
      (lit "protocol", .str (lit "openai-responses")),
      (lit "baseUrl", (Entries.get? (configSection current "opencodex") (lit "baseUrl")).getD
        (.str host))] (configSection config "codingAgent"))) := by
  refine fits_filled (hconfig.configSection _) ?_ ?_
  · change [lit "preset", lit "protocol", lit "baseUrl"].Nodup
    decide
  · simp only [List.forall_mem_cons, List.not_mem_nil, false_imp_iff, implies_true, and_true]
    exact ⟨fits_str d _, fits_str d _, (h.configSection "opencodex").getD (fits_str d _)⟩

/-- A normalized configuration is read back. -/
theorem fits_normalized (h : Fits (d + 2) (.obj config))
    (hn : normalizeNpmConfig I config = .ok result) : Fits (d + 2) (.obj result) := by
  have hprovider : ∀ e ∈ [(lit "reasoningEffort", Json.str (lit "provider_default"))],
      Fits d e.2 := List.forall_mem_singleton.mpr (fits_str d _)
  unfold normalizeNpmConfig at hn
  split at hn
  · cases hn
  · cases hn
    have heffort : Fits (d + 2) (.obj (Entries.set config (lit "reasoningEffort")
        (.str (textField I config "reasoningEffort" (defaultEffort config))))) :=
      h.set (fits_str (d + 1) _)
    refine (heffort.set (fits_agent h heffort)).set ?_ |>.set ?_
    · exact fits_role (heffort.set (fits_agent h heffort)) "textLlm" "solar" hprovider
        nodup_textLlmBase h
    · refine fits_role (Fits.set (heffort.set (fits_agent h heffort)) ?_) "mediaProcessor" "ocr"
        (List.forall_mem_nil _) nodup_mediaProcessorBase h
      exact fits_role (heffort.set (fits_agent h heffort)) "textLlm" "solar" hprovider
        nodup_textLlmBase h

end Fitting

section Saving

variable {H : RuntimeHost} {config result : Entries Str Json} {settings : SavedSettings} {d : Nat}

/-- The settings of an accepted payload, and the configuration that is written for them. -/
inductive Saved (H : RuntimeHost) (settings : SavedSettings) (config : Entries Str Json) : Prop
  | generic {path current fields request} : loadNpmConfig H path = .ok current →
      readGeneric H.interpreter fields current = .ok request →
      settings = genericSettings H.interpreter request →
      validatedGenericSettings H.interpreter (.obj fields) current = .ok config →
      Saved H settings config
  | form {path current payload} : loadNpmConfig H path = .ok current →
      readForm H.interpreter payload = .ok settings →
      validatedSettings H.interpreter payload current = .ok config → Saved H settings config

/-- What a written configuration says of its settings. -/
structure Written (settings : SavedSettings) (config : Entries Str Json) : Prop where
  textLlm : Entries.get? config (lit "textLlm") = some settings.textLlmJson
  mediaProcessor : Entries.get? config (lit "mediaProcessor") = some settings.mediaProcessorJson
  effort : Entries.get? config (lit "reasoningEffort") = some (.str settings.effort)
  port : Entries.get? config (lit "port") = some (.int settings.port)

/-- Every part of the settings is read back. -/
theorem fits_parts (settings : SavedSettings) (d : Nat) :
    ∀ part ∈ [settings.codingAgentJson, settings.textLlmJson, settings.mediaProcessorJson,
      settings.conversionJson, settings.failurePolicyJson, settings.opencodexJson,
      settings.solarJson, settings.ocrJson], Fits (d + 1) part := by
  have hagent : [lit "preset", lit "protocol", lit "baseUrl"].Nodup := by decide
  have hllm : [lit "preset", lit "protocol", lit "endpoint", lit "model", lit "reasoningEffort",
    lit "credentialRef", lit "credentialEnv"].Nodup := by decide
  have hmedia : [lit "preset", lit "protocol", lit "endpoint", lit "model", lit "credentialRef",
    lit "credentialEnv"].Nodup := by decide
  have hconversion : [lit "maxBytes", lit "ocrEnabled", lit "visionEnabled"].Nodup := by decide
  have hlegacy : [lit "model", lit "endpoint", lit "apiKeyEnv"].Nodup := by decide
  simp only [List.forall_mem_cons, List.not_mem_nil, false_imp_iff, implies_true, and_true]
  refine ⟨fits_obj hagent ?_, fits_obj hllm ?_, fits_obj hmedia ?_, fits_obj hconversion ?_,
    fits_obj (List.nodup_singleton _) ?_, fits_obj (List.nodup_singleton _) ?_,
    fits_obj hlegacy ?_, fits_obj hlegacy ?_⟩ <;>
  simp only [List.forall_mem_cons, List.not_mem_nil, false_imp_iff, implies_true, and_true,
    fits_str, fits_int, fits_bool]

/-- The address and the effort of the settings are read back. -/
theorem fits_launch (h : Fits (d + 1) (.obj config)) :
    Fits (d + 1) (.obj (settings.launch config)) := by
  apply h.updated
  simp only [List.forall_mem_cons, List.not_mem_nil, false_imp_iff, implies_true, and_true,
    fits_str, fits_int]

theorem get?_launch_effort :
    Entries.get? (settings.launch config) (lit "reasoningEffort") =
      some (.str settings.effort) := by
  rw [SavedSettings.launch, get?_updated]
  · rfl
  · change [lit "runtimeMode", lit "host", lit "port", lit "reasoningEffort"].Nodup
    decide

theorem get?_launch_port :
    Entries.get? (settings.launch config) (lit "port") = some (.int settings.port) := by
  rw [SavedSettings.launch, get?_updated]
  · rfl
  · change [lit "runtimeMode", lit "host", lit "port", lit "reasoningEffort"].Nodup
    decide

/-- What the generic validator writes. -/
theorem written_genericConfig : Written settings (genericConfig config settings) := by
  have hget (key : Str) : Entries.get? (genericConfig config settings) key =
      (Entries.get? [(lit "codingAgent", settings.codingAgentJson),
        (lit "textLlm", settings.textLlmJson), (lit "mediaProcessor", settings.mediaProcessorJson),
        (lit "conversion", settings.conversionJson),
        (lit "failurePolicy", settings.failurePolicyJson),
        (lit "opencodex", settings.opencodexJson), (lit "solar", settings.solarJson),
        (lit "ocr", settings.ocrJson)] key).or (Entries.get? (settings.launch config) key) := by
    apply get?_updated
    change [lit "codingAgent", lit "textLlm", lit "mediaProcessor", lit "conversion",
      lit "failurePolicy", lit "opencodex", lit "solar", lit "ocr"].Nodup
    decide
  refine ⟨?_, ?_, ?_, ?_⟩
  · rw [hget]
    rfl
  · rw [hget]
    rfl
  · rw [hget]
    exact get?_launch_effort
  · rw [hget]
    exact get?_launch_port

theorem fits_genericConfig (h : Fits (d + 2) (.obj config)) :
    Fits (d + 2) (.obj (genericConfig config settings)) := by
  have hparts := fits_parts settings d
  simp only [List.forall_mem_cons, List.not_mem_nil, false_imp_iff, implies_true, and_true]
    at hparts
  obtain ⟨hagent, hllm, hmedia, hconversion, hpolicy, hopencodex, hsolar, hocr⟩ := hparts
  apply (fits_launch h).updated
  simp only [List.forall_mem_cons, List.not_mem_nil, false_imp_iff, implies_true, and_true]
  exact ⟨hagent, hllm, hmedia, hconversion, hpolicy, hopencodex, hsolar, hocr⟩

theorem get?_legacyConfig {key : Str}
    (hkey : key ∉ [lit "opencodex", lit "solar", lit "ocr", lit "conversion",
      lit "failurePolicy"]) :
    Entries.get? (legacyConfig config settings) key = Entries.get? (settings.launch config) key :=
  get?_updated_of_notMem hkey

theorem fits_legacyConfig (h : Fits (d + 2) (.obj config)) :
    Fits (d + 2) (.obj (legacyConfig config settings)) := by
  have hparts := fits_parts settings d
  simp only [List.forall_mem_cons, List.not_mem_nil, false_imp_iff, implies_true, and_true]
    at hparts
  obtain ⟨-, -, -, hconversion, hpolicy, hopencodex, hsolar, hocr⟩ := hparts
  apply (fits_launch h).updated
  simp only [List.forall_mem_cons, List.not_mem_nil, false_imp_iff, implies_true, and_true]
  exact ⟨hopencodex, hsolar, hocr, hconversion, hpolicy⟩

/-- What the form writes over a normalized configuration. -/
def formConfig (normalized : Entries Str Json) (settings : SavedSettings) : Entries Str Json :=
  updated normalized
    [(lit "codingAgent", settings.codingAgentJson), (lit "textLlm", settings.textLlmJson),
      (lit "mediaProcessor", settings.mediaProcessorJson)]

theorem fits_formConfig (h : Fits (d + 2) (.obj config)) :
    Fits (d + 2) (.obj (formConfig config settings)) := by
  have hparts := fits_parts settings d
  simp only [List.forall_mem_cons, List.not_mem_nil, false_imp_iff, implies_true, and_true]
    at hparts
  obtain ⟨hagent, hllm, hmedia, -⟩ := hparts
  apply h.updated
  simp only [List.forall_mem_cons, List.not_mem_nil, false_imp_iff, implies_true, and_true]
  exact ⟨hagent, hllm, hmedia⟩

theorem written_formConfig {I : Interpreter}
    (h : normalizeNpmConfig I (legacyConfig config settings) = .ok result) :
    Written settings (formConfig result settings) := by
  have hfrom := normalizedFrom h
  have hnodup : [lit "codingAgent", lit "textLlm", lit "mediaProcessor"].Nodup := by decide
  have hnew (key : Str) : Entries.get? (formConfig result settings) key =
      (Entries.get? [(lit "codingAgent", settings.codingAgentJson),
        (lit "textLlm", settings.textLlmJson),
        (lit "mediaProcessor", settings.mediaProcessorJson)] key).or (Entries.get? result key) :=
    get?_updated hnodup
  refine ⟨?_, ?_, ?_, ?_⟩
  · rw [hnew]
    rfl
  · rw [hnew]
    rfl
  · rw [hnew]
    change Entries.get? result (lit "reasoningEffort") = _
    rw [hfrom.effort, textField_eq, get?_legacyConfig (by decide), get?_launch_effort]
    rfl
  · rw [hnew]
    change Entries.get? result (lit "port") = _
    rw [hfrom.port, get?_legacyConfig (by decide), get?_launch_port]

/-- What both validators check of the providers. -/
structure ProvidersChecked (I : Interpreter) (settings : SavedSettings) : Prop where
  endpoint : ∃ loopback, validateEndpoint I settings.llm.endpoint loopback = .ok ()
  mediaEndpoint : ∃ loopback, validateEndpoint I settings.media.endpoint loopback = .ok ()
  filled : settings.llm.model ≠ []
  effort : effortAccepted I settings.llm.preset settings.llm.protocol settings.llm.model
    settings.llmEffort settings.effort = true

/-- The protocols of settings, and texts that are stripped. -/
structure ProvidersRead (settings : SavedSettings) : Prop where
  protocol : settings.llm.protocol.strip = settings.llm.protocol
  model : settings.llm.model.strip = settings.llm.model
  isText : isTextProtocol settings.llm.protocol = true
  mediaProtocol : settings.media.protocol.strip = lit "upstage-document-parse"

theorem checked_of_generic {I : Interpreter} (h : checkGeneric I settings = .ok ()) :
    ProvidersChecked I settings ∧ profilesAccepted I settings = true := by
  unfold checkGeneric at h
  split at h
  · cases h
  · obtain ⟨⟨⟩, -, h⟩ := ok_of_bind h
    obtain ⟨⟨⟩, hendpoint, h⟩ := ok_of_bind h
    obtain ⟨⟨⟩, hmedia, h⟩ := ok_of_bind h
    split at h
    · cases h
    · next hprofiles =>
        split at h
        · cases h
        · next heffort =>
            have haccepted := not_not.mp hprofiles
            refine ⟨⟨⟨true, hendpoint⟩, ⟨true, hmedia⟩, ?_, not_not.mp heffort⟩, haccepted⟩
            simp only [profilesAccepted, Bool.and_eq_true, Bool.not_eq_true',
              List.isEmpty_eq_false_iff] at haccepted
            exact haccepted.1.1.1.1.1.1.1.1.2

theorem checked_of_form {I : Interpreter} (h : checkForm I settings = .ok ()) :
    ProvidersChecked I settings := by
  unfold checkForm at h
  split at h
  · cases h
  · obtain ⟨⟨⟩, -, h⟩ := ok_of_bind h
    obtain ⟨⟨⟩, hendpoint, h⟩ := ok_of_bind h
    obtain ⟨⟨⟩, hmedia, h⟩ := ok_of_bind h
    split at h
    · cases h
    · next hfilled =>
        split at h
        · cases h
        · next heffort =>
            exact ⟨⟨false, hendpoint⟩, ⟨false, hmedia⟩, hfilled, not_not.mp heffort⟩

theorem read_of_generic {I : Interpreter} {request : GenericPayload}
    (h : profilesAccepted I (genericSettings I request) = true) :
    ProvidersRead (genericSettings I request) := by
  simp only [profilesAccepted, Bool.and_eq_true, decide_eq_true_eq] at h
  refine ⟨Str.strip_strip _, Str.strip_strip _, h.1.1.1.1.1.1.1.1.1.2, ?_⟩
  rw [h.1.1.1.1.1.2]
  decide

theorem read_of_form {I : Interpreter} {payload : Entries Str Str}
    (h : readForm I payload = .ok settings) : ProvidersRead settings := by
  obtain ⟨port, -, h⟩ := ok_of_bind h
  obtain ⟨maxBytes, -, h⟩ := ok_of_bind h
  obtain ⟨baseUrl, -, h⟩ := ok_of_bind h
  obtain ⟨model, hmodel, h⟩ := ok_of_bind h
  obtain ⟨endpoint, -, h⟩ := ok_of_bind h
  obtain ⟨mediaEndpoint, -, h⟩ := ok_of_bind h
  cases h
  have htext : (lit "openai-chat-completions").strip = lit "openai-chat-completions" := by decide
  have hisText : isTextProtocol (lit "openai-chat-completions") = true := by decide
  have hdocument : (lit "upstage-document-parse").strip = lit "upstage-document-parse" := by decide
  refine ⟨htext, ?_, hisText, hdocument⟩
  unfold formText at hmodel
  split at hmodel
  · cases hmodel
  · cases hmodel
    exact Str.strip_strip _

/-- What holds of saved settings, and of the configuration that is written for them. -/
structure SavedFrom (H : RuntimeHost) (settings : SavedSettings) (config : Entries Str Json) :
    Prop where
  checked : ProvidersChecked H.interpreter settings
  read : ProvidersRead settings
  written : Written settings config
  fits : Fits H.interpreter.platform.jsonDepth (.obj config)

theorem savedFrom (h : Saved H settings config) : SavedFrom H settings config := by
  obtain ⟨d, hd⟩ : ∃ d, H.interpreter.platform.jsonDepth = d + 2 :=
    ⟨H.interpreter.platform.jsonDepth - 2, by have := H.depth; omega⟩
  cases h with
  | @generic path current fields request hload hread hsettings hvalid =>
      have hcurrent := fits_of_loadNpmConfig hload
      obtain ⟨request', hrequest', hvalid⟩ := ok_of_bind hvalid
      obtain ⟨⟨⟩, hchecked, hvalid⟩ := ok_of_bind hvalid
      obtain ⟨normalized, hnormalized, hvalid⟩ := ok_of_bind hvalid
      rw [mapError_eq_ok_iff] at hrequest' hnormalized
      rw [hread] at hrequest'
      cases hrequest'
      cases hvalid
      subst hsettings
      obtain ⟨hproviders, hprofiles⟩ := checked_of_generic hchecked
      refine ⟨hproviders, read_of_generic hprofiles, written_genericConfig, ?_⟩
      rw [hd] at hcurrent ⊢
      exact fits_genericConfig (fits_normalized hcurrent hnormalized)
  | @form path current payload hload hread hvalid =>
      have hcurrent := fits_of_loadNpmConfig hload
      obtain ⟨settings', hsettings', hvalid⟩ := ok_of_bind hvalid
      obtain ⟨⟨⟩, hchecked, hvalid⟩ := ok_of_bind hvalid
      obtain ⟨normalized, hnormalized, hvalid⟩ := ok_of_bind hvalid
      rw [mapError_eq_ok_iff] at hsettings' hnormalized
      rw [hread] at hsettings'
      cases hsettings'
      cases hvalid
      refine ⟨checked_of_form hchecked, read_of_form hread, written_formConfig hnormalized, ?_⟩
      rw [hd] at hcurrent ⊢
      exact fits_formConfig (fits_normalized (fits_legacyConfig hcurrent) hnormalized)

end Saving

section Profile

variable {H : RuntimeHost} {config : Entries Str Json} {settings : SavedSettings}

/-- The profile that saved settings ask for. -/
def SavedSettings.profile (settings : SavedSettings) : RuntimeProfile where
  protocol := settings.llm.protocol
  endpoint := settings.llm.endpoint
  model := settings.llm.model
  effort :=
    if settings.llmEffort ≠ lit "provider_default" then settings.llmEffort else settings.effort
  credentialRef := settings.llm.credentialRef
  mediaProtocol := lit "upstage-document-parse"
  mediaEndpoint := settings.media.endpoint
  mediaCredentialRef := settings.media.credentialRef

/-- A written configuration has the profile of its settings. -/
theorem configProfile_of_written (h : Written settings config) (hread : ProvidersRead settings) :
    configProfile H.interpreter config = settings.profile := by
  have htext : configSection config "textLlm" = (settings.textLlmJson.obj?).getD [] := by
    rw [configSection, Json.field, h.textLlm]
    rfl
  have hmedia : configSection config "mediaProcessor" =
      (settings.mediaProcessorJson.obj?).getD [] := by
    rw [configSection, Json.field, h.mediaProcessor]
    rfl
  have heffort : textField H.interpreter config "reasoningEffort" (defaultEffort config) =
      settings.effort := by
    rw [textField_eq, h.effort]
    rfl
  have hrole {section_ base : Entries Str Json} {key : String} {value : Str}
      (hvalue : Entries.get? section_ (lit key) = some (.str value)) :
      roleText H.interpreter section_ base key = value := by
    rw [roleText, hvalue]
    rfl
  unfold configProfile effectiveEffort
  rw [htext, hmedia, heffort, hrole rfl, hrole rfl, hrole rfl, hrole rfl, hrole rfl, hrole rfl,
    hrole rfl, hrole rfl, hread.protocol, hread.model, hread.mediaProtocol]
  rfl

/-- The path of an endpoint is a given one. -/
def pathIs (I : Interpreter) (endpoint : Str) (path : String) : Bool :=
  (UrlSplit.urlsplit I.unicode endpoint).any fun parsed => decide (parsed.path = lit path)

/-- An endpoint that passes the validator has all that the runtime asks of it, but for its path. -/
theorem endpointAccepted_of_validated {I : Interpreter} {endpoint : Str} {loopback : Bool}
    (h : validateEndpoint I endpoint loopback = .ok ()) :
    ∃ parsed, UrlSplit.urlsplit I.unicode endpoint = some parsed ∧
      endpointAccepted I parsed = true := by
  unfold validateEndpoint at h
  split at h
  · cases h
  · next parsed hparsed =>
      split at h
      · cases h
      · next hchecks =>
          simp only [not_or, not_and, not_not] at hchecks
          obtain ⟨hhost, huser, hquery, hfragment, hscheme⟩ := hchecks
          refine ⟨parsed, hparsed, ?_⟩
          have hallowed : parsed.scheme = lit "https" ∨
              (parsed.scheme = lit "http" ∧ loopbackHost I parsed = true) := by
            by_cases hsecure : parsed.scheme = lit "https"
            · exact .inl hsecure
            · refine .inr (by_contra fun hno => ?_)
              exact hscheme hsecure fun _ hhttp hloopback => hno ⟨hhttp, hloopback⟩
          simp [endpointAccepted, hallowed, hhost, huser, hquery, hfragment]

theorem documentEndpoint_iff {I : Interpreter} {endpoint : Str}
    (h : ∃ loopback, validateEndpoint I endpoint loopback = .ok ()) :
    documentEndpoint I endpoint = true ↔ pathIs I endpoint "/v1/document-digitization" = true := by
  obtain ⟨loopback, h⟩ := h
  obtain ⟨parsed, hparsed, haccepted⟩ := endpointAccepted_of_validated h
  rw [documentEndpoint, pathIs, hparsed, Option.any_some, Option.any_some, haccepted,
    Bool.true_and]

theorem textEndpoint_iff {I : Interpreter} {protocol endpoint : Str}
    (h : ∃ loopback, validateEndpoint I endpoint loopback = .ok ())
    (hprotocol : isTextProtocol protocol = true) :
    textEndpoint I protocol endpoint = true ↔
      pathEndsWith I endpoint (expectedPath protocol) = true := by
  obtain ⟨loopback, h⟩ := h
  obtain ⟨parsed, hparsed, haccepted⟩ := endpointAccepted_of_validated h
  rw [textEndpoint, pathEndsWith, hparsed, Option.any_some, Option.any_some, haccepted, hprotocol,
    Bool.true_and, Bool.true_and]

/-- An accepted effort is supported. -/
theorem effortSupported_of_accepted {I : Interpreter} {preset protocol model override default : Str}
    (h : effortAccepted I preset protocol model override default = true) :
    effortSupported I protocol model
      (if override ≠ lit "provider_default" then override else default) = true := by
  unfold effortAccepted at h
  unfold effortSupported
  generalize (if override ≠ lit "provider_default" then override else default) = effort at h ⊢
  by_cases hpreset : preset = lit "upstage-solar"
  · rw [if_pos hpreset] at h
    exact h
  · rw [if_neg hpreset] at h
    rw [Bool.or_eq_true] at h ⊢
    exact .inl (h.resolve_right nofun)

end Profile

section Results

variable {H : RuntimeHost} {S : Surroundings} {config fields : Entries Str Json}
  {settings : SavedSettings} {credentials : PathContent} {setting : RequestSetting}
  {text secret : Str}

/-- The written configuration is read, a runtime is built from it, and the request is sent to the
endpoint of the settings with their model. -/
def Runs (H : RuntimeHost) (S : Surroundings) (settings : SavedSettings)
    (config : Entries Str Json) (credentials : PathContent) (setting : RequestSetting)
    (fields : Entries Str Json) : Prop :=
  ∃ data runtime request, documentBytes H (.obj config) = some data ∧
    buildFromConfig H S (.file data true) = .ok runtime ∧
    runtime.request H setting credentials (.obj fields) = .ok request ∧
    request.endpoint = settings.llm.endpoint ∧
    Json.field request.payload "model" = .str settings.llm.model

/-- What the validators leave open. -/
structure Runnable (H : RuntimeHost) (S : Surroundings) (settings : SavedSettings)
    (config : Entries Str Json) (now : Instant) : Prop where
  written : ∃ data, documentBytes H (.obj config) = some data ∧ data.length ≤ maxDocumentBytes
  equipped : ∃ assetRoot signer, Equipped S assetRoot (GateReceiptSigner.secret signer)
  mediaPath : pathIs H.interpreter settings.media.endpoint "/v1/document-digitization" = true
  path : pathEndsWith H.interpreter settings.llm.endpoint
    (expectedPath settings.llm.protocol) = true
  model : registryIdPattern settings.llm.model = true
  noData : MediaReference.startsAsData H.interpreter.unicode settings.llm.model = false
  fresh : now < modelExpiry

/-- The profile of saved settings is accepted exactly with the paths that the runtime expects. -/
theorem profileAccepted_iff (h : SavedFrom H settings config) :
    ProfileAccepted H.interpreter settings.profile ↔
      pathIs H.interpreter settings.media.endpoint "/v1/document-digitization" = true ∧
        pathEndsWith H.interpreter settings.llm.endpoint
          (expectedPath settings.llm.protocol) = true := by
  have hmedia := documentEndpoint_iff h.checked.mediaEndpoint
  have htext := textEndpoint_iff h.checked.endpoint h.read.isText
  constructor
  · intro haccepted
    exact ⟨hmedia.mp haccepted.mediaEndpoint, htext.mp haccepted.endpoint⟩
  · rintro ⟨hmediaPath, hpath⟩
    refine ⟨rfl, hmedia.mpr hmediaPath, htext.mpr hpath,
      effortSupported_of_accepted h.checked.effort, ?_⟩
    exact h.read.model.symm ▸ h.checked.filled

/-- A runtime is built from a written configuration for the profile of its settings. -/
theorem exists_builtFrom_iff (h : SavedFrom H settings config) {data : Bytes}
    (hdata : documentBytes H (.obj config) = some data) :
    ∃ isSolar, ∀ runtime, buildFromConfig H S (.file data true) = .ok runtime ↔
      data.length ≤ maxDocumentBytes ∧
        BuiltFrom H.interpreter S settings.profile isSolar runtime := by
  have hprofile : configProfile H.interpreter config = settings.profile :=
    configProfile_of_written h.written h.read
  obtain ⟨normalized, hnormalized⟩ :
      ∃ normalized, normalizeNpmConfig H.interpreter config = .ok normalized := by
    rw [normalizeNpmConfig_isOk_iff, h.written.port]
    exact ⟨settings.port, rfl⟩
  refine ⟨isSolarPreset normalized, fun runtime => ?_⟩
  rw [buildFromConfig_eq_ok_iff, loadNpmConfig_documentBytes h.fits hdata]
  constructor
  · rintro ⟨config', normalized', hload, hnormalized', hbuilt⟩
    split at hload
    · cases hload
    · next hlength =>
        cases hload
        rw [hnormalized] at hnormalized'
        cases hnormalized'
        rw [hprofile] at hbuilt
        exact ⟨not_lt.mp hlength, hbuilt⟩
  · rintro ⟨hlength, hbuilt⟩
    refine ⟨config, normalized, if_neg (not_lt.mpr hlength), hnormalized, ?_⟩
    rw [hprofile]
    exact hbuilt

/-- A runtime of saved settings sends a plain request exactly with an accepted model. -/
theorem sent_iff {isSolar : Bool} {runtime : PersonalRuntime}
    (hbuilt : BuiltFrom H.interpreter S settings.profile isSolar runtime)
    (hstored : resolveCredential H credentials settings.llm.credentialRef = .ok secret)
    (htimely : Timely setting) (hplain : PlainRequest H.interpreter.unicode fields text) :
    (∃ request, runtime.request H setting credentials (.obj fields) = .ok request ∧
      request.endpoint = settings.llm.endpoint ∧
      Json.field request.payload "model" = .str settings.llm.model) ↔
      ModelAccepted H.interpreter.unicode settings.llm.model ∧ setting.gateNow < modelExpiry := by
  obtain ⟨assetRoot, signer, -, rfl⟩ := hbuilt.equipped
  exact request_auto_iff hplain rfl hbuilt.accepted.effort htimely hstored

/-- Saved settings run exactly when they pass the checks that the validators leave open. -/
theorem saved_runs_iff (hsaved : Saved H settings config)
    (hstored : resolveCredential H credentials settings.llm.credentialRef = .ok secret)
    (htimely : Timely setting) (hplain : PlainRequest H.interpreter.unicode fields text) :
    Runs H S settings config credentials setting fields ↔
      Runnable H S settings config setting.gateNow := by
  have h := savedFrom hsaved
  constructor
  · rintro ⟨data, runtime, request, hdata, hruntime, hrequest⟩
    obtain ⟨isSolar, hbuild⟩ := exists_builtFrom_iff (S := S) h hdata
    obtain ⟨hlength, hbuilt⟩ := (hbuild runtime).mp hruntime
    obtain ⟨hmodel, hnow⟩ := (sent_iff hbuilt hstored htimely hplain).mp ⟨request, hrequest⟩
    obtain ⟨assetRoot, signer, hequipped, -⟩ := hbuilt.equipped
    obtain ⟨hmediaPath, hpath⟩ := (profileAccepted_iff h).mp hbuilt.accepted
    exact ⟨⟨data, hdata, hlength⟩, ⟨assetRoot, signer, hequipped⟩, hmediaPath, hpath,
      hmodel.pattern, hmodel.clean, hnow⟩
  · intro hrunnable
    obtain ⟨data, hdata, hlength⟩ := hrunnable.written
    obtain ⟨assetRoot, signer, hequipped⟩ := hrunnable.equipped
    obtain ⟨isSolar, hbuild⟩ := exists_builtFrom_iff (S := S) h hdata
    have hbuilt : BuiltFrom H.interpreter S settings.profile isSolar
        (settings.profile.runtime isSolar assetRoot signer) :=
      ⟨(profileAccepted_iff h).mpr ⟨hrunnable.mediaPath, hrunnable.path⟩,
        assetRoot, signer, hequipped, rfl⟩
    obtain ⟨request, hrequest⟩ := (sent_iff hbuilt hstored htimely hplain).mpr
      ⟨⟨hrunnable.model, hrunnable.noData⟩, hrunnable.fresh⟩
    exact ⟨data, _, request, hdata, (hbuild _).mpr ⟨hlength, hbuilt⟩, hrequest⟩

end Results

section Sample

/-- `int` of decimal digits, and of numbers that are integers. -/
def sampleIntOf : Json → Except PayloadError Int
  | .str (c :: rest) =>
      if (c :: rest).all CodePoint.isAsciiDigit then .ok (JsonText.digitsValue (c :: rest))
      else .error .caught
  | v =>
      match integerValue v with
      | some n => .ok n
      | none => .error .caught

theorem sampleIntOf_float {bits : BitVec 64} {n : Int} (h : integerValue (.float bits) = some n) :
    sampleIntOf (.float bits) = .ok n := by
  rw [sampleIntOf, h]
  nofun

/-- An interpreter for concrete runs. -/
def sampleRuntimeHost : RuntimeHost where
  interpreter := ⟨{ Platform.sample with float := .numbered, intOf := sampleIntOf }, .ascii id,
    Str.asciiLower⟩
  faithful := FloatText.numbered_faithful
  depth := by decide
  intOf_float := sampleIntOf_float

/-- An environment with a directory and a secret. -/
def sampleSurroundings : Surroundings where
  environ := [(lit "MEDIA_BRIDGE_ASSET_ROOT", lit "/data"),
    (lit "MEDIA_BRIDGE_RECEIPT_SECRET", List.replicate 32 (cp 120))]
  secretFile _ := .unavailable
  makesDirectory _ := true

/-- A form with the defaults, but for the endpoint of the media processor. -/
def sampleForm (ocrEndpoint : String) : Entries Str Str :=
  [(lit "port", lit "8642"), (lit "max_bytes", lit "1048576"),
    (lit "opencodex_base_url", lit "http://127.0.0.1:8642/v1"),
    (lit "solar_model", lit "solar-pro4"),
    (lit "solar_endpoint", lit "https://api.upstage.ai/v1/chat/completions"),
    (lit "ocr_endpoint", lit ocrEndpoint)]

/-- The file of a store with one secret. -/
def sampleCredentials : PathContent :=
  match documentBytes sampleRuntimeHost (storeDocument [(lit "text-llm", lit "secret")]) with
  | some data => .file data true
  | none => .absent

theorem ttl_range_sampleSetting : 1 ≤ 1800 ∧ 1800 ≤ 86400 := by decide

theorem entries_range_sampleSetting : 1 ≤ 1000 ∧ 1000 ≤ 100000 := by decide

/-- A turn in which no time passes. -/
def sampleSetting : RequestSetting where
  setOrder := ⟨List.dedup, perm_dedup⟩
  backends := PreRequestGate.sampleBackends
  store := { ttl_range := ttl_range_sampleSetting, entries_range := entries_range_sampleSetting }
  storeNow := 0
  gateNow := 0
  gateSignedAt := 0
  verifiedAt := 0
  signedAt := 0
  guardedAt := 0
  entropy := SealedTurn.sampleEntropy
  budget := 900
  stack := 900

theorem timely_sampleSetting : Timely sampleSetting := by
  refine ⟨?_, ?_, le_rfl, ?_, le_rfl, ?_, by decide, by decide⟩
  · norm_num [sampleSetting]
  · norm_num [sampleSetting]
  · simp [sampleSetting]
  · simp [sampleSetting]

/-- A greeting for `auto`. -/
def samplePlainRequest : Entries Str Json :=
  [(lit "model", .str (lit "auto")), (lit "input", .str (lit "hello"))]

theorem plain_samplePlainRequest :
    PlainRequest sampleRuntimeHost.interpreter.unicode samplePlainRequest (lit "hello") := by
  refine ⟨⟨by rfl, by rfl, ?_⟩, by decide, by decide, by decide, by decide, by decide⟩
  exact List.forall_mem_cons.mpr ⟨.inl rfl, List.forall_mem_singleton.mpr (.inr (.inl rfl))⟩

/-- The settings of a form over the default configuration, and what is written for them. -/
def sampleSaved (ocrEndpoint : String) :
    Except SettingsError (SavedSettings × Entries Str Json) := do
  let current ← (loadNpmConfig sampleRuntimeHost .absent).mapError fun _ => .raised
  let settings ← (readForm sampleRuntimeHost.interpreter (sampleForm ocrEndpoint)).mapError
    fun _ => .invalid
  let config ← validatedSettings sampleRuntimeHost.interpreter (sampleForm ocrEndpoint) current
  return (settings, config)

theorem saved_of_sampleSaved {ocrEndpoint : String} {settings : SavedSettings}
    {config : Entries Str Json} (h : sampleSaved ocrEndpoint = .ok (settings, config)) :
    Saved sampleRuntimeHost settings config := by
  obtain ⟨current, hload, h⟩ := ok_of_bind h
  obtain ⟨settings', hsettings, h⟩ := ok_of_bind h
  obtain ⟨config', hconfig, h⟩ := ok_of_bind h
  cases h
  exact .form (mapError_eq_ok_iff.mp hload) (mapError_eq_ok_iff.mp hsettings) hconfig

theorem exists_sampleSaved {ocrEndpoint : String} {p : SavedSettings × Entries Str Json → Bool}
    (h : (sampleSaved ocrEndpoint).toOption.any p = true) :
    ∃ settings config, Saved sampleRuntimeHost settings config ∧ p (settings, config) = true := by
  cases hsaved : sampleSaved ocrEndpoint with
  | error e =>
      rw [hsaved] at h
      cases h
  | ok saved =>
      rw [hsaved] at h
      exact ⟨saved.1, saved.2, saved_of_sampleSaved hsaved, h⟩

theorem resolve_sampleCredentials :
    resolveCredential sampleRuntimeHost sampleCredentials (lit "text-llm") =
      .ok (lit "secret") := by
  decide +kernel

/-- The settings run in the sample environment. -/
def sampleRuns (saved : SavedSettings × Entries Str Json) : Bool :=
  ((documentBytes sampleRuntimeHost (.obj saved.2)).any fun data =>
    decide (data.length ≤ maxDocumentBytes)) &&
    decide (saved.1.llm.credentialRef = lit "text-llm") &&
    pathIs sampleRuntimeHost.interpreter saved.1.media.endpoint "/v1/document-digitization" &&
    pathEndsWith sampleRuntimeHost.interpreter saved.1.llm.endpoint
      (expectedPath saved.1.llm.protocol) &&
    registryIdPattern saved.1.llm.model &&
    !MediaReference.startsAsData sampleRuntimeHost.interpreter.unicode saved.1.llm.model

theorem equipped_sampleSurroundings : ∃ assetRoot signer,
    Equipped sampleSurroundings assetRoot (GateReceiptSigner.secret signer) :=
  ⟨lit "/data", ⟨List.replicate 32 (Utf8.byte 120), by decide⟩, by rfl, by rfl, rfl⟩

/-- The default settings run. -/
theorem saved_runs_iff_sample : ∃ settings config, Saved sampleRuntimeHost settings config ∧
    Runs sampleRuntimeHost sampleSurroundings settings config sampleCredentials sampleSetting
      samplePlainRequest := by
  have hruns : (sampleSaved "https://api.upstage.ai/v1/document-digitization").toOption.any
      sampleRuns = true := by decide +kernel
  obtain ⟨settings, config, hsaved, htest⟩ := exists_sampleSaved hruns
  simp only [sampleRuns, Bool.and_eq_true, decide_eq_true_eq, Bool.not_eq_true'] at htest
  obtain ⟨⟨⟨⟨⟨hwritten, href⟩, hmediaPath⟩, hpath⟩, hmodel⟩, hclean⟩ := htest
  obtain ⟨data, hdata, hlength⟩ := (Option.any_eq_true _ _).mp hwritten
  have hstored : resolveCredential sampleRuntimeHost sampleCredentials
      settings.llm.credentialRef = .ok (lit "secret") := by
    rw [href]
    exact resolve_sampleCredentials
  refine ⟨settings, config, hsaved, (saved_runs_iff hsaved hstored timely_sampleSetting
    plain_samplePlainRequest).mpr ?_⟩
  exact ⟨⟨data, hdata, of_decide_eq_true hlength⟩, equipped_sampleSurroundings,
    hmediaPath, hpath, hmodel, hclean, by decide⟩

/-- An endpoint with another path is accepted, and no runtime is built from what is written. -/
theorem accepted_settings_without_runtime :
    ¬ ∀ (H : RuntimeHost) (S : Surroundings) (settings : SavedSettings)
      (config fields : Entries Str Json) (credentials : PathContent) (setting : RequestSetting)
      (text secret : Str), Saved H settings config →
        (∃ assetRoot signer, Equipped S assetRoot (GateReceiptSigner.secret signer)) →
        resolveCredential H credentials settings.llm.credentialRef = .ok secret →
        Timely setting → setting.gateNow < modelExpiry →
        PlainRequest H.interpreter.unicode fields text →
        Runs H S settings config credentials setting fields := by
  intro hall
  have hpaths : (sampleSaved "https://api.upstage.ai/v1/ocr").toOption.any (fun saved =>
      decide (saved.1.llm.credentialRef = lit "text-llm") &&
        !pathIs sampleRuntimeHost.interpreter saved.1.media.endpoint "/v1/document-digitization") =
      true := by decide +kernel
  obtain ⟨settings, config, hsaved, htest⟩ := exists_sampleSaved hpaths
  obtain ⟨href, hpath⟩ := Bool.and_eq_true_iff.mp htest
  have hstored : resolveCredential sampleRuntimeHost sampleCredentials
      settings.llm.credentialRef = .ok (lit "secret") := by
    rw [of_decide_eq_true href]
    exact resolve_sampleCredentials
  obtain ⟨data, runtime, request, hdata, hruntime, -⟩ := hall _ _ settings config _ _
    sampleSetting _ _ hsaved equipped_sampleSurroundings hstored timely_sampleSetting (by decide)
    plain_samplePlainRequest
  have h := savedFrom hsaved
  obtain ⟨isSolar, hbuild⟩ := exists_builtFrom_iff (S := sampleSurroundings) h hdata
  have haccepted := ((hbuild runtime).mp hruntime).2.accepted
  rw [((profileAccepted_iff h).mp haccepted).1] at hpath
  cases hpath

end Sample

end MediaBridge.Personal
