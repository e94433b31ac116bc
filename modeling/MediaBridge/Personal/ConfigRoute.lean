import MediaBridge.Foundation.Raise
import MediaBridge.Personal.Composition

/-!
# What the runtime reads of a configuration

A normalized configuration has its newer sections filled from the older ones and from defaults.
`configProfile` says what the runtime takes from each place, and a runtime is built exactly when the
profile passes the checks of its parts.
-/

namespace MediaBridge.Personal

open Foundation MediaBridge.Core Gateway

section Sections

variable {I : Interpreter} {config normalized : Entries Str Json}

/-- The defaults of a role, with the endpoint and the model of its older section. -/
def roleBase (legacy : Entries Str Json) (preset protocol endpoint model reference : String)
    (more : Entries Str Json) : Entries Str Json :=
  [(lit "preset", .str (lit preset)), (lit "protocol", .str (lit protocol)),
    (lit "endpoint", (Entries.get? legacy (lit "endpoint")).getD (.str (lit endpoint))),
    (lit "model", (Entries.get? legacy (lit "model")).getD (.str (lit model))),
    (lit "credentialRef", .str (lit reference)), (lit "credentialEnv", .str [])] ++ more

/-- The defaults of the text model. -/
def textLlmBase (config : Entries Str Json) : Entries Str Json :=
  roleBase (configSection config "solar") "upstage-solar" "openai-chat-completions"
    "https://api.upstage.ai/v1/chat/completions" "solar-pro4" "text-llm"
    [(lit "reasoningEffort", .str (lit "provider_default"))]

/-- The defaults of the media processor. -/
def mediaProcessorBase (config : Entries Str Json) : Entries Str Json :=
  roleBase (configSection config "ocr") "upstage-document-parse" "upstage-document-parse"
    "https://api.upstage.ai/v1/document-digitization" "document-parse" "media-processor" []

/-- The effort of a configuration that names none. -/
def defaultEffort (config : Entries Str Json) : Str :=
  if (Json.field (configSection config "textLlm") "preset").isLit "custom" then
    lit "provider_default"
  else lit "medium"

theorem configSection_set {fields : Entries Str Json} {name other : String} {v : Json}
    (h : lit other ≠ lit name) :
    configSection (Entries.set fields (lit name) v) other = configSection fields other := by
  rw [configSection, configSection, Json.field, Json.field, Entries.get?_set_of_ne _ _ h]

theorem configSection_set_self {fields section_ : Entries Str Json} {name : String} :
    configSection (Entries.set fields (lit name) (.obj section_)) name = section_ := by
  rw [configSection, Json.field, Entries.get?_set_self]
  rfl

/-- What a normalization leaves in the sections of the providers, and the effort. -/
structure NormalizedFrom (I : Interpreter) (config normalized : Entries Str Json) : Prop where
  textLlm : configSection normalized "textLlm" =
    updated (textLlmBase config) (Entries.erase (configSection config "textLlm")
      (lit "credentialEnv"))
  mediaProcessor : configSection normalized "mediaProcessor" =
    updated (mediaProcessorBase config) (Entries.erase (configSection config "mediaProcessor")
      (lit "credentialEnv"))
  effort : Entries.get? normalized (lit "reasoningEffort") =
    some (.str (textField I config "reasoningEffort" (defaultEffort config)))
  port : Entries.get? normalized (lit "port") = Entries.get? config (lit "port")

theorem normalizedFrom (h : normalizeNpmConfig I config = .ok normalized) :
    NormalizedFrom I config normalized := by
  have hport : Entries.get? normalized (lit "port") = Entries.get? config (lit "port") :=
    get?_normalizeNpmConfig h (by decide)
  unfold normalizeNpmConfig at h
  split at h
  · cases h
  · cases h
    refine ⟨?_, ?_, ?_, hport⟩
    · rw [configSection_set (by decide), configSection_set_self, configSection_set (by decide),
        configSection_set (by decide)]
      rfl
    · rw [configSection_set_self, configSection_set (by decide), configSection_set (by decide),
        configSection_set (by decide)]
      rfl
    · rw [Entries.get?_set_of_ne _ _ (by decide), Entries.get?_set_of_ne _ _ (by decide),
        Entries.get?_set_of_ne _ _ (by decide), Entries.get?_set_self]
      rfl

/-- A configuration is normalized if its port is an integer. -/
theorem normalizeNpmConfig_isOk_iff :
    (∃ normalized, normalizeNpmConfig I config = .ok normalized) ↔
      ∃ port, Receipts.integerOf I.platform
        ((Entries.get? config (lit "port")).getD (.int 8642)) = .ok port := by
  unfold normalizeNpmConfig
  split
  · next herror => simp [herror]
  · next port hport => simp [hport]

/-- What stands under a key of a section, or its default. -/
theorem get?_updated_erase {base section_ : Entries Str Json} {key : Str}
    (hsection : (Entries.keys section_).Nodup) (hkey : key ≠ lit "credentialEnv") :
    Entries.get? (updated base (Entries.erase section_ (lit "credentialEnv"))) key =
      (Entries.get? section_ key).or (Entries.get? base key) := by
  rw [get?_updated (Entries.nodup_erase hsection _), Entries.get?_erase_of_ne _ hkey]

end Sections

section Profiles

variable (I : Interpreter) (config : Entries Str Json)

/-- What the runtime takes from a configuration. -/
structure RuntimeProfile where
  protocol : Str
  endpoint : Str
  model : Str
  effort : Str
  credentialRef : Str
  mediaProtocol : Str
  mediaEndpoint : Str
  mediaCredentialRef : Str
deriving DecidableEq

/-- `str` of what stands in a section, or of its default. -/
def roleText (section_ base : Entries Str Json) (key : String) : Str :=
  Receipts.textOf I.platform (((Entries.get? section_ (lit key)).or
    (Entries.get? base (lit key))).getD (.str []))

/-- The effort that is sent unless the model has one of its own. -/
def effectiveEffort : Str :=
  let override := roleText I (configSection config "textLlm") (textLlmBase config)
    "reasoningEffort"
  if override ≠ lit "provider_default" then override
  else textField I config "reasoningEffort" (defaultEffort config)

/-- The profile of a configuration that is not normalized. -/
def configProfile : RuntimeProfile where
  protocol := (roleText I (configSection config "textLlm") (textLlmBase config) "protocol").strip
  endpoint := roleText I (configSection config "textLlm") (textLlmBase config) "endpoint"
  model := (roleText I (configSection config "textLlm") (textLlmBase config) "model").strip
  effort := effectiveEffort I config
  credentialRef := roleText I (configSection config "textLlm") (textLlmBase config)
    "credentialRef"
  mediaProtocol := (roleText I (configSection config "mediaProcessor") (mediaProcessorBase config)
    "protocol").strip
  mediaEndpoint := roleText I (configSection config "mediaProcessor") (mediaProcessorBase config)
    "endpoint"
  mediaCredentialRef := roleText I (configSection config "mediaProcessor")
    (mediaProcessorBase config) "credentialRef"

end Profiles

section Reading

variable {H : RuntimeHost} {config normalized : Entries Str Json}

theorem nodup_of_fits {d : Nat} {fields : Entries Str Json} (h : Fits d (.obj fields)) :
    (Entries.keys fields).Nodup := by
  cases h.kept with
  | obj hnodup _ => exact hnodup

theorem nodup_configSection (h : Fits H.interpreter.platform.jsonDepth (.obj config))
    (name : String) : (Entries.keys (configSection config name)).Nodup := by
  obtain ⟨d, hd⟩ : ∃ d, H.interpreter.platform.jsonDepth = d + 2 :=
    ⟨H.interpreter.platform.jsonDepth - 2, by have := H.depth; omega⟩
  rw [hd] at h
  exact nodup_of_fits (h.configSection name)

theorem textField_eq {I : Interpreter} {fields : Entries Str Json} {key : String} {default : Str} :
    textField I fields key default =
      Receipts.textOf I.platform ((Entries.get? fields (lit key)).getD (.str default)) := by
  unfold textField
  cases Entries.get? fields (lit key) <;> rfl

/-- A field of a normalized section. -/
theorem textField_updated {I : Interpreter} {section_ base : Entries Str Json} {key : String}
    {default : Str} (hsection : (Entries.keys section_).Nodup)
    (hkey : lit key ≠ lit "credentialEnv") (hbase : (Entries.get? base (lit key)).isSome) :
    textField I (updated base (Entries.erase section_ (lit "credentialEnv"))) key default =
      roleText I section_ base key := by
  rw [textField_eq, get?_updated_erase hsection hkey, roleText]
  obtain ⟨v, hv⟩ := Option.isSome_iff_exists.mp hbase
  cases Entries.get? section_ (lit key) with
  | none => rw [hv]; rfl
  | some w => rfl

theorem nodup_updated {base more : Entries Str Json} (h : (Entries.keys base).Nodup) :
    (Entries.keys (updated base more)).Nodup := by
  induction more generalizing base with
  | nil => exact h
  | cons e rest ih => exact ih (Entries.nodup_set h e.1 e.2)

theorem nodup_textLlmBase : (Entries.keys (textLlmBase config)).Nodup := by
  change [lit "preset", lit "protocol", lit "endpoint", lit "model", lit "credentialRef",
    lit "credentialEnv", lit "reasoningEffort"].Nodup
  decide

/-- The effort of a normalized configuration is that of the configuration. -/
theorem effectiveReasoningEffort_normalized
    (hfits : Fits H.interpreter.platform.jsonDepth (.obj config))
    (h : normalizeNpmConfig H.interpreter config = .ok normalized) :
    effectiveReasoningEffort H normalized = .ok (effectiveEffort H.interpreter config) := by
  have hfrom := normalizedFrom h
  obtain ⟨again, hagain⟩ : ∃ again, normalizeNpmConfig H.interpreter normalized = .ok again := by
    rw [normalizeNpmConfig_isOk_iff, hfrom.port, ← normalizeNpmConfig_isOk_iff]
    exact ⟨normalized, h⟩
  have hsecond := normalizedFrom hagain
  have hnodup : (Entries.keys (configSection normalized "textLlm")).Nodup := by
    rw [hfrom.textLlm]
    exact nodup_updated nodup_textLlmBase
  have hsection : Entries.get? (configSection normalized "textLlm") (lit "reasoningEffort") =
      (Entries.get? (configSection config "textLlm") (lit "reasoningEffort")).or
        (some (.str (lit "provider_default"))) := by
    rw [hfrom.textLlm, get?_updated_erase (nodup_configSection hfits "textLlm") (by decide)]
    rfl
  have hoverride : textField H.interpreter (configSection again "textLlm") "reasoningEffort"
      (lit "provider_default") =
        roleText H.interpreter (configSection config "textLlm") (textLlmBase config)
          "reasoningEffort" := by
    rw [hsecond.textLlm, textField_updated hnodup (by decide) rfl, roleText, roleText, hsection]
    cases Entries.get? (configSection config "textLlm") (lit "reasoningEffort") <;> rfl
  have heffort : textField H.interpreter again "reasoningEffort" [] =
      textField H.interpreter config "reasoningEffort" (defaultEffort config) := by
    rw [textField_eq, hsecond.effort, textField_eq, hfrom.effort]
    rfl
  rw [effectiveReasoningEffort, hagain]
  change Except.ok (if _ then _ else _) = _
  rw [hoverride, heffort]
  rfl

end Reading

section Parts

variable {H : RuntimeHost} {S : Surroundings}

/-- An endpoint that the media processor takes. -/
def documentEndpoint (I : Interpreter) (endpoint : Str) : Bool :=
  (UrlSplit.urlsplit I.unicode endpoint).any fun parsed =>
    endpointAccepted I parsed && decide (parsed.path = lit "/v1/document-digitization")

/-- An endpoint that the text model takes. -/
def textEndpoint (I : Interpreter) (protocol endpoint : Str) : Bool :=
  (UrlSplit.urlsplit I.unicode endpoint).any fun parsed =>
    isTextProtocol protocol && endpointAccepted I parsed &&
      decide (lit (expectedPath protocol) <:+ parsed.path)

theorem documentParseBackend_eq_ok_iff {I : Interpreter} {endpoint env reference : Str}
    {backend : DocumentParseBackend} :
    documentParseBackend I endpoint env reference = .ok backend ↔
      documentEndpoint I endpoint = true ∧ ⟨endpoint, env, reference⟩ = backend := by
  unfold documentParseBackend documentEndpoint
  cases UrlSplit.urlsplit I.unicode endpoint with
  | none => simp
  | some parsed =>
      rw [Option.any_some]
      by_cases h : (endpointAccepted I parsed &&
          decide (parsed.path = lit "/v1/document-digitization")) = true
      · simp only [h, if_true, Except.ok.injEq, true_and]
      · simp only [h, if_false, Bool.false_eq_true, reduceCtorEq, false_and]

theorem validateTextEndpoint_eq_ok_iff {I : Interpreter} {endpoint protocol : Str} {u : Unit} :
    validateTextEndpoint I endpoint protocol = .ok u ↔ textEndpoint I protocol endpoint = true := by
  unfold validateTextEndpoint textEndpoint
  cases UrlSplit.urlsplit I.unicode endpoint with
  | none => simp
  | some parsed =>
      rw [Option.any_some]
      by_cases h : (isTextProtocol protocol && endpointAccepted I parsed &&
          decide (lit (expectedPath protocol) <:+ parsed.path)) = true
      · simp only [h, if_true]
      · simp only [h, if_false, Bool.false_eq_true, reduceCtorEq]

/-- What a downstream is accepted for. -/
structure DownstreamAccepted (I : Interpreter) (d : SolarResponsesDownstream) : Prop where
  endpoint : textEndpoint I d.protocol d.endpoint = true
  effort : effortSupported I d.protocol d.model d.effort = true
  model : d.model.strip ≠ []

theorem solarResponsesDownstream_eq_ok_iff {I : Interpreter} {d d' : SolarResponsesDownstream} :
    solarResponsesDownstream I d = .ok d' ↔ DownstreamAccepted I d ∧ d = d' := by
  change Except.bind (validateTextEndpoint I d.endpoint d.protocol) _ = _ ↔ _
  rw [bind_eq_ok_iff]
  constructor
  · rintro ⟨u, hendpoint, h⟩
    split at h
    · cases h
    · next heffort =>
        split at h
        · cases h
        · next hmodel =>
            injection h with h
            exact ⟨⟨validateTextEndpoint_eq_ok_iff.mp hendpoint, not_not.mp heffort, hmodel⟩, h⟩
  · rintro ⟨h, rfl⟩
    refine ⟨(), validateTextEndpoint_eq_ok_iff.mpr h.endpoint, ?_⟩
    rw [if_neg (not_not_intro h.effort), if_neg h.model]

/-- The environment has a directory for assets and a secret for receipts. -/
structure Equipped (S : Surroundings) (assetRoot : Str) (secret : Bytes) : Prop where
  root_eq : required S "MEDIA_BRIDGE_ASSET_ROOT" = .ok assetRoot
  secret_eq : receiptSecret S = .ok secret
  directory : S.makesDirectory assetRoot = true

theorem length_receiptSecret {secret : Bytes} (h : receiptSecret S = .ok secret) :
    32 ≤ secret.length := by
  obtain ⟨value, -, h⟩ := ok_of_bind h
  split at h
  · cases h
  · split at h
    · cases h
    · next hlength =>
        cases h
        exact not_lt.mp hlength

theorem buildPersonalRuntime_eq_ok_iff {model assetRoot : Str} {secret : Bytes}
    {media : DocumentParseBackend} {downstream : Except RuntimeError SolarResponsesDownstream}
    {runtime : PersonalRuntime} :
    buildPersonalRuntime S model assetRoot secret media downstream = .ok runtime ↔
      model.strip ≠ [] ∧ S.makesDirectory assetRoot = true ∧
        ∃ (h : 32 ≤ secret.length) (d : SolarResponsesDownstream), downstream = .ok d ∧
          runtime = ⟨model, assetRoot, ⟨secret, h⟩, media, d⟩ := by
  unfold buildPersonalRuntime
  split
  · next hmodel => simp [hmodel]
  · next hmodel =>
      split
      · next hsecret =>
          split
          · next hdirectory =>
              change Except.bind downstream _ = _ ↔ _
              rw [bind_eq_ok_iff]
              constructor
              · rintro ⟨d, hd, h⟩
                cases h
                exact ⟨hmodel, hdirectory, hsecret, d, hd, rfl⟩
              · rintro ⟨-, -, -, d, hd, rfl⟩
                exact ⟨d, hd, rfl⟩
          · next hdirectory => simp [hdirectory]
      · next hsecret => simp [hsecret]

end Parts

section Runtimes

variable {H : RuntimeHost} {S : Surroundings} {config normalized : Entries Str Json}

/-- The parts of a runtime accept a profile. -/
structure ProfileAccepted (I : Interpreter) (profile : RuntimeProfile) : Prop where
  mediaProtocol : profile.mediaProtocol = lit "upstage-document-parse"
  mediaEndpoint : documentEndpoint I profile.mediaEndpoint = true
  endpoint : textEndpoint I profile.protocol profile.endpoint = true
  effort : effortSupported I profile.protocol profile.model profile.effort = true
  model : profile.model.strip ≠ []

/-- The text model that is reached with a profile. -/
def RuntimeProfile.downstream (profile : RuntimeProfile) (isSolar : Bool) :
    SolarResponsesDownstream where
  endpoint := profile.endpoint
  model := profile.model
  apiKeyEnv := []
  credentialRef := profile.credentialRef
  protocol := profile.protocol
  effort := profile.effort
  providerName := if isSolar then "Solar" else "Text LLM"
  errorPrefix := if isSolar then "solar" else "text_llm"

/-- The runtime of a profile. -/
def RuntimeProfile.runtime (profile : RuntimeProfile) (isSolar : Bool) (assetRoot : Str)
    (signer : GateReceiptSigner) : PersonalRuntime where
  model := profile.model
  assetRoot := assetRoot
  signer := signer
  media := ⟨profile.mediaEndpoint, [], profile.mediaCredentialRef⟩
  downstream := profile.downstream isSolar

/-- A runtime is built for a profile, and for nothing else. -/
structure BuiltFrom (I : Interpreter) (S : Surroundings) (profile : RuntimeProfile)
    (isSolar : Bool) (runtime : PersonalRuntime) : Prop where
  accepted : ProfileAccepted I profile
  equipped : ∃ assetRoot signer, Equipped S assetRoot signer.secret ∧
    runtime = profile.runtime isSolar assetRoot signer

/-- The normalized configuration names the preset of Solar. -/
def isSolarPreset (normalized : Entries Str Json) : Bool :=
  (Json.field (configSection normalized "textLlm") "preset").isLit "upstage-solar"

theorem isTextProtocol_of_textEndpoint {I : Interpreter} {protocol endpoint : Str}
    (h : textEndpoint I protocol endpoint = true) : isTextProtocol protocol = true := by
  obtain ⟨parsed, -, h⟩ := (Option.any_eq_true _ _).mp h
  rw [Bool.and_eq_true, Bool.and_eq_true] at h
  exact h.1.1

/-- A normalized configuration gives a runtime exactly for an accepted profile. -/
theorem buildFromNormalized_eq_ok_iff
    (hfits : Fits H.interpreter.platform.jsonDepth (.obj config))
    (h : normalizeNpmConfig H.interpreter config = .ok normalized) {runtime : PersonalRuntime} :
    buildFromNormalized H S normalized = .ok runtime ↔
      BuiltFrom H.interpreter S (configProfile H.interpreter config) (isSolarPreset normalized)
        runtime := by
  have hfrom := normalizedFrom h
  have htext (key : String) (hkey : lit key ≠ lit "credentialEnv")
      (hbase : (Entries.get? (textLlmBase config) (lit key)).isSome) :
      textField H.interpreter (configSection normalized "textLlm") key [] =
        roleText H.interpreter (configSection config "textLlm") (textLlmBase config) key := by
    rw [hfrom.textLlm]
    exact textField_updated (nodup_configSection hfits "textLlm") hkey hbase
  have hmedia (key : String) (hkey : lit key ≠ lit "credentialEnv")
      (hbase : (Entries.get? (mediaProcessorBase config) (lit key)).isSome) :
      textField H.interpreter (configSection normalized "mediaProcessor") key [] =
        roleText H.interpreter (configSection config "mediaProcessor")
          (mediaProcessorBase config) key := by
    rw [hfrom.mediaProcessor]
    exact textField_updated (nodup_configSection hfits "mediaProcessor") hkey hbase
  have heffort := effectiveReasoningEffort_normalized hfits h
  unfold buildFromNormalized
  simp only [htext "model" (by decide) rfl, htext "protocol" (by decide) rfl,
    htext "endpoint" (by decide) rfl, htext "credentialRef" (by decide) rfl,
    hmedia "protocol" (by decide) rfl, hmedia "endpoint" (by decide) rfl,
    hmedia "credentialRef" (by decide) rfl, heffort]
  constructor
  · intro hbuilt
    split at hbuilt
    · cases hbuilt
    next hprotocols =>
    obtain ⟨backend, hbackend, hbuilt⟩ := ok_of_bind hbuilt
    obtain ⟨assetRoot, hroot, hbuilt⟩ := ok_of_bind hbuilt
    obtain ⟨secret, hsecret, hbuilt⟩ := ok_of_bind hbuilt
    obtain ⟨hmodel, hdirectory, hlength, d, hd, rfl⟩ := buildPersonalRuntime_eq_ok_iff.mp hbuilt
    obtain ⟨haccepted, rfl⟩ := solarResponsesDownstream_eq_ok_iff.mp hd
    obtain ⟨hdocument, rfl⟩ := documentParseBackend_eq_ok_iff.mp hbackend
    refine ⟨⟨(not_not.mp hprotocols).2, hdocument, haccepted.endpoint, haccepted.effort, hmodel⟩,
      assetRoot, ⟨secret, hlength⟩, ⟨hroot, hsecret, hdirectory⟩, rfl⟩
  · rintro ⟨haccepted, assetRoot, signer, hequipped, rfl⟩
    rw [if_neg (not_not_intro ⟨isTextProtocol_of_textEndpoint haccepted.endpoint,
      haccepted.mediaProtocol⟩)]
    have hdownstream : solarResponsesDownstream H.interpreter
        ((configProfile H.interpreter config).downstream (isSolarPreset normalized)) =
        .ok ((configProfile H.interpreter config).downstream (isSolarPreset normalized)) :=
      solarResponsesDownstream_eq_ok_iff.mpr
        ⟨⟨haccepted.endpoint, haccepted.effort, haccepted.model⟩, rfl⟩
    refine bind_eq_ok_iff.mpr
      ⟨_, documentParseBackend_eq_ok_iff.mpr ⟨haccepted.mediaEndpoint, rfl⟩, ?_⟩
    refine bind_eq_ok_iff.mpr ⟨assetRoot, hequipped.root_eq, ?_⟩
    refine bind_eq_ok_iff.mpr ⟨signer.secret, hequipped.secret_eq, ?_⟩
    exact buildPersonalRuntime_eq_ok_iff.mpr ⟨haccepted.model, hequipped.directory,
      length_receiptSecret hequipped.secret_eq, _, hdownstream, rfl⟩

/-- A file gives a runtime exactly if it holds a configuration with an accepted profile. -/
theorem buildFromConfig_eq_ok_iff {path : PathContent} {runtime : PersonalRuntime} :
    buildFromConfig H S path = .ok runtime ↔ ∃ config normalized,
      loadNpmConfig H path = .ok config ∧ normalizeNpmConfig H.interpreter config = .ok normalized ∧
        BuiltFrom H.interpreter S (configProfile H.interpreter config) (isSolarPreset normalized)
          runtime := by
  constructor
  · intro h
    obtain ⟨config, hload, h⟩ := ok_of_bind h
    obtain ⟨normalized, hnormalized, h⟩ := ok_of_bind h
    rw [mapError_eq_ok_iff] at hnormalized
    exact ⟨config, normalized, hload, hnormalized,
      (buildFromNormalized_eq_ok_iff (fits_of_loadNpmConfig hload) hnormalized).mp h⟩
  · rintro ⟨config, normalized, hload, hnormalized, hbuilt⟩
    refine bind_eq_ok_iff.mpr ⟨config, hload, bind_eq_ok_iff.mpr ⟨normalized, ?_, ?_⟩⟩
    · exact mapError_eq_ok_iff.mpr hnormalized
    · exact (buildFromNormalized_eq_ok_iff (fits_of_loadNpmConfig hload) hnormalized).mpr hbuilt

end Runtimes

end MediaBridge.Personal
