import MediaBridge.Foundation.Raise
import MediaBridge.Personal.Launcher

/-!
# Written settings in the launcher

Every configuration that the personal runtime writes has empty names of environment variables in its
older sections, which the launcher does not accept.
-/

namespace MediaBridge.Personal

open Foundation MediaBridge.Core Gateway

section Updates

variable {base more : Entries Str Json} {key : Str}

/-- What an update with unique keys holds. -/
theorem get?_updated (hmore : (Entries.keys more).Nodup) :
    Entries.get? (updated base more) key = (Entries.get? more key).or (Entries.get? base key) := by
  induction more generalizing base with
  | nil => rfl
  | cons e rest ih =>
      obtain ⟨k, v⟩ := e
      obtain ⟨hnot, hrest⟩ := List.nodup_cons.mp hmore
      change Entries.get? (updated (Entries.set base k v) rest) key = _
      rw [ih hrest, Entries.get?_cons]
      split
      · next heq =>
          obtain rfl : k = key := heq
          rw [Entries.get?_eq_none_iff.mpr hnot, Entries.get?_set_self]
          rfl
      · next hne => rw [Entries.get?_set_of_ne _ _ fun heq => hne heq.symm]

/-- An update leaves the other keys. -/
theorem get?_updated_of_notMem (h : key ∉ Entries.keys more) :
    Entries.get? (updated base more) key = Entries.get? base key := by
  induction more generalizing base with
  | nil => rfl
  | cons e rest ih =>
      obtain ⟨hne, hrest⟩ := not_or.mp (mt List.mem_cons.mpr h)
      change Entries.get? (updated (Entries.set base e.1 e.2) rest) key = _
      rw [ih hrest, Entries.get?_set_of_ne _ _ hne]

end Updates

section Written

variable {I : Interpreter} {J : JavaScript} {config current : Entries Str Json}

/-- A normalization leaves what is neither the effort nor one of the newer sections. -/
theorem get?_normalizeNpmConfig {normalized : Entries Str Json}
    (h : normalizeNpmConfig I config = .ok normalized) {key : Str}
    (hkey : key ∉ [lit "reasoningEffort", lit "codingAgent", lit "textLlm", lit "mediaProcessor"]) :
    Entries.get? normalized key = Entries.get? config key := by
  simp only [List.mem_cons, List.not_mem_nil, or_false, not_or] at hkey
  unfold normalizeNpmConfig at h
  split at h
  · cases h
  · cases h
    rw [Entries.get?_set_of_ne _ _ hkey.2.2.2, Entries.get?_set_of_ne _ _ hkey.2.2.1,
      Entries.get?_set_of_ne _ _ hkey.2.1, Entries.get?_set_of_ne _ _ hkey.1]

/-- A generic payload leads to settings with an empty name in the section of the model. -/
theorem solar_of_generic {payload : Json}
    (h : validatedGenericSettings I payload current = .ok config) :
    ∃ settings : SavedSettings, Entries.get? config (lit "solar") = some settings.solarJson := by
  unfold validatedGenericSettings at h
  split at h
  · obtain ⟨request, -, h⟩ := ok_of_bind h
    obtain ⟨-, -, h⟩ := ok_of_bind h
    obtain ⟨normalized, -, h⟩ := ok_of_bind h
    cases h
    refine ⟨genericSettings I request, ?_⟩
    unfold genericConfig
    rw [get?_updated]
    · rfl
    · change [lit "codingAgent", lit "textLlm", lit "mediaProcessor", lit "conversion",
        lit "failurePolicy", lit "opencodex", lit "solar", lit "ocr"].Nodup
      decide
  · cases h

theorem solar_of_form {payload : Entries Str Str}
    (h : validatedSettings I payload current = .ok config) :
    ∃ settings : SavedSettings, Entries.get? config (lit "solar") = some settings.solarJson := by
  unfold validatedSettings at h
  obtain ⟨settings, -, h⟩ := ok_of_bind h
  obtain ⟨-, -, h⟩ := ok_of_bind h
  obtain ⟨normalized, hnormalized, h⟩ := ok_of_bind h
  cases h
  refine ⟨settings, ?_⟩
  rw [get?_updated_of_notMem]
  · cases hn : normalizeNpmConfig I (legacyConfig current settings) with
    | error e =>
        rw [hn] at hnormalized
        cases hnormalized
    | ok found =>
        rw [hn] at hnormalized
        cases hnormalized
        rw [get?_normalizeNpmConfig hn (by decide), legacyConfig, get?_updated]
        · rfl
        · change [lit "opencodex", lit "solar", lit "ocr", lit "conversion",
            lit "failurePolicy"].Nodup
          decide
  · change lit "solar" ∉ [lit "codingAgent", lit "textLlm", lit "mediaProcessor"]
    decide

/-- What the launcher makes of an older section is its defaults with the section. -/
theorem setting_merged_solar {parsed : Json} :
    configSection (migrated J parsed (merged J parsed)) "solar" = sectionOr parsed "solar" := by
  have hmerged : Entries.get? (merged J parsed) (lit "solar") =
      some (.obj (sectionOr parsed "solar")) := by
    unfold merged
    rw [get?_updated]
    · rfl
    · change [lit "opencodex", lit "codingAgent", lit "solar", lit "textLlm", lit "ocr",
        lit "mediaProcessor", lit "conversion", lit "failurePolicy"].Nodup
      decide
  have hmigrated : Entries.get? (migrated J parsed (merged J parsed)) (lit "solar") =
      Entries.get? (merged J parsed) (lit "solar") := by
    simp only [migrated]
    split
    · split
      · rw [Entries.get?_set_of_ne _ _ (by decide)]
      · rw [Entries.get?_set_of_ne _ _ (by decide), Entries.get?_set_of_ne _ _ (by decide)]
    · rfl
  unfold configSection Json.field
  rw [hmigrated, hmerged]
  rfl

/-- A configuration that is accepted passes every check. -/
theorem checks_of_validateConfig {loaded : Entries Str Json}
    (h : validateConfig J config = .ok loaded) : ∀ error ∈ configErrors J config, error = none := by
  unfold validateConfig at h
  split at h
  · cases h
  · next hnone => exact List.findSome?_eq_none_iff.mp hnone

/-- An empty name of an environment variable is not accepted. -/
theorem not_loaded_of_solar {settings : SavedSettings}
    (h : Entries.get? config (lit "solar") = some settings.solarJson) (loaded : Entries Str Json) :
    loadConfig J (.parsed (.obj config)) ≠ .ok loaded := by
  intro hload
  have hname : setting (migrated J (.obj config) (merged J (.obj config))) "solar" "apiKeyEnv" =
      some (.str []) := by
    have hspread : spread (property (.obj config) "solar") =
        [(lit "model", .str settings.llm.model), (lit "endpoint", .str settings.llm.endpoint),
          (lit "apiKeyEnv", .str [])] := by
      change ((Entries.get? config (lit "solar")).bind Json.obj?).getD [] = _
      rw [h]
      rfl
    unfold setting
    rw [setting_merged_solar, sectionOr, hspread, get?_updated]
    · rfl
    · change [lit "model", lit "endpoint", lit "apiKeyEnv"].Nodup
      decide
  have hcheck := checks_of_validateConfig hload
    (unlessHolds (filledText (setting (migrated J (.obj config) (merged J (.obj config))) "solar"
      "apiKeyEnv")) "Solar API key environment reference is required") (by simp [configErrors])
  rw [hname] at hcheck
  cases hcheck

end Written

section Results

/-- The settings that have to come back: the endpoints, models, protocols and credentials. -/
def returnedSettings : List (String × String) :=
  [("opencodex", "baseUrl"), ("codingAgent", "baseUrl"), ("codingAgent", "protocol"),
    ("solar", "endpoint"), ("solar", "model"), ("solar", "apiKeyEnv"), ("textLlm", "endpoint"),
    ("textLlm", "model"), ("textLlm", "protocol"), ("textLlm", "credentialEnv"),
    ("ocr", "endpoint"), ("ocr", "model"), ("ocr", "apiKeyEnv"), ("mediaProcessor", "endpoint"),
    ("mediaProcessor", "model"), ("mediaProcessor", "protocol"),
    ("mediaProcessor", "credentialEnv")]

/-- The launcher accepts a written configuration, with the same settings. -/
def Loads (J : JavaScript) (config : Entries Str Json) : Prop :=
  ∃ loaded, loadConfig J (.parsed (.obj config)) = .ok loaded ∧
    (∀ key ∈ ["host", "port"], Entries.get? loaded (lit key) = Entries.get? config (lit key)) ∧
    ∀ name ∈ returnedSettings, setting loaded name.1 name.2 = setting config name.1 name.2

/-- No configuration that the runtime writes for accepted settings loads. -/
theorem saved_never_loads (I : Interpreter) (J : JavaScript) {config : Entries Str Json}
    (h : (∃ payload current, validatedGenericSettings I payload current = .ok config) ∨
      ∃ payload current, validatedSettings I payload current = .ok config) : ¬ Loads J config := by
  rintro ⟨loaded, hload, -⟩
  rcases h with ⟨payload, current, hvalid⟩ | ⟨payload, current, hvalid⟩
  · obtain ⟨settings, hsolar⟩ := solar_of_generic hvalid
    exact not_loaded_of_solar hsolar loaded hload
  · obtain ⟨settings, hsolar⟩ := solar_of_form hvalid
    exact not_loaded_of_solar hsolar loaded hload

def sampleInterpreter : Interpreter := ⟨.sample, .ascii id, Str.asciiLower⟩

/-- An engine that reads plain URLs and decimal numbers. -/
def sampleEngine : JavaScript where
  url text := (UrlSplit.urlsplit (.ascii id) text).map fun parsed =>
    (parsed.scheme ++ [UrlSplit.colon], parsed.hostText)
  integerOf text :=
    if !text.isEmpty && text.all CodePoint.isAsciiDigit then some (JsonText.digitsValue text)
    else none
  stringOf _ := []

/-- The settings of the default configuration. -/
def samplePayload : Json := .obj
  [(lit "port", .int 8642), (lit "codingAgent", defaultValue "codingAgent"),
    (lit "textLlm", defaultValue "textLlm"),
    (lit "mediaProcessor", defaultValue "mediaProcessor"),
    (lit "conversion", defaultValue "conversion"),
    (lit "failurePolicy", defaultValue "failurePolicy")]

theorem accepted_sample : ∃ config,
    validatedGenericSettings sampleInterpreter samplePayload defaultConfig = .ok config :=
  exists_of_isOk (by decide +kernel)

theorem loaded_default : ∃ loaded,
    loadConfig sampleEngine (.parsed (.obj defaultConfig)) = .ok loaded :=
  exists_of_isOk (by decide +kernel)

theorem saved_never_loads_sample : ∃ config,
    validatedGenericSettings sampleInterpreter samplePayload defaultConfig = .ok config ∧
      (∃ loaded, loadConfig sampleEngine (.parsed (.obj defaultConfig)) = .ok loaded) ∧
      ¬ Loads sampleEngine config := by
  obtain ⟨config, hvalid⟩ := accepted_sample
  refine ⟨config, hvalid, loaded_default, ?_⟩
  exact saved_never_loads sampleInterpreter sampleEngine (.inl ⟨_, _, hvalid⟩)

/-- The default settings, saved over the default configuration, do not load. -/
theorem saved_settings_lost : ¬ ∀ (I : Interpreter) (J : JavaScript) (payload : Json)
    (current config : Entries Str Json),
      (∃ loaded, loadConfig J (.parsed (.obj current)) = .ok loaded) →
        validatedGenericSettings I payload current = .ok config → Loads J config := by
  intro h
  obtain ⟨config, hvalid⟩ := accepted_sample
  obtain ⟨loaded, hload, -⟩ := h _ _ _ _ _ loaded_default hvalid
  obtain ⟨settings, hsolar⟩ := solar_of_generic hvalid
  exact not_loaded_of_solar hsolar loaded hload

end Results

end MediaBridge.Personal
