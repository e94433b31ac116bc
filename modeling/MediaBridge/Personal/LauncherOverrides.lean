import MediaBridge.Foundation.Raise
import MediaBridge.Personal.ConfigRoute
import MediaBridge.Personal.SavedSettings

/-!
# Overrides in the launcher

`applyPortOverride`, `applyHostOverride` and `saveConfig` of `packaging/npm/lib/config.cjs`. The
base URL of the launcher itself is the one text that is made of its host and its port.

## Implementation notes

A file that is saved holds the configuration itself: its text is not modelled.
-/

namespace MediaBridge.Personal

open Foundation MediaBridge.Core

section Overrides

variable (J : JavaScript)

/-- `http://host:port/v1` of a configuration. -/
def ownBase (config : Entries Str Json) : Str :=
  lit "http://" ++ templateText J (Json.field config "host") ++ lit ":" ++
    templateText J (Json.field config "port") ++ lit "/v1"

/-- The base URL of a section. -/
def baseUrl (config : Entries Str Json) (name : String) : Option Str :=
  (setting config name "baseUrl").bind Json.str?

/-- A base URL is moved, if it is the previous one. -/
def rebased (previous next : Str) (config : Entries Str Json) (name : String) : Entries Str Json :=
  if baseUrl config name = some previous then
    Entries.set config (lit name)
      (.obj (Entries.set (configSection config name) (lit "baseUrl") (.str next)))
  else config

/-- The sections with a base URL. -/
def ownSections : List String := ["opencodex", "codingAgent"]

/-- An override of the host or of the port. -/
def applyOverride (key : String) (config : Entries Str Json) (value : Json) :
    Except String (Entries Str Json) :=
  let moved := Entries.set config (lit key) value
  validateConfig J (ownSections.foldl (rebased (ownBase J config) (ownBase J moved)) moved)

/-- `applyPortOverride`. -/
def applyPortOverride (config : Entries Str Json) (port : Json) :
    Except String (Entries Str Json) := applyOverride J "port" config port

/-- `applyHostOverride`. -/
def applyHostOverride (config : Entries Str Json) (host : Json) :
    Except String (Entries Str Json) := applyOverride J "host" config host

/-- A call that overrides. -/
inductive Override
  | port (value : Json)
  | host (value : Json)

/-- The configuration after a call. -/
def Override.apply (config : Entries Str Json) : Override → Except String (Entries Str Json)
  | .port value => applyPortOverride J config value
  | .host value => applyHostOverride J config value

/-- What a call gives for a field. -/
def Override.given (key : String) : Override → Option Json
  | .port value => if key = "port" then some value else none
  | .host value => if key = "host" then some value else none

/-- What the last of some calls gives for a field. -/
def lastGiven (key : String) (overrides : List Override) : Option Json :=
  overrides.reverse.findSome? (Override.given key)

/-- `saveConfig`. -/
def saveConfig (config : Entries Str Json) : Except String ConfigFile := do
  let validated ← validateConfig J config
  return .parsed (.obj validated)

end Overrides

section Checks

variable {J : JavaScript} {config other : Entries Str Json}

/-- What `validateConfig` sets itself. -/
def booleanKeys : List (String × String) :=
  [("conversion", "ocrEnabled"), ("conversion", "visionEnabled"),
    ("failurePolicy", "blockSolarOnPreparationFailure")]

theorem lit_injective : Function.Injective lit := by
  intro a b h
  unfold lit at h
  apply String.toList_inj.mp
  refine List.map_injective_iff.mpr ?_ h
  intro c d hcd
  have hlt (c : Char) : c.toNat < 0x110000 := by
    have hvalid : c.toNat.isValidChar := c.valid
    unfold Nat.isValidChar at hvalid
    omega
  have hval : c.toNat % 0x110000 = d.toNat % 0x110000 := congrArg Fin.val hcd
  rw [Nat.mod_eq_of_lt (hlt c), Nat.mod_eq_of_lt (hlt d)] at hval
  exact Char.toNat_inj.mp hval

/-- The same for the checks. -/
structure SameChecks (config other : Entries Str Json) : Prop where
  top : ∀ key ∈ ["port", "host", "runtimeMode"],
    Entries.get? config (lit key) = Entries.get? other (lit key)
  settings : ∀ name key, (name, key) ∉ booleanKeys → setting config name key = setting other name key

theorem SameChecks.configErrors (h : SameChecks config other) :
    configErrors J config = configErrors J other := by
  have hport := h.top "port" (by decide)
  have hhost := h.top "host" (by decide)
  have hmode := h.top "runtimeMode" (by decide)
  simp (disch := decide) only [Personal.configErrors, hport, hhost, hmode, h.settings]

/-- The configuration that `validateConfig` returns. -/
def withBooleans (config : Entries Str Json) : Entries Str Json :=
  booleanKeys.foldl (fun c e => booleanSetting c e.1 e.2) config

theorem validateConfig_eq_ok_iff {validated : Entries Str Json} :
    validateConfig J config = .ok validated ↔
      (∀ error ∈ configErrors J config, error = none) ∧ withBooleans config = validated := by
  unfold validateConfig
  constructor
  · intro h
    split at h
    · cases h
    · next hnone =>
        cases h
        exact ⟨List.findSome?_eq_none_iff.mp hnone, rfl⟩
  · rintro ⟨hnone, rfl⟩
    have hfind : (configErrors J config).findSome? id = none :=
      List.findSome?_eq_none_iff.mpr hnone
    rewrite [hfind]
    rfl

/-- A key of a section that is set. -/
theorem get?_section_set {section_ : Entries Str Json} {name name' : String} {k : Str} :
    Entries.get? (configSection (Entries.set config (lit name) (.obj section_)) name') k =
      if name' = name then Entries.get? section_ k
      else Entries.get? (configSection config name') k := by
  split_ifs with heq
  · rw [heq, configSection_set_self]
  · rw [configSection_set fun h => heq (lit_injective h)]

theorem get?_section_booleanSetting {name key name' : String} {k : Str}
    (h : name' = name → k ≠ lit key) :
    Entries.get? (configSection (booleanSetting config name key) name') k =
      Entries.get? (configSection config name') k := by
  unfold booleanSetting
  split
  · rw [get?_section_set]
    split_ifs with heq
    · rw [Entries.get?_set_of_ne _ _ (h heq), heq]
    · rfl
  · rfl

theorem setting_booleanSetting {name key name' key' : String} (h : (name', key') ≠ (name, key)) :
    setting (booleanSetting config name key) name' key' = setting config name' key' :=
  get?_section_booleanSetting fun hname hkey => h (by rw [hname, lit_injective hkey])

theorem get?_section_withBooleans {name : String} {k : Str}
    (h : ∀ flag, (name, flag) ∈ booleanKeys → k ≠ lit flag) :
    Entries.get? (configSection (withBooleans config) name) k =
      Entries.get? (configSection config name) k := by
  have hfold (keys : List (String × String))
      (hkeys : ∀ flag, (name, flag) ∈ keys → k ≠ lit flag) (c : Entries Str Json) :
      Entries.get? (configSection (keys.foldl (fun c e => booleanSetting c e.1 e.2) c) name) k =
        Entries.get? (configSection c name) k := by
    induction keys generalizing c with
    | nil => rfl
    | cons e rest ih =>
        rw [List.foldl_cons, ih fun flag hflag => hkeys flag (List.mem_cons_of_mem e hflag)]
        refine get?_section_booleanSetting fun hname => hkeys e.2 ?_
        rw [hname]
        exact List.mem_cons_self
  exact hfold booleanKeys h config

theorem setting_withBooleans {name key : String} (h : (name, key) ∉ booleanKeys) :
    setting (withBooleans config) name key = setting config name key :=
  get?_section_withBooleans fun _ hflag hkey => h (lit_injective hkey ▸ hflag)

theorem get?_booleanSetting {name key : String} {k : Str} (h : k ≠ lit name) :
    Entries.get? (booleanSetting config name key) k = Entries.get? config k := by
  unfold booleanSetting
  split
  · exact Entries.get?_set_of_ne _ _ h
  · rfl

/-- Only the two sections with booleans change. -/
theorem get?_withBooleans {k : Str} (hconversion : k ≠ lit "conversion")
    (hpolicy : k ≠ lit "failurePolicy") :
    Entries.get? (withBooleans config) k = Entries.get? config k := by
  change Entries.get? (booleanSetting (booleanSetting (booleanSetting config "conversion" _)
    "conversion" _) "failurePolicy" _) k = _
  rw [get?_booleanSetting hpolicy, get?_booleanSetting hconversion,
    get?_booleanSetting hconversion]

theorem sameChecks_withBooleans : SameChecks (withBooleans config) config where
  top key hkey := by
    have hne : ∀ key ∈ ["port", "host", "runtimeMode"],
        lit key ≠ lit "conversion" ∧ lit key ≠ lit "failurePolicy" := by decide
    exact get?_withBooleans (hne key hkey).1 (hne key hkey).2
  settings _ _ h := setting_withBooleans h

/-- The configuration is accepted. -/
def Accepted (J : JavaScript) (config : Entries Str Json) : Prop :=
  ∃ validated, validateConfig J config = .ok validated

/-- What `validateConfig` returns is accepted again. -/
theorem accepted_of_validateConfig {validated : Entries Str Json}
    (h : validateConfig J config = .ok validated) : Accepted J validated := by
  obtain ⟨hnone, rfl⟩ := validateConfig_eq_ok_iff.mp h
  exact ⟨_, validateConfig_eq_ok_iff.mpr
    ⟨by rw [sameChecks_withBooleans.configErrors]; exact hnone, rfl⟩⟩

end Checks

section Steps

variable {J : JavaScript} {config final : Entries Str Json}

theorem get?_section_rebased {previous next : Str} {name name' : String} {k : Str} :
    Entries.get? (configSection (rebased previous next config name) name') k =
      if (name' = name ∧ k = lit "baseUrl") ∧ baseUrl config name = some previous then
        some (.str next)
      else Entries.get? (configSection config name') k := by
  unfold rebased
  by_cases hprevious : baseUrl config name = some previous
  · rw [if_pos hprevious, get?_section_set]
    by_cases hname : name' = name
    · subst hname
      rw [if_pos rfl]
      by_cases hkey : k = lit "baseUrl"
      · subst hkey
        rw [if_pos ⟨⟨rfl, rfl⟩, hprevious⟩, Entries.get?_set_self]
      · rw [if_neg fun h => hkey h.1.2, Entries.get?_set_of_ne _ _ hkey]
    · rw [if_neg hname, if_neg fun h => hname h.1.1]
  · rw [if_neg hprevious, if_neg fun h => hprevious h.2]

theorem get?_rebased {previous next : Str} {name : String} {k : Str} (h : k ≠ lit name) :
    Entries.get? (rebased previous next config name) k = Entries.get? config k := by
  unfold rebased
  split_ifs
  · exact Entries.get?_set_of_ne _ _ h
  · rfl

/-- What an override changes: its own field, and the base URLs that were the own one. -/
structure Moved (J : JavaScript) (key : String) (value : Json) (config final : Entries Str Json) :
    Prop where
  own : Entries.get? final (lit key) = some value
  top : ∀ k, k ≠ lit key → k ∉ ownSections.map lit → k ≠ lit "conversion" →
    k ≠ lit "failurePolicy" → Entries.get? final k = Entries.get? config k
  sections : ∀ name k, name ≠ key → (∀ flag, (name, flag) ∈ booleanKeys → k ≠ lit flag) →
    Entries.get? (configSection final name) k =
      if (name ∈ ownSections ∧ k = lit "baseUrl") ∧
          baseUrl config name = some (ownBase J config) then
        some (.str (ownBase J final))
      else Entries.get? (configSection config name) k

theorem moved_of_applyOverride {key : String} (hkey : key ∈ ["host", "port"]) {value : Json}
    (h : applyOverride J key config value = .ok final) : Moved J key value config final := by
  obtain ⟨-, hfinal⟩ := validateConfig_eq_ok_iff.mp h
  have hmoved (name : String) (hname : name ≠ key) :
      configSection (Entries.set config (lit key) value) name = configSection config name :=
    configSection_set fun h => hname (lit_injective h)
  have hself : Entries.get? (Entries.set config (lit key) value) (lit key) = some value :=
    Entries.get?_set_self _ _ _
  generalize hset : Entries.set config (lit key) value = moved at hmoved hfinal hself
  have hget (k : Str) (hopencodex : k ≠ lit "opencodex") (hagent : k ≠ lit "codingAgent")
      (hconversion : k ≠ lit "conversion") (hpolicy : k ≠ lit "failurePolicy") :
      Entries.get? final k = Entries.get? moved k := by
    rw [← hfinal, get?_withBooleans hconversion hpolicy]
    exact (get?_rebased hagent).trans (get?_rebased hopencodex)
  -- the own URL is made of fields that the rewriting leaves alone
  have hown : ownBase J final = ownBase J moved := by
    have hhost := hget (lit "host") (by decide) (by decide) (by decide) (by decide)
    have hport := hget (lit "port") (by decide) (by decide) (by decide) (by decide)
    rw [ownBase, ownBase, Json.field, Json.field, Json.field, Json.field, hhost, hport]
  constructor
  · have hapart : ∀ key ∈ ["host", "port"], lit key ≠ lit "opencodex" ∧
        lit key ≠ lit "codingAgent" ∧ lit key ≠ lit "conversion" ∧
        lit key ≠ lit "failurePolicy" := by decide
    obtain ⟨hopencodex, hagent, hconversion, hpolicy⟩ := hapart key hkey
    rw [hget (lit key) hopencodex hagent hconversion hpolicy, hself]
  · intro k hne hsections hconversion hpolicy
    have hout : k ≠ lit "opencodex" ∧ k ≠ lit "codingAgent" := by
      simpa [ownSections] using hsections
    rw [hget k hout.1 hout.2 hconversion hpolicy, ← hset, Entries.get?_set_of_ne _ _ hne]
  · intro name k hname hbooleans
    have hopencodex : "opencodex" ≠ key := by
      rintro rfl
      revert hkey
      decide
    have hagent : "codingAgent" ≠ key := by
      rintro rfl
      revert hkey
      decide
    have hbase (name : String) (hname : name ≠ key) : baseUrl moved name = baseUrl config name := by
      rw [baseUrl, baseUrl, setting, setting, hmoved name hname]
    have hsecond (previous next : Str) :
        baseUrl (rebased previous next moved "opencodex") "codingAgent" =
          baseUrl config "codingAgent" := by
      rw [baseUrl, setting, get?_section_rebased, if_neg fun h => absurd h.1.1 (by decide),
        ← setting, ← baseUrl, hbase _ hagent]
    rw [hown, ← hfinal, get?_section_withBooleans hbooleans]
    change Entries.get? (configSection (rebased _ _ (rebased _ _ moved "opencodex") "codingAgent")
      name) k = _
    rw [get?_section_rebased, get?_section_rebased, hsecond, hbase _ hopencodex,
      hmoved name hname]
    by_cases hfirst : name = "opencodex"
    · subst hfirst
      simp [ownSections]
    · by_cases hlast : name = "codingAgent"
      · subst hlast
        simp [ownSections]
      · simp [ownSections, hfirst, hlast]

end Steps

section Reloading

variable {J : JavaScript} {config validated : Entries Str Json}

def sectionNames : List String :=
  ["opencodex", "codingAgent", "solar", "textLlm", "ocr", "mediaProcessor", "conversion",
    "failurePolicy"]

/-- The same but for the order of the keys. -/
structure SameConfig (config other : Entries Str Json) : Prop where
  top : ∀ k, k ∉ sectionNames.map lit → Entries.get? config k = Entries.get? other k
  sections : ∀ name ∈ sectionNames, ∃ fields others,
    Entries.get? config (lit name) = some (.obj fields) ∧
    Entries.get? other (lit name) = some (.obj others) ∧
    ∀ k, Entries.get? fields k = Entries.get? others k

/-- Dictionaries with unique keys. -/
structure Proper (config : Entries Str Json) : Prop where
  nodup : (Entries.keys config).Nodup
  sections : ∀ name ∈ sectionNames, (Entries.keys (configSection config name)).Nodup

/-- Everything that a default would be taken for is set. -/
structure Complete (config : Entries Str Json) : Prop where
  top : ∀ key ∈ ["runtimeMode", "host", "port"], (Entries.get? config (lit key)).isSome
  sections : ∀ name ∈ sectionNames, ∃ fields,
    Entries.get? config (lit name) = some (.obj fields) ∧ (Entries.keys fields).Nodup ∧
    ∀ k ∈ Entries.keys (configSection defaultConfig name), (Entries.get? fields k).isSome

theorem SameConfig.setting (h : SameConfig config validated) (name key : String) :
    setting config name key = setting validated name key := by
  by_cases hname : name ∈ sectionNames
  · obtain ⟨fields, others, hfields, hothers, heq⟩ := h.sections name hname
    simp [Personal.setting, configSection, Json.field, hfields, hothers, Json.obj?, heq]
  · have hout : lit name ∉ sectionNames.map lit :=
      fun hmem => hname ((List.mem_map_of_injective lit_injective).mp hmem)
    rw [Personal.setting, Personal.setting, configSection, configSection, Json.field, Json.field,
      h.top _ hout]

/-- A section with its defaults is the section. -/
theorem get?_sectionDefaults {name : String} {fields : Entries Str Json}
    (hnodup : (Entries.keys fields).Nodup)
    (h : ∀ k ∈ Entries.keys (configSection defaultConfig name), (Entries.get? fields k).isSome)
    (k : Str) :
    Entries.get? (updated (configSection defaultConfig name) fields) k =
      Entries.get? fields k := by
  rw [get?_updated hnodup]
  cases hk : Entries.get? fields k with
  | some v => rfl
  | none =>
      refine Entries.get?_eq_none_iff.mpr fun hmem => ?_
      have := h k hmem
      rw [hk] at this
      cases this

/-- The sections that are loaded. -/
def loadedSections (J : JavaScript) (config : Entries Str Json) : Entries Str Json :=
  [(lit "opencodex", Json.obj (sectionOr (.obj config) "opencodex")),
    (lit "codingAgent", .obj (agentOr J (.obj config))),
    (lit "solar", .obj (sectionOr (.obj config) "solar")),
    (lit "textLlm", .obj (profileOr (.obj config) "textLlm" "solar")),
    (lit "ocr", .obj (sectionOr (.obj config) "ocr")),
    (lit "mediaProcessor", .obj (profileOr (.obj config) "mediaProcessor" "ocr")),
    (lit "conversion", .obj (sectionOr (.obj config) "conversion")),
    (lit "failurePolicy", .obj (sectionOr (.obj config) "failurePolicy"))]

/-- Taking the defaults for what is not set changes nothing. -/
theorem sameConfig_merged (h : Complete config) (hnodup : (Entries.keys config).Nodup) :
    SameConfig (merged J (.obj config)) config := by
  have hkeys : Entries.keys (loadedSections J config) = sectionNames.map lit := rfl
  have hmerged (k : Str) : Entries.get? (merged J (.obj config)) k =
      (Entries.get? (loadedSections J config) k).or
        ((Entries.get? config k).or (Entries.get? defaultConfig k)) := by
    have hsections : (Entries.keys (loadedSections J config)).Nodup := by
      rw [hkeys]
      decide
    refine (get?_updated hsections).trans (congrArg _ ?_)
    exact get?_updated hnodup
  have hsection {name : String} {fields : Entries Str Json}
      (hfields : Entries.get? config (lit name) = some (.obj fields)) :
      sectionOr (.obj config) name = updated (configSection defaultConfig name) fields ∧
        (∀ legacy, profileOr (.obj config) name legacy =
          updated (configSection defaultConfig name) fields) ∧
        (name = "codingAgent" →
          agentOr J (.obj config) = updated (configSection defaultConfig name) fields) := by
    have hproperty : property (.obj config) name = some (.obj fields) := hfields
    refine ⟨by rw [sectionOr, hproperty]; rfl, fun legacy => ?_, ?_⟩
    · rw [profileOr, hproperty]
      rfl
    · rintro rfl
      rw [agentOr, hproperty]
      rfl
  constructor
  · intro k hk
    have hnone : Entries.get? (loadedSections J config) k = none :=
      Entries.get?_eq_none_iff.mpr hk
    rw [hmerged, hnone, Option.none_or]
    by_cases hrequired : k ∈ ["runtimeMode", "host", "port"].map lit
    · obtain ⟨key, hkey, rfl⟩ := List.mem_map.mp hrequired
      obtain ⟨v, hv⟩ := Option.isSome_iff_exists.mp (h.top key hkey)
      rw [hv, Option.some_or]
    · have hdefault : Entries.get? defaultConfig k = none := by
        apply Entries.get?_eq_none_iff.mpr
        intro hmem
        have hkeys : Entries.keys defaultConfig =
          ["runtimeMode", "host", "port"].map lit ++ sectionNames.map lit := by decide
        rw [hkeys, List.mem_append] at hmem
        exact hmem.elim hrequired hk
      rw [hdefault, Option.or_none]
  · intro name hname
    obtain ⟨fields, hfields, hunique, hdefaults⟩ := h.sections name hname
    refine ⟨_, fields, ?_, hfields, get?_sectionDefaults hunique hdefaults⟩
    obtain ⟨hplain, hprofile, hagent⟩ := hsection hfields
    rw [hmerged]
    simp only [sectionNames, List.mem_cons, List.not_mem_nil, or_false] at hname
    obtain rfl | rfl | rfl | rfl | rfl | rfl | rfl | rfl := hname
    · rw [← hplain]
      rfl
    · rw [← hagent rfl]
      rfl
    · rw [← hplain]
      rfl
    · rw [← hprofile "solar"]
      rfl
    · rw [← hplain]
      rfl
    · rw [← hprofile "ocr"]
      rfl
    · rw [← hplain]
      rfl
    · rw [← hplain]
      rfl

theorem unlessHolds_eq_none_iff {holds : Bool} {message : String} :
    unlessHolds holds message = none ↔ holds = true := by
  cases holds <;> simp [unlessHolds]

theorem isSome_of_any {α β : Type} {value : Option α} {f : α → Option β} {p : β → Bool}
    (h : (value.bind f).any p = true) : value.isSome = true := by
  cases value with
  | none => cases h
  | some v => rfl

theorem isSome_of_isText {value : Option Json} {text : String} (h : isText value text = true) :
    value.isSome = true := by
  cases value with
  | none => cases h
  | some v => rfl

theorem isSome_of_isText_any {value : Option Json} {texts : List String}
    (h : (texts.any fun text => isText value text) = true) : value.isSome = true := by
  obtain ⟨text, -, htext⟩ := List.any_eq_true.mp h
  exact isSome_of_isText htext

theorem isSome_of_endpointError {value : Option Json} {field : String} {allowPrivateHttp : Bool}
    (h : endpointError J value field allowPrivateHttp = none) : value.isSome = true := by
  cases value with
  | none => cases h
  | some v => rfl

/-- A section with a key is an object. -/
theorem exists_of_setting {name key : String} (h : (setting config name key).isSome = true) :
    ∃ fields, Entries.get? config (lit name) = some (.obj fields) ∧
      configSection config name = fields := by
  rw [setting, configSection, Json.field] at h
  cases hv : Entries.get? config (lit name) with
  | none =>
      rw [hv] at h
      cases h
  | some v =>
      cases v with
      | obj fields => exact ⟨fields, rfl, by rw [configSection, Json.field, hv]; rfl⟩
      | null | bool _ | int _ | float _ | str _ | arr _ =>
          rw [hv] at h
          cases h

/-- The checks look at everything that has a default, but for the booleans. -/
theorem complete_of_checks (hproper : Proper config)
    (hchecks : ∀ error ∈ configErrors J config, error = none)
    (hbooleans : ∀ e ∈ booleanKeys, (setting config e.1 e.2).isSome = true) : Complete config := by
  simp only [configErrors, List.forall_mem_cons, unlessHolds_eq_none_iff, Bool.and_eq_true] at hchecks
  obtain ⟨hport, hhost, hopencodex, hagent, hsolar, htext, hocr, hmedia, hmode, hsolarModel,
    hsolarKey, hocrModel, hocrKey, ⟨hagentPreset, hagentProtocol⟩,
    ⟨⟨⟨⟨htextPreset, htextProtocol⟩, htextModel⟩, htextRef⟩, htextEnv⟩,
    ⟨⟨⟨⟨hmediaPreset, hmediaProtocol⟩, hmediaModel⟩, hmediaRef⟩, hmediaEnv⟩, hbytes, -⟩ := hchecks
  simp only [booleanKeys, List.forall_mem_cons] at hbooleans
  obtain ⟨hocrEnabled, hvision, hblock, -⟩ := hbooleans
  have hset : ∀ name ∈ sectionNames, ∀ k ∈ Entries.keys (configSection defaultConfig name),
      (Entries.get? (configSection config name) k).isSome := by
    have hkeys {name : String} (keys : List String)
        (hdefault : Entries.keys (configSection defaultConfig name) = keys.map lit)
        (h : ∀ key ∈ keys, (setting config name key).isSome = true) :
        ∀ k ∈ Entries.keys (configSection defaultConfig name),
          (Entries.get? (configSection config name) k).isSome := by
      rw [hdefault]
      intro k hk
      obtain ⟨key, hkey, rfl⟩ := List.mem_map.mp hk
      exact h key hkey
    simp only [sectionNames, List.forall_mem_cons]
    refine ⟨?_, ?_, ?_, ?_, ?_, ?_, ?_, ?_, List.forall_mem_nil _⟩
    · refine hkeys ["baseUrl"] rfl ?_
      simpa using isSome_of_endpointError hopencodex
    · refine hkeys ["preset", "protocol", "baseUrl"] rfl ?_
      simpa using ⟨isSome_of_isText_any hagentPreset, isSome_of_isText hagentProtocol,
        isSome_of_endpointError hagent⟩
    · refine hkeys ["model", "endpoint", "apiKeyEnv"] rfl ?_
      simpa using ⟨isSome_of_any hsolarModel, isSome_of_endpointError hsolar,
        isSome_of_any hsolarKey⟩
    · refine hkeys ["preset", "protocol", "endpoint", "model", "credentialRef",
        "credentialEnv"] rfl ?_
      simpa using ⟨isSome_of_isText_any htextPreset, isSome_of_isText_any htextProtocol,
        isSome_of_endpointError htext, isSome_of_any htextModel, isSome_of_any htextRef,
        isSome_of_any htextEnv⟩
    · refine hkeys ["endpoint", "model", "apiKeyEnv"] rfl ?_
      simpa using ⟨isSome_of_endpointError hocr, isSome_of_isText hocrModel, isSome_of_any hocrKey⟩
    · refine hkeys ["preset", "protocol", "endpoint", "model", "credentialRef",
        "credentialEnv"] rfl ?_
      simpa using ⟨isSome_of_isText hmediaPreset, isSome_of_isText hmediaProtocol,
        isSome_of_endpointError hmedia, isSome_of_isText hmediaModel, isSome_of_any hmediaRef,
        isSome_of_any hmediaEnv⟩
    · refine hkeys ["maxBytes", "ocrEnabled", "visionEnabled"] rfl ?_
      simpa using ⟨isSome_of_any hbytes, hocrEnabled, hvision⟩
    · refine hkeys ["blockSolarOnPreparationFailure"] rfl ?_
      simpa using hblock
  constructor
  · simpa using ⟨isSome_of_isText hmode, isSome_of_any hhost, isSome_of_any hport⟩
  · intro name hname
    obtain ⟨key, hkey⟩ : ∃ key, (setting config name key).isSome = true := by
      have hfirst : ∀ name ∈ sectionNames, ∃ key, lit key ∈
          Entries.keys (configSection defaultConfig name) := by
        simp only [sectionNames, List.forall_mem_cons]
        exact ⟨⟨"baseUrl", by decide⟩, ⟨"baseUrl", by decide⟩, ⟨"model", by decide⟩,
          ⟨"model", by decide⟩, ⟨"model", by decide⟩, ⟨"model", by decide⟩,
          ⟨"maxBytes", by decide⟩, ⟨"blockSolarOnPreparationFailure", by decide⟩,
          List.forall_mem_nil _⟩
      obtain ⟨key, hkey⟩ := hfirst name hname
      exact ⟨key, hset name hname (lit key) hkey⟩
    obtain ⟨fields, hfields, hsection⟩ := exists_of_setting hkey
    have hnodup := hproper.sections name hname
    rw [hsection] at hnodup
    refine ⟨fields, hfields, hnodup, ?_⟩
    rw [← hsection]
    exact hset name hname

theorem setting_booleanSetting_self {name key : String}
    (h : isSettable (Entries.get? config (lit name)) = true) :
    setting (booleanSetting config name key) name key =
      some (.bool (booleanOf (setting config name key))) := by
  rw [booleanSetting, if_pos h, setting, get?_section_set, if_pos rfl, Entries.get?_set_self]

theorem isSettable_booleanSetting {name key : String} {k : Str}
    (h : isSettable (Entries.get? config k) = true) :
    isSettable (Entries.get? (booleanSetting config name key) k) = true := by
  unfold booleanSetting
  split
  · rw [Entries.get?_set]
    split_ifs
    · rfl
    · exact h
  · exact h

/-- What `validateConfig` sets is a boolean. -/
theorem boolean_withBooleans
    (hconversion : isSettable (Entries.get? config (lit "conversion")) = true)
    (hpolicy : isSettable (Entries.get? config (lit "failurePolicy")) = true) :
    ∀ e ∈ booleanKeys, ∃ b, setting (withBooleans config) e.1 e.2 = some (.bool b) := by
  change ∀ e ∈ booleanKeys, ∃ b, setting (booleanSetting (booleanSetting
    (booleanSetting config "conversion" "ocrEnabled") "conversion" "visionEnabled")
    "failurePolicy" "blockSolarOnPreparationFailure") e.1 e.2 = some (.bool b)
  simp only [booleanKeys, List.forall_mem_cons]
  refine ⟨?_, ?_, ?_, List.forall_mem_nil _⟩
  · rw [setting_booleanSetting (by decide), setting_booleanSetting (by decide),
      setting_booleanSetting_self hconversion]
    exact ⟨_, rfl⟩
  · rw [setting_booleanSetting (by decide),
      setting_booleanSetting_self (isSettable_booleanSetting hconversion)]
    exact ⟨_, rfl⟩
  · rw [setting_booleanSetting_self
      (isSettable_booleanSetting (isSettable_booleanSetting hpolicy))]
    exact ⟨_, rfl⟩

/-- A boolean that is set already stays. -/
theorem SameConfig.booleanSetting {other : Entries Str Json} (h : SameConfig config other)
    {name key : String} (hname : name ∈ sectionNames) {b : Bool}
    (hb : Personal.setting other name key = some (.bool b)) :
    SameConfig (booleanSetting config name key) other := by
  have hsetting := (h.setting name key).trans hb
  obtain ⟨fields, others, hfields, hothers, heq⟩ := h.sections name hname
  have hsection (c : Entries Str Json) (s : Entries Str Json)
      (hc : Entries.get? c (lit name) = some (.obj s)) : configSection c name = s := by
    rw [configSection, Json.field, hc]
    rfl
  have hset : Personal.booleanSetting config name key = Entries.set config (lit name)
      (.obj (Entries.set fields (lit key) (.bool b))) := by
    have hsettable : isSettable (Entries.get? config (lit name)) = true := by
      rw [hfields]
      rfl
    have hof : booleanOf (some (.bool b)) = b := by cases b <;> rfl
    rw [Personal.booleanSetting, if_pos hsettable, hsetting, hof, hsection config fields hfields]
  rw [hset]
  constructor
  · intro k hk
    have hne : k ≠ lit name := fun heq => hk (heq ▸ List.mem_map_of_mem hname)
    rw [Entries.get?_set_of_ne _ _ hne, h.top k hk]
  · intro name' hname'
    by_cases hsame : name' = name
    · subst hsame
      refine ⟨_, others, Entries.get?_set_self _ _ _, hothers, fun k => ?_⟩
      rw [Entries.get?_set]
      split_ifs with hk
      · rw [Personal.setting, hsection other others hothers] at hb
        rw [hk, hb]
      · exact heq k
    · obtain ⟨f, g, hf, hg, hfg⟩ := h.sections name' hname'
      refine ⟨f, g, ?_, hg, hfg⟩
      rw [Entries.get?_set_of_ne _ _ fun heq => hsame (lit_injective heq), hf]

theorem SameConfig.withBooleans {other : Entries Str Json} (h : SameConfig config other)
    (hb : ∀ e ∈ booleanKeys, ∃ b, Personal.setting other e.1 e.2 = some (.bool b)) :
    SameConfig (withBooleans config) other := by
  simp only [booleanKeys, List.forall_mem_cons] at hb
  obtain ⟨⟨_, hocr⟩, ⟨_, hvision⟩, ⟨_, hblock⟩, -⟩ := hb
  exact ((h.booleanSetting (by decide) hocr).booleanSetting (by decide) hvision).booleanSetting
    (by decide) hblock

/-- The base URL of an earlier version, which loading moves. -/
def legacyBase : Str := lit "http://127.0.0.1:10100/v1"

/-- What was saved is loaded as it was. -/
theorem sameConfig_of_saved (hproper : Proper validated)
    (hpolicy : isSettable (Entries.get? config (lit "failurePolicy")) = true)
    (h : validateConfig J config = .ok validated)
    (hlegacy : baseUrl validated "opencodex" ≠ some legacyBase) :
    ∃ loaded, loadConfig J (.parsed (.obj validated)) = .ok loaded ∧
      SameConfig loaded validated := by
  obtain ⟨hchecks, rfl⟩ := validateConfig_eq_ok_iff.mp h
  have hconversion : isSettable (Entries.get? config (lit "conversion")) = true := by
    have hbytes := hchecks _ (List.getLast_mem (l := configErrors J config) (List.cons_ne_nil _ _))
    have hset : (setting config "conversion" "maxBytes").isSome = true :=
      isSome_of_any (unlessHolds_eq_none_iff.mp hbytes)
    obtain ⟨fields, hfields, -⟩ := exists_of_setting hset
    rw [hfields]
    rfl
  have hbooleans := boolean_withBooleans hconversion hpolicy
  rw [← sameChecks_withBooleans.configErrors] at hchecks
  have hcomplete := complete_of_checks hproper hchecks fun e he => by
    obtain ⟨b, hb⟩ := hbooleans e he
    rw [hb]
    rfl
  have hmerged := sameConfig_merged (J := J) hcomplete hproper.nodup
  have hsame : SameChecks (merged J (.obj (withBooleans config))) (withBooleans config) := by
    constructor
    · intro key hkey
      refine hmerged.top _ ?_
      revert key
      decide
    · exact fun name key _ => hmerged.setting name key
  have hmigrated : migrated J (.obj (withBooleans config)) (merged J (.obj (withBooleans config))) =
      merged J (.obj (withBooleans config)) := by
    refine if_neg fun htext => hlegacy ?_
    rw [hmerged.setting "opencodex" "baseUrl"] at htext
    unfold baseUrl
    cases hurl : setting (withBooleans config) "opencodex" "baseUrl" with
    | none =>
        rw [hurl] at htext
        cases htext
    | some v =>
        rw [hurl] at htext
        cases v with
        | str s => exact congrArg some (of_decide_eq_true htext)
        | null | bool _ | int _ | float _ | arr _ | obj _ => cases htext
  refine ⟨withBooleans (merged J (.obj (withBooleans config))), ?_,
    hmerged.withBooleans hbooleans⟩
  rw [← hsame.configErrors] at hchecks
  change validateConfig J (migrated J (.obj (withBooleans config))
    (merged J (.obj (withBooleans config)))) = _
  rw [hmigrated]
  exact validateConfig_eq_ok_iff.mpr ⟨hchecks, rfl⟩

theorem Proper.set (h : Proper config) {name : String} {fields : Entries Str Json}
    (hfields : (Entries.keys fields).Nodup) :
    Proper (Entries.set config (lit name) (.obj fields)) where
  nodup := Entries.nodup_set h.nodup _ _
  sections other hother := by
    by_cases heq : other = name
    · rw [heq, configSection_set_self]
      exact hfields
    · rw [configSection_set fun hlit => heq (lit_injective hlit)]
      exact h.sections other hother

theorem Proper.withBooleans (h : Proper config) : Proper (withBooleans config) := by
  have hstep (c : Entries Str Json) (hc : Proper c) (name key : String)
      (hname : name ∈ sectionNames) : Proper (booleanSetting c name key) := by
    unfold Personal.booleanSetting
    split
    · exact hc.set (Entries.nodup_set (hc.sections name hname) _ _)
    · exact hc
  exact hstep _ (hstep _ (hstep _ h _ _ (by decide)) _ _ (by decide)) _ _ (by decide)

theorem Proper.applyOverride {key : String} {value : Json} {final : Entries Str Json}
    (hkey : key ∈ ["host", "port"]) (h : Proper config)
    (hfinal : applyOverride J key config value = .ok final) : Proper final := by
  obtain ⟨-, rfl⟩ := validateConfig_eq_ok_iff.mp hfinal
  have hmoved : Proper (Entries.set config (lit key) value) := by
    refine ⟨Entries.nodup_set h.nodup _ _, fun name hname => ?_⟩
    rw [configSection_set]
    · exact h.sections name hname
    · have hne : ∀ key ∈ ["host", "port"], ∀ name ∈ sectionNames, lit name ≠ lit key := by decide
      exact hne key hkey name hname
  have hstep (c : Entries Str Json) (hc : Proper c) (name : String) (hname : name ∈ sectionNames)
      (previous next : Str) : Proper (rebased previous next c name) := by
    unfold rebased
    split_ifs
    · exact hc.set (Entries.nodup_set (hc.sections name hname) _ _)
    · exact hc
  exact (hstep _ (hstep _ hmoved _ (by decide) _ _) _ (by decide) _ _).withBooleans

end Reloading

section Runs

variable {J : JavaScript} {config final : Entries Str Json}

/-- The configuration after some overrides, all of which are accepted. -/
def applyAll (J : JavaScript) (config : Entries Str Json) (overrides : List Override) :
    Except String (Entries Str Json) := overrides.foldlM (Override.apply J) config

/-- What is promised after some overrides. -/
structure Consistent (J : JavaScript) (config : Entries Str Json) (overrides : List Override)
    (final : Entries Str Json) : Prop where
  accepted : Accepted J final
  /-- The host and the port are those that were given last, or those of the configuration. -/
  given : ∀ key ∈ ["host", "port"], Entries.get? final (lit key) =
    (lastGiven key overrides).or (Entries.get? config (lit key))
  /-- A base URL of the launcher itself names the final host and port. -/
  own : ∀ name ∈ ownSections, baseUrl config name = some (ownBase J config) →
    baseUrl final name = some (ownBase J final)
  /-- A base URL that is never the one of the launcher itself stays. -/
  foreign : ∀ name ∈ ownSections, (∀ before o after c, overrides = before ++ o :: after →
      applyAll J config before = .ok c → baseUrl c name ≠ some (ownBase J c)) →
    setting final name "baseUrl" = setting config name "baseUrl"
  /-- All other URLs and settings of these sections stay, and of those with the booleans all but
  the booleans. -/
  sections : ∀ name, name ∉ ["host", "port"] → ∀ k,
    (∀ flag, (name, flag) ∈ booleanKeys → k ≠ lit flag) →
    ¬ (name ∈ ownSections ∧ k = lit "baseUrl") →
    Entries.get? (configSection final name) k = Entries.get? (configSection config name) k
  /-- All other sections and settings stay. -/
  top : ∀ k, k ∉ ["host", "port", "opencodex", "codingAgent", "conversion",
    "failurePolicy"].map lit →
    Entries.get? final k = Entries.get? config k
  /-- What was saved is loaded as it was, unless loading moves the base URL of an earlier
  version. -/
  reloaded : baseUrl final "opencodex" ≠ some legacyBase →
    ∃ validated loaded, saveConfig J final = .ok (.parsed (.obj validated)) ∧
      validateConfig J final = .ok validated ∧
      loadConfig J (.parsed (.obj validated)) = .ok loaded ∧ SameConfig loaded validated

/-- What an accepted override is. -/
theorem exists_of_apply {o : Override} (h : o.apply J config = .ok final) :
    ∃ key ∈ ["host", "port"], ∃ value, applyOverride J key config value = .ok final ∧
      ∀ other, o.given other = if other = key then some value else none := by
  cases o with
  | port value => exact ⟨"port", by decide, value, h, fun _ => rfl⟩
  | host value => exact ⟨"host", by decide, value, h, fun _ => rfl⟩

theorem isSettable_applyAll {overrides : List Override}
    (h : applyAll J config overrides = .ok final)
    (hpolicy : isSettable (Entries.get? config (lit "failurePolicy")) = true) :
    isSettable (Entries.get? final (lit "failurePolicy")) = true := by
  induction overrides generalizing config with
  | nil =>
      cases h
      exact hpolicy
  | cons o rest ih =>
      rw [applyAll, List.foldlM_cons] at h
      obtain ⟨next, hnext, hrest⟩ := ok_of_bind h
      refine ih hrest ?_
      obtain ⟨key, hkey, value, happly, -⟩ := exists_of_apply hnext
      obtain ⟨-, rfl⟩ := validateConfig_eq_ok_iff.mp happly
      refine isSettable_booleanSetting (isSettable_booleanSetting (isSettable_booleanSetting ?_))
      have hne : ∀ key ∈ ["host", "port"], lit "failurePolicy" ≠ lit key := by decide
      change isSettable (Entries.get? (rebased _ _ (rebased _ _ _ "opencodex") "codingAgent") _) = _
      rw [get?_rebased (by decide), get?_rebased (by decide),
        Entries.get?_set_of_ne _ _ (hne key hkey)]
      exact hpolicy

theorem proper_applyAll {overrides : List Override} (h : applyAll J config overrides = .ok final)
    (hproper : Proper config) : Proper final := by
  induction overrides generalizing config with
  | nil =>
      cases h
      exact hproper
  | cons o rest ih =>
      rw [applyAll, List.foldlM_cons] at h
      obtain ⟨next, hnext, hrest⟩ := ok_of_bind h
      obtain ⟨key, hkey, value, happly, -⟩ := exists_of_apply hnext
      exact ih hrest (hproper.applyOverride hkey happly)

/-- What one override makes of the base URLs of the launcher. -/
theorem baseUrl_of_apply {o : Override} (h : o.apply J config = .ok final) {name : String}
    (hname : name ∈ ownSections) :
    setting final name "baseUrl" =
      if baseUrl config name = some (ownBase J config) then some (.str (ownBase J final))
      else setting config name "baseUrl" := by
  obtain ⟨key, hkey, value, happly, -⟩ := exists_of_apply h
  have hother : name ≠ key := by
    have hne : ∀ key ∈ ["host", "port"], ∀ name ∈ ownSections, name ≠ key := by decide
    exact hne key hkey name hname
  have hbooleans : ∀ flag, (name, flag) ∈ booleanKeys → lit "baseUrl" ≠ lit flag := by
    intro flag hflag hlit
    rw [← lit_injective hlit] at hflag
    simp [booleanKeys] at hflag
  rw [setting, (moved_of_applyOverride hkey happly).sections name _ hother hbooleans]
  simp only [hname, true_and, and_self]
  rfl

theorem own_applyAll {overrides : List Override} (h : applyAll J config overrides = .ok final)
    {name : String} (hname : name ∈ ownSections)
    (hown : baseUrl config name = some (ownBase J config)) :
    baseUrl final name = some (ownBase J final) := by
  induction overrides generalizing config with
  | nil =>
      cases h
      exact hown
  | cons o rest ih =>
      rw [applyAll, List.foldlM_cons] at h
      obtain ⟨next, hnext, hrest⟩ := ok_of_bind h
      refine ih hrest ?_
      rw [baseUrl, baseUrl_of_apply hnext hname, if_pos hown]
      rfl

theorem foreign_applyAll {overrides : List Override} (h : applyAll J config overrides = .ok final)
    {name : String} (hname : name ∈ ownSections)
    (hforeign : ∀ before o after c, overrides = before ++ o :: after →
      applyAll J config before = .ok c → baseUrl c name ≠ some (ownBase J c)) :
    setting final name "baseUrl" = setting config name "baseUrl" := by
  induction overrides generalizing config with
  | nil =>
      cases h
      rfl
  | cons o rest ih =>
      rw [applyAll, List.foldlM_cons] at h
      obtain ⟨next, hnext, hrest⟩ := ok_of_bind h
      have hfirst := hforeign [] o rest config rfl rfl
      rw [ih hrest fun before o' after c heq hc => ?_, baseUrl_of_apply hnext hname,
        if_neg hfirst]
      refine hforeign (o :: before) o' after c (by rw [heq]; rfl) ?_
      rw [applyAll, List.foldlM_cons, hnext]
      exact hc

theorem sections_applyAll {overrides : List Override} (h : applyAll J config overrides = .ok final)
    {name : String} {k : Str} (hname : name ∉ ["host", "port"])
    (hbooleans : ∀ flag, (name, flag) ∈ booleanKeys → k ≠ lit flag)
    (hnot : ¬ (name ∈ ownSections ∧ k = lit "baseUrl")) :
    Entries.get? (configSection final name) k = Entries.get? (configSection config name) k := by
  induction overrides generalizing config with
  | nil =>
      cases h
      rfl
  | cons o rest ih =>
      rw [applyAll, List.foldlM_cons] at h
      obtain ⟨next, hnext, hrest⟩ := ok_of_bind h
      obtain ⟨key, hkey, value, happly, -⟩ := exists_of_apply hnext
      have hother : name ≠ key := fun heq => hname (heq ▸ hkey)
      rw [ih hrest, (moved_of_applyOverride hkey happly).sections name k hother hbooleans,
        if_neg fun hown => hnot hown.1]

theorem top_applyAll {overrides : List Override} (h : applyAll J config overrides = .ok final)
    {k : Str} (hk : k ∉ ["host", "port", "opencodex", "codingAgent", "conversion",
      "failurePolicy"].map lit) : Entries.get? final k = Entries.get? config k := by
  induction overrides generalizing config with
  | nil =>
      cases h
      rfl
  | cons o rest ih =>
      rw [applyAll, List.foldlM_cons] at h
      obtain ⟨next, hnext, hrest⟩ := ok_of_bind h
      obtain ⟨key, hkey, value, happly, -⟩ := exists_of_apply hnext
      simp only [List.map_cons, List.map_nil, List.mem_cons, List.not_mem_nil, or_false,
        not_or] at hk
      obtain ⟨hhost, hport, hopencodex, hagent, hconversion, hpolicy⟩ := hk
      have hne : k ≠ lit key := by
        rcases List.mem_pair.mp hkey with rfl | rfl
        · exact hhost
        · exact hport
      have hsections : k ∉ ownSections.map lit := by
        simp [ownSections, hopencodex, hagent]
      rw [ih hrest, (moved_of_applyOverride hkey happly).top k hne hsections hconversion hpolicy]

/-- What one override makes of the host and the port. -/
theorem given_apply {o : Override} (h : o.apply J config = .ok final) {key : String}
    (hkey : key ∈ ["host", "port"]) :
    Entries.get? final (lit key) = (o.given key).or (Entries.get? config (lit key)) := by
  obtain ⟨other, hother, value, happly, hgiven⟩ := exists_of_apply h
  have hmoved := moved_of_applyOverride hother happly
  rw [hgiven]
  split_ifs with heq
  · rw [heq, hmoved.own]
    rfl
  · have hapart : ∀ key ∈ ["host", "port"], lit key ∉ ownSections.map lit ∧
        lit key ≠ lit "conversion" ∧ lit key ≠ lit "failurePolicy" := by decide
    obtain ⟨hsections, hconversion, hpolicy⟩ := hapart key hkey
    exact hmoved.top _ (fun h => heq (lit_injective h)) hsections hconversion hpolicy

theorem given_applyAll {overrides : List Override} (h : applyAll J config overrides = .ok final)
    {key : String} (hkey : key ∈ ["host", "port"]) :
    Entries.get? final (lit key) =
      (lastGiven key overrides).or (Entries.get? config (lit key)) := by
  induction overrides generalizing config with
  | nil =>
      cases h
      rfl
  | cons o rest ih =>
      rw [applyAll, List.foldlM_cons] at h
      obtain ⟨next, hnext, hrest⟩ := ok_of_bind h
      have hlast : lastGiven key (o :: rest) = (lastGiven key rest).or (o.given key) := by
        rw [lastGiven, List.reverse_cons, List.findSome?_append, List.findSome?_singleton]
        rfl
      rw [ih hrest, given_apply hnext hkey, hlast, Option.or_assoc]

theorem accepted_applyAll {overrides : List Override} (h : applyAll J config overrides = .ok final)
    (haccepted : Accepted J config) : Accepted J final := by
  induction overrides generalizing config with
  | nil =>
      cases h
      exact haccepted
  | cons o rest ih =>
      rw [applyAll, List.foldlM_cons] at h
      obtain ⟨next, hnext, hrest⟩ := ok_of_bind h
      obtain ⟨key, -, value, happly, -⟩ := exists_of_apply hnext
      exact ih hrest (accepted_of_validateConfig happly)

end Runs

section Sample

theorem proper_defaultConfig : Proper defaultConfig := by
  constructor
  · decide
  · decide

/-- The default configuration with another base URL. -/
def configWithBase (url : String) : Entries Str Json :=
  Entries.set defaultConfig (lit "opencodex") (.obj [(lit "baseUrl", .str (lit url))])

/-- A configuration that is saved and loaded. -/
def reloads (config : Entries Str Json) (p : Entries Str Json → Entries Str Json → Bool) : Bool :=
  (validateConfig sampleEngine config).toOption.any fun validated =>
    (loadConfig sampleEngine (.parsed (.obj validated))).toOption.any fun loaded =>
      p loaded validated

theorem exists_of_reloads (config : Entries Str Json)
    (p : Entries Str Json → Entries Str Json → Bool) (h : reloads config p = true) :
    ∃ validated loaded, saveConfig sampleEngine config = .ok (.parsed (.obj validated)) ∧
      loadConfig sampleEngine (.parsed (.obj validated)) = .ok loaded ∧
      p loaded validated = true := by
  unfold reloads at h
  cases hvalid : validateConfig sampleEngine config with
  | error e =>
      rw [hvalid] at h
      cases h
  | ok validated =>
      rw [hvalid] at h
      change (loadConfig sampleEngine (.parsed (.obj validated))).toOption.any
        (fun loaded => p loaded validated) = true at h
      cases hload : loadConfig sampleEngine (.parsed (.obj validated)) with
      | error e =>
          rw [hload] at h
          cases h
      | ok loaded =>
          rw [hload] at h
          exact ⟨validated, loaded, by rw [saveConfig, hvalid]; rfl, hload, h⟩

end Sample

end MediaBridge.Personal
