import MediaBridge.Adapters.OpenCodex

/-!
# What `apply` leaves in the configuration

A call that returns should leave a configuration with the settings of its arguments and everything
else as it was. Where a marker exists, `apply` writes nothing: it reports `unchanged` when the
configuration is the one that was written last, whatever the arguments are.

## Implementation notes

Dictionaries are compared without the order of their keys, as values whose `sorted` is the same.
-/

namespace MediaBridge.Adapters.OpenCodex

open Foundation MediaBridge.Core JsonText

section Reading

variable {M : Manager}

/-- What a file gives can be written, and takes no more of the stack than there is. -/
theorem readable_of_readJson {data : Bytes} {v : Json} (h : readJson M data = .ok v) :
    Readable v ∧ v.depth ≤ M.interpreter.platform.jsonDepth := by
  unfold readJson at h
  split at h
  · cases h
  · rename_i text htext
    split at h
    · rename_i w hloads
      cases h
      exact readable_of_loads M.faithful
        (Str.encodable_universalNewlines (Utf8.encodable_of_decode htext)) hloads
    · cases h
    · cases h

theorem readable_of_readConfig {content : Option Bytes} {fields : Entries Str Json}
    (h : readConfig M content = .ok fields) :
    Readable (.obj fields) ∧ Json.depth (.obj fields) ≤ M.interpreter.platform.jsonDepth := by
  cases content with
  | none =>
      cases h
      refine ⟨?_, le_trans (by decide) M.depth⟩
      refine .obj (List.nodup_singleton _) (fun e he => ?_) fun e he => ?_
      · rw [List.mem_singleton.mp he]
        decide
      · rw [List.mem_singleton.mp he]
        exact readable_empty
  | some data =>
      rw [readConfig] at h
      split at h
      · cases h
      · rename_i found hread
        cases h
        exact readable_of_readJson hread
      · cases h

/-- A line of printable characters is read as it was written. -/
theorem readJson_line {text : Str} (h : Printable text) :
    ∃ data, Utf8.encode (text ++ [cp 10]) = some data ∧
      ∀ v, loads M.interpreter.platform.float M.interpreter.platform.jsonDepth
        (text ++ [cp 10]) = .ok v → readJson M data = .ok v := by
  have hline : ∀ c ∈ text ++ [cp 10], c.isAscii = true ∧ c ≠ cp 13 := by
    intro c hc
    rcases List.mem_append.mp hc with hc | hc
    · have hrange := h c hc
      refine ⟨h.ascii c hc, ?_⟩
      rintro rfl
      exact absurd hrange.1 (by decide)
    · rw [List.mem_singleton.mp hc]
      exact ⟨by decide, by decide⟩
  have hencode := Utf8.encode_ascii fun c hc => (hline c hc).1
  refine ⟨_, hencode, fun v hv => ?_⟩
  have hdecode := Utf8.decodeWith_encode false hencode
  rw [readJson, Utf8.decode, hdecode]
  simp only [Str.universalNewlines_eq_self fun c hc => (hline c hc).2, hv]

/-- What is written is read in the order of its keys. -/
theorem canonical_read {fields : Entries Str Json} (h : Readable (.obj fields))
    (hdepth : Json.depth (.obj fields) ≤ M.interpreter.platform.jsonDepth) :
    ∃ data, canonical M fields = some data ∧
      readJson M data = .ok (.obj (Json.sortedEntries fields)) := by
  obtain ⟨text, htext, hprintable⟩ :
      ∃ text, dumps M.interpreter.platform.float style (.obj fields) = some text ∧
        Printable text := h.exists_dumps M.faithful rfl rfl
  obtain ⟨data, hdata, hread⟩ := readJson_line (M := M) hprintable
  refine ⟨data, ?_, hread _ ?_⟩
  · rw [canonical, htext]
    exact hdata
  · exact h.loads_line_sorted M.faithful rfl rfl rfl htext hdepth

end Reading

section Arguments

variable {M : Manager} {a : Arguments}

/-- The strings of accepted arguments that a JSON text can give; the patterns leave ASCII only. -/
structure Plain (a : Arguments) : Prop where
  providerName : ∀ c ∈ a.providerName, c.isAscii = true
  model : ∀ c ∈ a.model, c.isAscii = true
  credentialEnv : ∀ c ∈ a.credentialEnv, c.isAscii = true
  tenantId : ∀ c ∈ a.tenantId, c.isAscii = true

theorem isAscii_of_isAsciiAlnum {c : CodePoint} (h : c.isAsciiAlnum = true) :
    c.isAscii = true := by
  simp only [CodePoint.isAsciiAlnum, CodePoint.isAsciiAlpha, CodePoint.isAsciiLower,
    CodePoint.isAsciiUpper, CodePoint.isAsciiDigit, Bool.or_eq_true, Bool.and_eq_true,
    decide_eq_true_eq] at h
  simp only [CodePoint.isAscii, decide_eq_true_eq]
  omega

theorem ascii_of_namePattern {s : Str} (h : namePattern s = true) :
    ∀ c ∈ s, c.isAscii = true := by
  cases s with
  | nil => cases h
  | cons c rest =>
      simp only [namePattern, Bool.and_eq_true, List.all_eq_true, Bool.or_eq_true, beq_iff_eq] at h
      refine List.forall_mem_cons.mpr ⟨isAscii_of_isAsciiAlnum h.1.1, fun d hd => ?_⟩
      rcases h.2 d hd with (((halnum | rfl) | rfl) | rfl) | rfl
      · exact isAscii_of_isAsciiAlnum halnum
      all_goals decide

theorem ascii_of_envPattern {s : Str} (h : envPattern s = true) :
    ∀ c ∈ s, c.isAscii = true := by
  have halnum {c : CodePoint} (hc : c.isAsciiUpper = true ∨ c.isAsciiDigit = true) :
      c.isAscii = true := by
    apply isAscii_of_isAsciiAlnum
    simp only [CodePoint.isAsciiAlnum, CodePoint.isAsciiAlpha, Bool.or_eq_true]
    tauto
  cases s with
  | nil => cases h
  | cons c rest =>
      simp only [envPattern, Bool.and_eq_true, List.all_eq_true, Bool.or_eq_true, beq_iff_eq] at h
      refine List.forall_mem_cons.mpr ⟨?_, fun d hd => ?_⟩
      · rcases h.1.1 with hupper | rfl
        · exact halnum (.inl hupper)
        · decide
      · rcases h.2 d hd with hd | rfl
        · exact halnum hd
        · decide

theorem plain_of_validate (h : validate M a = .ok ()) : Plain a := by
  unfold validate at h
  split_ifs at h with hnames henv
  simp only [Bool.or_eq_true, Bool.not_eq_true', not_or, Bool.not_eq_false] at hnames henv
  exact ⟨ascii_of_namePattern hnames.1.1, ascii_of_namePattern hnames.1.2,
    ascii_of_envPattern henv, ascii_of_namePattern hnames.2⟩

/-- The fields of the provider entry. -/
def entryFields (a : Arguments) : Entries Str Json :=
  [(lit "adapter", .str (lit "openai-responses")), (lit "baseUrl", .str a.endpoint),
    (lit "apiKey", .str (lit "env:" ++ a.credentialEnv)), (lit "defaultModel", .str a.model),
    (lit "allowPrivateNetwork", .bool true),
    (lit "headers", .obj [(lit "X-Media-Bridge-Tenant", .str a.tenantId)])]

theorem nodup_entryFields (a : Arguments) : (Entries.keys (entryFields a)).Nodup := by
  simp only [entryFields, Entries.keys, List.map_cons, List.map_nil]
  decide

theorem readable_entry (ha : Plain a) (h : rejoin a.endpoint = a.endpoint) :
    Readable (providerEntry a) := by
  have hheaders : Readable (.obj [(lit "X-Media-Bridge-Tenant", .str a.tenantId)]) := by
    refine .obj (List.nodup_singleton _) (fun e he => ?_) fun e he => ?_
    · rw [List.mem_singleton.mp he]
      exact rejoin_lit (by decide)
    · rw [List.mem_singleton.mp he]
      exact .str (rejoin_of_ascii ha.tenantId)
  have hkey : rejoin (lit "env:" ++ a.credentialEnv) = lit "env:" ++ a.credentialEnv := by
    refine rejoin_of_ascii fun c hc => ?_
    rcases List.mem_append.mp hc with hc | hc
    · exact List.all_eq_true.mp (by decide : ((lit "env:").all CodePoint.isAscii) = true) c hc
    · exact ha.credentialEnv c hc
  refine .obj (nodup_entryFields a) ?_ ?_
  · simp only [List.mem_cons, List.not_mem_nil, or_false, forall_eq_or_imp, forall_eq]
    decide
  · simp only [List.mem_cons, List.not_mem_nil, or_false, forall_eq_or_imp, forall_eq]
    exact ⟨.str (by decide), .str h, .str hkey, .str (rejoin_of_ascii ha.model), .bool true,
      hheaders⟩

theorem depth_entry (a : Arguments) : (providerEntry a).depth = 2 := rfl

end Arguments

section Configuration

variable {M : Manager} {a : Arguments} {config providers : Entries Str Json}

theorem get?_withProviders_of_ne {key : Str} (h : key ≠ lit "providers") :
    Entries.get? (withProviders config) key = Entries.get? config key := by
  rw [withProviders]
  split
  · rfl
  · exact Entries.get?_set_of_ne _ _ h

theorem readable_withProviders (h : Readable (.obj config)) :
    Readable (.obj (withProviders config)) := by
  rw [withProviders]
  split
  · exact h
  · exact readable_set (by decide) readable_empty h

theorem depthFields_withProviders {d : Nat} (hd : 1 ≤ d) (h : Json.depthFields config ≤ d) :
    Json.depthFields (withProviders config) ≤ d := by
  rw [withProviders]
  split
  · exact h
  · exact depthFields_set _ hd h

/-- A section of a dictionary is a value of it. -/
theorem mem_of_field {fields : Entries Str Json} {key : String} {section_ : Entries Str Json}
    (h : Json.field fields key = .obj section_) : (lit key, Json.obj section_) ∈ fields :=
  Entries.mem_of_get? (Json.get?_of_field h (by simp))

theorem readable_managedConfig (ha : Plain a) (hjoined : rejoin a.endpoint = a.endpoint)
    (hconfig : Readable (.obj config)) (hproviders : Readable (.obj providers)) :
    Readable (.obj (managedConfig config providers a)) := by
  have hname := rejoin_of_ascii ha.providerName
  exact readable_set (by decide) (readable_set hname (readable_entry ha hjoined) hproviders)
    (readable_set (by decide) (.str hname) hconfig)

theorem depth_managedConfig {d : Nat} (hd : 3 ≤ d) (hconfig : Json.depthFields config ≤ d)
    (hproviders : Json.depth (.obj providers) ≤ d) :
    Json.depth (.obj (managedConfig config providers a)) ≤ d + 1 := by
  rw [Json.depth] at hproviders ⊢
  have hentry : Json.depthFields (Entries.set providers a.providerName (providerEntry a)) ≤ d - 1 :=
    depthFields_set _ (by rw [depth_entry]; omega) (by omega)
  have hsection :
      Json.depth (.obj (Entries.set providers a.providerName (providerEntry a))) ≤ d := by
    rw [Json.depth]
    omega
  exact Nat.succ_le_succ (depthFields_set _ hsection (depthFields_set _ (Nat.zero_le d) hconfig))

/-- The written configuration is read as it was written. -/
theorem managedConfig_read (ha : Plain a) (hjoined : rejoin a.endpoint = a.endpoint)
    {content : Option Bytes} (hconfig : readConfig M content = .ok config)
    (hproviders : Json.field (withProviders config) "providers" = .obj providers) :
    Readable (.obj (managedConfig (withProviders config) providers a)) ∧
      ∃ data, canonical M (managedConfig (withProviders config) providers a) = some data ∧
        readConfig M (some data) =
          .ok (Json.sortedEntries (managedConfig (withProviders config) providers a)) := by
  obtain ⟨hreadable, hdepth⟩ := readable_of_readConfig hconfig
  have hall := readable_withProviders hreadable
  have hroom := M.depth
  obtain ⟨d, hd⟩ : ∃ d, M.interpreter.platform.jsonDepth = d + 1 :=
    ⟨M.interpreter.platform.jsonDepth - 1, by omega⟩
  rw [Json.depth, hd] at hdepth
  have hfields := depthFields_withProviders (by omega : 1 ≤ d) (Nat.le_of_succ_le_succ hdepth)
  have hmem := mem_of_field hproviders
  have hreadable_providers : Readable (.obj providers) := by
    cases hall with
    | obj _ _ hvalues => exact hvalues _ hmem
  have hmanaged := depth_managedConfig (a := a) (by omega : 3 ≤ d) hfields
    (Json.depthFields_le_iff.mp hfields _ hmem)
  have hwritten := readable_managedConfig ha hjoined hall hreadable_providers
  obtain ⟨data, hdata, hread⟩ := canonical_read (M := M) hwritten (by rw [hd]; exact hmanaged)
  refine ⟨hwritten, data, hdata, ?_⟩
  rw [readConfig, hread]

end Configuration

section Settings

/-- The configuration selects the provider of the arguments, with their settings. -/
structure Owns (a : Arguments) (fields : Entries Str Json) : Prop where
  selected : Entries.get? fields (lit "defaultProvider") = some (.str a.providerName)
  entry : (Entries.get? (Personal.configSection fields "providers") a.providerName).map
    Json.sorted = some (providerEntry a).sorted

/-- Two configurations have the same settings but for those of the provider. -/
structure SameOthers (a : Arguments) (old new : Entries Str Json) : Prop where
  settings : ∀ key, key ≠ lit "defaultProvider" → key ≠ lit "providers" →
    (Entries.get? new key).map Json.sorted = (Entries.get? old key).map Json.sorted
  providers : ∀ name, name ≠ a.providerName →
    (Entries.get? (Personal.configSection new "providers") name).map Json.sorted =
      (Entries.get? (Personal.configSection old "providers") name).map Json.sorted

/-- The file afterwards is the one that the arguments describe: it has their settings, and every
other setting as it was. -/
def Describes (M : Manager) (before after : Option Bytes) (a : Arguments) : Prop :=
  ∃ old new, readConfig M before = .ok old ∧ readConfig M after = .ok new ∧ Owns a new ∧
    SameOthers a old new

/-- The file has the settings of the arguments. -/
def Holds (M : Manager) (content : Option Bytes) (a : Arguments) : Prop :=
  ∃ fields, readConfig M content = .ok fields ∧ Owns a fields

variable {M : Manager} {a : Arguments} {config providers : Entries Str Json}

theorem sameOthers_refl (a : Arguments) (fields : Entries Str Json) : SameOthers a fields fields :=
  ⟨fun _ _ _ => rfl, fun _ _ => rfl⟩

/-- A file that did not change is the described one when it has the settings already. -/
theorem describes_self_iff {content : Option Bytes} :
    Describes M content content a ↔ Holds M content a := by
  constructor
  · rintro ⟨old, new, -, hnew, howns, -⟩
    exact ⟨new, hnew, howns⟩
  · rintro ⟨fields, hfields, howns⟩
    exact ⟨fields, fields, hfields, hfields, howns, sameOthers_refl a fields⟩

theorem nodup_of_readable {fields : Entries Str Json} (h : Readable (.obj fields)) :
    (Entries.keys fields).Nodup := by
  cases h with
  | obj hnodup _ _ => exact hnodup

theorem readable_of_get? {fields : Entries Str Json} {key : Str} {v : Json}
    (h : Readable (.obj fields)) (hget : Entries.get? fields key = some v) : Readable v := by
  cases h with
  | obj _ _ hvalues => exact hvalues _ (Entries.mem_of_get? hget)

/-- Settings that are in a file can be in a JSON text. -/
theorem joined_of_holds {content : Option Bytes} (h : Holds M content a) :
    rejoin a.endpoint = a.endpoint := by
  obtain ⟨fields, hread, howns⟩ := h
  have hreadable := (readable_of_readConfig hread).1
  obtain ⟨w, hw, hsorted⟩ := Option.map_eq_some_iff.mp howns.entry
  have hsection : Readable (.obj (Personal.configSection fields "providers")) := by
    rw [Personal.configSection]
    cases hfield : Json.field fields "providers" with
    | obj section_ => exact readable_of_get? hreadable (Json.get?_of_field hfield (by simp))
    | _ => exact readable_empty
  have hentry := (readable_of_get? hsection hw).sorted
  rw [hsorted, providerEntry, Json.sorted_obj] at hentry
  cases hentry with
  | obj _ _ hvalues =>
      have hurl := hvalues (lit "baseUrl", .str a.endpoint) (by
        rw [(orderedFields_perm true _).mem_iff, List.mem_map]
        exact ⟨(lit "baseUrl", .str a.endpoint), by simp, by simp⟩)
      cases hurl with
      | str hs => exact hs

theorem sorted_str_inj {v w : Json} {s t : Str} (h : v.sorted = w.sorted) (hv : v = .str s)
    (hw : w = .str t) : s = t := by
  rw [hv, hw, Json.sorted_str, Json.sorted_str, Json.str.injEq] at h
  exact h

/-- Two entries with the same settings are of the same arguments but for their names. -/
theorem providerEntry_inj {a b : Arguments}
    (h : (providerEntry a).sorted = (providerEntry b).sorted)
    (hname : a.providerName = b.providerName) : a = b := by
  have hentries : (Json.obj (entryFields a)).sorted = (Json.obj (entryFields b)).sorted := h
  have hfield := Json.field_of_sorted_eq hentries (nodup_entryFields a) (nodup_entryFields b)
  have hendpoint := sorted_str_inj (hfield "baseUrl") rfl rfl
  have hkey := List.append_cancel_left (sorted_str_inj (hfield "apiKey") rfl rfl)
  have hmodel := sorted_str_inj (hfield "defaultModel") rfl rfl
  have hheaders := Json.field_of_sorted_eq (hfield "headers") (List.nodup_singleton _)
    (List.nodup_singleton _) "X-Media-Bridge-Tenant"
  have htenant := sorted_str_inj hheaders rfl rfl
  cases a
  cases b
  exact Arguments.mk.injEq .. ▸ ⟨hname, hendpoint, hmodel, hkey, htenant⟩

/-- A configuration has the settings of one call only. -/
theorem owns_inj {a b : Arguments} {fields : Entries Str Json} (ha : Owns a fields)
    (hb : Owns b fields) : a = b := by
  have hname : a.providerName = b.providerName := by
    have hselected := ha.selected.symm.trans hb.selected
    rwa [Option.some.injEq, Json.str.injEq] at hselected
  have hentry := ha.entry.symm.trans (hname ▸ hb.entry)
  exact providerEntry_inj (Option.some.inj hentry) hname

theorem configSection_withProviders
    (h : Json.field (withProviders config) "providers" = .obj providers) :
    Personal.configSection config "providers" = providers := by
  rw [Personal.configSection]
  rw [withProviders] at h
  split at h
  · rw [h]
    rfl
  · rename_i hnone
    rw [Json.field, Entries.get?_set_self, Option.getD_some, Json.obj.injEq] at h
    rw [← h, Json.field]
    rw [Entries.has, Bool.not_eq_true, Option.isSome_eq_false_iff, Option.isNone_iff_eq_none]
      at hnone
    rw [hnone]
    rfl

/-- The written configuration has the settings of the arguments, and the others as they were. -/
theorem written_spec
    (hreadable : Readable (.obj (managedConfig (withProviders config) providers a)))
    (hproviders : Json.field (withProviders config) "providers" = .obj providers) :
    Owns a (Json.sortedEntries (managedConfig (withProviders config) providers a)) ∧
      SameOthers a config
        (Json.sortedEntries (managedConfig (withProviders config) providers a)) := by
  have hnodup := nodup_of_readable hreadable
  have hne : lit "providers" ≠ lit "defaultProvider" := by decide
  have hsection : Personal.configSection
      (Json.sortedEntries (managedConfig (withProviders config) providers a)) "providers" =
      Json.sortedEntries (Entries.set providers a.providerName (providerEntry a)) := by
    rw [Personal.configSection, Json.field_sortedEntries hnodup, managedConfig, Json.field,
      Entries.get?_set_self, Option.getD_some, Json.sorted_obj]
    rfl
  have hnodup_providers :
      (Entries.keys (Entries.set providers a.providerName (providerEntry a))).Nodup :=
    nodup_of_readable (readable_of_get? hreadable (Entries.get?_set_self _ _ _))
  refine ⟨⟨?_, ?_⟩, ⟨fun key hdefault hkey => ?_, fun name hname => ?_⟩⟩
  · rw [Json.get?_sortedEntries hnodup, managedConfig, Entries.get?_set_of_ne _ _ hne.symm,
      Entries.get?_set_self, Option.map_some, Json.sorted_str]
  · rw [hsection, Json.get?_sortedEntries hnodup_providers, Entries.get?_set_self, Option.map_some,
      Option.map_some, Json.sorted_sorted]
  · rw [Json.get?_sortedEntries hnodup, managedConfig, Entries.get?_set_of_ne _ _ hkey,
      Entries.get?_set_of_ne _ _ hdefault, get?_withProviders_of_ne hkey, Option.map_map]
    congr 1
    funext v
    exact Json.sorted_sorted v
  · rw [hsection, Json.get?_sortedEntries hnodup_providers, Entries.get?_set_of_ne _ _ hname,
      configSection_withProviders hproviders, Option.map_map]
    congr 1
    funext v
    exact Json.sorted_sorted v

end Settings

section Calls

variable {M : Manager} {a : Arguments} {files : Files} {plan : Plan}

theorem after_append (files : Files) (ops more : List FileOp) :
    files.after (ops ++ more) = (files.after ops).after more :=
  List.foldl_append

/-- A file is replaced by a write. -/
@[simp] theorem after_atomicWrite (files : Files) (target : Target) (content : Bytes) :
    files.after (atomicWrite target content) = files.put target (some content) := by
  cases target <;> rfl

@[simp] theorem after_nil (files : Files) : files.after [] = files := rfl

/-- What `apply` has read where it is not refused. -/
structure Accepted (M : Manager) (files : Files) (a : Arguments)
    (config providers : Entries Str Json) : Prop where
  valid : validate M a = .ok ()
  read : readConfig M files.config = .ok config
  found : Json.field (withProviders config) "providers" = .obj providers

theorem Accepted.plain {config providers : Entries Str Json}
    (h : Accepted M files a config providers) : Plain a :=
  plain_of_validate h.valid

/-- `apply` is not refused for a first write, or where the marker has the digest of the file. -/
theorem apply_cases (h : apply M files a = .ok plan) :
    ∃ config providers, Accepted M files a config providers ∧
      ((files.marker = none ∧ Entries.has providers a.providerName = false ∧
          firstApply M files (withProviders config) providers a = .ok plan) ∨
        (files.marker ≠ none ∧ reapply M files a = .ok plan)) := by
  unfold apply at h
  split at h
  · cases h
  rename_i hvalid
  split at h
  · cases h
  rename_i config hconfig
  split at h
  · rename_i providers hproviders
    refine ⟨config, providers, ⟨hvalid, hconfig, hproviders⟩, ?_⟩
    split_ifs at h with hunowned hmarker
    · refine .inl ⟨hmarker, ?_, h⟩
      rw [← Bool.not_eq_true]
      exact fun hhas => hunowned ⟨hhas, hmarker⟩
    · exact .inr ⟨hmarker, h⟩
  · cases h

/-- Where a marker exists, nothing is written. -/
theorem ops_of_reapply (h : reapply M files a = .ok plan) : plan.ops = [] := by
  unfold reapply at h
  split at h
  · cases h
  · split at h
    · cases h
    · split at h
      · cases h
        rfl
      · cases h

/-- What a first write writes. -/
structure Written (M : Manager) (files : Files) (config providers : Entries Str Json)
    (a : Arguments) (plan : Plan) (backup : Str) (managed marker : Bytes) : Prop where
  configWritten : canonical M (managedConfig config providers a) = some managed
  markerWritten : canonical M (markerFields M files.config managed backup a) = some marker
  ops : plan.ops = (files.config.map (atomicWrite (.beside backup))).getD [] ++
    atomicWrite .config managed ++ atomicWrite .marker marker
  report : plan.report = ⟨"applied", a.providerName, some (digestBytes M managed)⟩

theorem written_of_firstApply {config providers : Entries Str Json}
    (h : firstApply M files config providers a = .ok plan) :
    ∃ previous managed marker, canonical M config = some previous ∧
      Written M files config providers a plan (backupName M (digestBytes M previous)) managed
        marker := by
  unfold firstApply at h
  split at h
  · rename_i previous managed hprevious hmanaged
    simp only at h
    split at h
    · cases h
    · rename_i marker hmarker
      cases h
      exact ⟨previous, managed, marker, hprevious, hmanaged, hmarker, rfl, rfl⟩
  · cases h

/-- The files after a first write. -/
theorem Written.after {config providers : Entries Str Json} {backup : Str}
    {managed marker : Bytes} (h : Written M files config providers a plan backup managed marker) :
    files.after plan.ops =
      { config := some managed, marker := some marker, temporaries := files.temporaries,
        beside := if files.config = none then files.beside
          else Function.update files.beside backup files.config } := by
  rw [h.ops, after_append, after_append, after_atomicWrite, after_atomicWrite]
  cases hconfig : files.config with
  | none => rfl
  | some original =>
      rw [Option.map_some, Option.getD_some, after_atomicWrite]
      simp [Files.put]

/-- A first write leaves the described configuration. -/
theorem Written.describes {config providers : Entries Str Json} {backup : Str}
    {managed marker : Bytes} (haccepted : Accepted M files a config providers)
    (h : Written M files (withProviders config) providers a plan backup managed marker)
    (hjoined : rejoin a.endpoint = a.endpoint) :
    Describes M files.config (files.after plan.ops).config a := by
  obtain ⟨hreadable, data, hdata, hread⟩ :=
    managedConfig_read haccepted.plain hjoined haccepted.read haccepted.found
  have hsame : data = managed := Option.some.inj (hdata.symm.trans h.configWritten)
  obtain ⟨howns, hothers⟩ := written_spec hreadable haccepted.found
  rw [hsame] at hread
  rw [h.after]
  exact ⟨config, _, haccepted.read, hread, howns, hothers⟩

theorem perform_eq_ok_iff {call : Except ManagerError Plan} {report : Report} {files' : Files} :
    perform files call = (.ok report, files') ↔
      ∃ plan, call = .ok plan ∧ report = plan.report ∧ files' = files.after plan.ops := by
  cases call with
  | error e => simp [perform]
  | ok plan =>
      rw [perform, Prod.mk.injEq, Except.ok.injEq]
      constructor
      · rintro ⟨rfl, rfl⟩
        exact ⟨plan, rfl, rfl, rfl⟩
      · rintro ⟨plan', hplan, rfl, rfl⟩
        cases hplan
        exact ⟨rfl, rfl⟩

variable {report : Report} {files' : Files}

/-- Without a marker, a call that returns leaves the described configuration. -/
theorem describes_of_unmarked (h : perform files (apply M files a) = (.ok report, files'))
    (hmarker : files.marker = none) (hjoined : rejoin a.endpoint = a.endpoint) :
    Describes M files.config files'.config a := by
  obtain ⟨plan, hplan, -, rfl⟩ := perform_eq_ok_iff.mp h
  obtain ⟨config, providers, haccepted, ⟨-, -, hfirst⟩ | ⟨hmarked, -⟩⟩ := apply_cases hplan
  · obtain ⟨previous, managed, marker, -, hwritten⟩ := written_of_firstApply hfirst
    exact hwritten.describes haccepted hjoined
  · exact absurd hmarker hmarked

/-- With a marker, a call that returns changes nothing. -/
theorem unchanged_of_marked (h : perform files (apply M files a) = (.ok report, files'))
    (hmarker : files.marker ≠ none) : files' = files := by
  obtain ⟨plan, hplan, -, rfl⟩ := perform_eq_ok_iff.mp h
  obtain ⟨config, providers, -, ⟨hunmarked, -, -⟩ | ⟨-, hre⟩⟩ := apply_cases hplan
  · exact absurd hunmarked hmarker
  · rw [ops_of_reapply hre, after_nil]

theorem holds_of_describes {before after : Option Bytes} (h : Describes M before after a) :
    Holds M after a := by
  obtain ⟨-, new, -, hnew, howns, -⟩ := h
  exact ⟨new, hnew, howns⟩

/-- The call leaves the described configuration exactly when there was no marker and the endpoint
is a text that JSON can hold, or the file had the settings of the arguments already. -/
theorem apply_describes_iff (h : perform files (apply M files a) = (.ok report, files')) :
    Describes M files.config files'.config a ↔
      (files.marker = none ∧ rejoin a.endpoint = a.endpoint) ∨ Holds M files.config a := by
  by_cases hmarker : files.marker = none
  · constructor
    · exact fun hdescribes => .inl ⟨hmarker, joined_of_holds (holds_of_describes hdescribes)⟩
    · rintro (⟨-, hjoined⟩ | hholds)
      · exact describes_of_unmarked h hmarker hjoined
      · exact describes_of_unmarked h hmarker (joined_of_holds hholds)
  · rw [unchanged_of_marked h hmarker, describes_self_iff]
    exact (or_iff_right fun hnone => hmarker hnone.1).symm

/-- Where the file has the settings of one call and is marked, the call with other arguments leaves
a configuration that they do not describe. -/
theorem marked_describes_iff {first : Arguments} (hfirst : Holds M files.config first)
    (hmarker : files.marker ≠ none) (h : perform files (apply M files a) = (.ok report, files')) :
    Describes M files.config files'.config a ↔ a = first := by
  rw [unchanged_of_marked h hmarker, describes_self_iff]
  constructor
  · rintro ⟨fields, hfields, ha⟩
    obtain ⟨fields', hfields', hb⟩ := hfirst
    rw [hfields, Except.ok.injEq] at hfields'
    exact owns_inj ha (hfields' ▸ hb)
  · rintro rfl
    exact hfirst

end Calls

section Samples

/-- A manager for concrete runs. -/
def Manager.sample : Manager where
  interpreter := ⟨{ Platform.sample with float := .numbered }, .ascii id, Str.asciiLower⟩
  faithful := FloatText.numbered_faithful
  depth := by decide
  markerName := lit "m"
  markerName_joined := rfl
  markerName_plain := by decide

def sampleArguments (model : String) : Arguments :=
  ⟨lit "solar", lit "http://localhost/v1", lit model, lit "KEY", lit "local"⟩

def noFiles : Files := ⟨none, none, fun _ => none, []⟩

/-- A call on given files with the arguments of a model. -/
def sampleCall (files : Files) (model : String) : Except ManagerError Report × Files :=
  perform files (apply .sample files (sampleArguments model))

theorem eq_of_isOk {r : Except ManagerError Report × Files} (h : r.1.isOk = true) :
    ∃ report, r = (.ok report, r.2) := by
  obtain ⟨report, hreport⟩ := exists_of_isOk h
  exact ⟨report, Prod.ext hreport rfl⟩

theorem first_call_describes :
    ∃ report files', sampleCall noFiles "first" = (.ok report, files') ∧
      (Describes .sample noFiles.config files'.config (sampleArguments "first") ↔
        (noFiles.marker = none ∧ rejoin (lit "http://localhost/v1") = lit "http://localhost/v1") ∨
          Holds .sample noFiles.config (sampleArguments "first")) := by
  have hok : (sampleCall noFiles "first").1.isOk = true := by decide +kernel
  obtain ⟨report, hcall⟩ := eq_of_isOk hok
  exact ⟨report, _, hcall, apply_describes_iff hcall⟩

/-- A call with another model than the first one reports success, and leaves the first one. -/
theorem unchanged_with_other_settings :
    ∃ report files' report', sampleCall noFiles "first" = (.ok report, files') ∧
      sampleCall files' "second" = (.ok report', files') ∧
      ¬ Describes .sample files'.config files'.config (sampleArguments "second") := by
  have hfirst : (sampleCall noFiles "first").1.isOk = true := by decide +kernel
  have hsecond : (sampleCall (sampleCall noFiles "first").2 "second").1.isOk = true := by
    decide +kernel
  have hmarker : (sampleCall noFiles "first").2.marker ≠ none := by decide +kernel
  obtain ⟨report, hcall⟩ := eq_of_isOk hfirst
  obtain ⟨report', hcall'⟩ := eq_of_isOk hsecond
  have hsame := unchanged_of_marked hcall' hmarker
  rw [hsame] at hcall'
  have hholds := holds_of_describes (describes_of_unmarked hcall rfl rfl)
  refine ⟨report, _, report', hcall, hcall', fun hdescribes => ?_⟩
  have heq := (marked_describes_iff hholds hmarker hcall').mp hdescribes
  have hmodel : lit "second" ≠ lit "first" := by decide
  exact hmodel (congrArg Arguments.model heq)

end Samples

end MediaBridge.Adapters.OpenCodex
