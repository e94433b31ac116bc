import MediaBridge.Control.ConfigurationOperations

/-!
# Stored configuration rows

What holds of the rows of providers, routing profiles and models in every state of every run: the
columns are those that their own values lead to again, and no two rows of a table clash.

## Implementation notes

A row is compared with the request that has its own values, which is what an update starts from.
-/

namespace MediaBridge.Control

open Foundation MediaBridge.Core Gateway ConfigurationTables

/-- A provider as a request with its own values. -/
def Provider.fields (row : Provider) : ProviderFields := ({} : ProviderChanges).candidate row

/-- A model as a request with its own values. -/
def ModelCapability.fields (row : ModelCapability) : ModelFields :=
  ({} : ModelChanges).candidate row

section Aliases

/-- `[a-z0-9-]`. -/
def slugChar (c : CodePoint) : Bool := registryHeadChar c || c == cp 45

/-- `^[a-z0-9][a-z0-9-]*$`, what an alias is. -/
def slugPattern : Str → Bool
  | [] => false
  | c :: rest => registryHeadChar c && rest.all slugChar

theorem slugPattern_of_aliasPattern {text : Str} (h : providerAliasPattern text = true) :
    slugPattern text = true := by
  cases text with
  | nil => cases h
  | cons c rest =>
      simp only [providerAliasPattern, Bool.and_eq_true] at h
      obtain ⟨⟨hlower, -⟩, hrest⟩ := h
      simp only [slugPattern, Bool.and_eq_true]
      refine ⟨?_, hrest⟩
      unfold registryHeadChar
      rw [hlower, Bool.true_or]

theorem slugChar_of_mem_dashRuns {inRun : Bool} {s : Str} {c : CodePoint}
    (h : c ∈ dashRuns inRun s) : slugChar c = true := by
  induction s generalizing inRun with
  | nil => cases h
  | cons d rest ih =>
      unfold dashRuns at h
      split at h
      · next hhead =>
          rcases List.mem_cons.mp h with rfl | hrest
          · unfold slugChar
            rw [hhead, Bool.true_or]
          · exact ih hrest
      · split at h
        · exact ih h
        · rcases List.mem_cons.mp h with rfl | hrest
          · decide
          · exact ih hrest

/-- What is left after the dashes at both ends starts with no dash. -/
theorem head_stripDashes {s : Str} {c : CodePoint} {rest : Str} (h : stripDashes s = c :: rest) :
    c ≠ cp 45 ∧ ∀ d ∈ c :: rest, d ∈ s := by
  have hprefix : c :: rest <+: s.dropWhile fun d => d = cp 45 := by
    rw [← h]
    exact List.rdropWhile_prefix _ _
  obtain ⟨tail, htail⟩ := hprefix
  rw [List.cons_append] at htail
  constructor
  · have hhead := List.head?_dropWhile_not (fun d => decide (d = cp 45)) s
    rw [← htail] at hhead
    simpa using hhead
  · intro d hd
    apply (List.dropWhile_sublist fun d => decide (d = cp 45)).subset
    rw [← htail, ← List.cons_append]
    exact List.mem_append_left _ hd

/-- The alias that is made from a name is a slug. -/
theorem slugPattern_providerAlias (U : UnicodeData) (value : Str) :
    slugPattern (providerAlias U value) = true := by
  unfold providerAlias
  cases hslug : stripDashes (dashRuns false (U.lower value)) with
  | nil => decide
  | cons c rest =>
      obtain ⟨hne, hmem⟩ := head_stripDashes hslug
      have hchars : ∀ d ∈ c :: rest, slugChar d = true :=
        fun d hd => slugChar_of_mem_dashRuns (hmem d hd)
      change (registryHeadChar c && (rest.take 63).all fun d => slugChar d) = true
      rw [Bool.and_eq_true, List.all_eq_true]
      constructor
      · have hhead := hchars c List.mem_cons_self
        simpa [slugChar, hne] using hhead
      · exact fun d hd => hchars d (List.mem_cons_of_mem _ (List.mem_of_mem_take hd))

end Aliases

section Providers

variable {C : ConfigurationContext} {request : ProviderFields} {columns : ProviderColumns}

theorem mem_sortedCapabilities {capabilities : List ProviderCapability} {c : ProviderCapability} :
    c ∈ sortedCapabilities capabilities ↔ c ∈ capabilities := by
  unfold sortedCapabilities
  rw [List.mem_filter, decide_eq_true_iff]
  constructor
  · exact And.right
  · intro h
    refine ⟨?_, h⟩
    cases c <;> decide

theorem sortedCapabilities_sorted (capabilities : List ProviderCapability) :
    sortedCapabilities (sortedCapabilities capabilities) = sortedCapabilities capabilities := by
  apply List.filter_congr
  intro c _
  rw [decide_eq_decide]
  exact mem_sortedCapabilities

theorem isEmpty_sortedCapabilities (capabilities : List ProviderCapability) :
    (sortedCapabilities capabilities).isEmpty = capabilities.isEmpty := by
  rw [Bool.eq_iff_iff, List.isEmpty_iff, List.isEmpty_iff, List.eq_nil_iff_forall_not_mem,
    List.eq_nil_iff_forall_not_mem]
  exact forall_congr' fun c => not_congr mem_sortedCapabilities

theorem getD_storedEffort (effort : ReasoningEffort) :
    (storedEffort effort).getD .providerDefault = effort := by
  unfold storedEffort
  split
  · next h => exact h.symm
  · rfl

/-- Every entry of the catalog has capabilities, and a protocol that a request may have. -/
theorem entry?_sound {catalogId : Str} {entry : ProviderCatalogEntry}
    (h : ProviderCatalog.entry? catalogId = some entry) :
    entry.capabilities ≠ [] ∧ Constrained.Valid 64 catalogPattern entry.protocol := by
  have hall : ∀ entry ∈ ProviderCatalog.catalog,
      entry.capabilities ≠ [] ∧ Constrained.Valid 64 catalogPattern entry.protocol := by
    decide +kernel
  exact hall entry (List.mem_of_find?_eq_some h)

/-- The defaults of a catalog entry are those of a request that has them already. -/
theorem catalogDefaults_again {protocol model : Option Str}
    {capabilities : List ProviderCapability}
    (h : catalogDefaults request = .ok (protocol, capabilities, model)) :
    catalogDefaults { request with
        protocol := protocol, capabilities := sortedCapabilities capabilities } =
      .ok (protocol, sortedCapabilities capabilities, model) := by
  unfold catalogDefaults at h ⊢
  cases hcatalog : request.catalogId with
  | none =>
      simp only [hcatalog] at h ⊢
      cases h
      rfl
  | some catalogId =>
      simp only [hcatalog] at h ⊢
      cases hentry : ProviderCatalog.entry? catalogId with
      | none =>
          rw [hentry] at h
          cases h
      | some entry =>
          simp only [hentry] at h ⊢
          by_cases hkind : entryAccepts entry request.kind = true
          · rw [if_neg (not_not.mpr hkind)] at h ⊢
            cases h
            have hnot : (if request.capabilities.isEmpty then entry.capabilities
                else request.capabilities).isEmpty = false := by
              split
              · simpa using (entry?_sound hentry).1
              · next hne => simpa using hne
            rw [isEmpty_sortedCapabilities, hnot]
            cases request.protocol <;> rfl
          · rw [if_pos hkind] at h
            cases h

/-- The columns of a request are those of the request that has them. -/
theorem providerValues_again (h : providerValues C request = .ok columns) {row : Provider}
    (hrow : row.toProviderColumns = columns) : providerValues C row.fields = .ok columns := by
  unfold providerValues at h
  split at h
  · cases h
  · next protocol capabilities model hdefaults =>
      split at h
      · cases h
      · next heffort =>
          cases h
          obtain ⟨⟨_, _, _, _, _, _, _, _, _, _, _⟩, id, key⟩ := row
          cases hrow
          have hagain := catalogDefaults_again hdefaults
          unfold catalogDefaults at hagain
          unfold providerValues catalogDefaults Provider.fields ProviderChanges.candidate
          simp only [Option.getD_none, Option.none_or, getD_storedEffort] at hagain ⊢
          rw [hagain]
          simp only [heffort, if_false, sortedCapabilities_sorted, Option.getD_some,
            Option.isSome_none, Bool.false_eq_true]

/-- The protocol of a provider is its own or the one of its catalog entry. -/
theorem catalogDefaults_protocol {protocol model : Option Str}
    {capabilities : List ProviderCapability} (hvalid : request.Valid)
    (h : catalogDefaults request = .ok (protocol, capabilities, model)) :
    ∀ text ∈ protocol, Constrained.Valid 64 catalogPattern text := by
  simp only [catalogDefaults] at h
  split at h
  · cases h
    exact hvalid.protocol
  · split at h
    · cases h
    · next entry hentry =>
        split at h
        · cases h
        · cases h
          intro text htext
          rcases Option.or_eq_some_iff.mp htext with hown | ⟨-, hdefault⟩
          · exact hvalid.protocol text hown
          · cases hdefault
            exact (entry?_sound hentry).2

/-- What holds of a stored provider. -/
structure Provider.Stored (C : ConfigurationContext) (row : Provider) : Prop where
  valid : ({ row.fields with aliasName := none } : ProviderFields).Valid
  slug : ∃ text, row.aliasName = some text ∧ slugPattern text = true
  values : providerValues C row.fields = .ok row.toProviderColumns
  storable : Storable row.endpoint

theorem provider_stored (hvalid : request.Valid) {row : Provider}
    (h : providerValues C request = .ok row.toProviderColumns) (hstore : Storable row.endpoint) :
    row.Stored C := by
  have hvalues := providerValues_again h rfl
  unfold providerValues at h
  split at h
  · cases h
  · next protocol capabilities model hdefaults =>
      split at h
      · cases h
      · obtain ⟨⟨_, _, _, _, _, _, _, _, _, _, _⟩, id, key⟩ := row
        cases h
        refine ⟨⟨hvalid.name, ?_, hvalid.catalogId, hvalid.modelId, hvalid.endpoint,
          catalogDefaults_protocol hvalid hdefaults, ?_, ?_⟩, ⟨_, rfl, ?_⟩, hvalues, hstore⟩
        · exact fun _ hnone => by cases hnone
        · change (if request.apiKey.isSome = true then databaseReference
            else request.secretRef).Valid
          split
          · decide +kernel
          · exact hvalid.secretRef
        · exact fun _ hnone => by cases hnone
        · cases halias : request.aliasName with
          | none => exact slugPattern_providerAlias _ _
          | some text => exact slugPattern_of_aliasPattern (hvalid.aliasName text halias).2.2

/-- The row that an update writes has the columns of a valid request. -/
theorem updatedProvider_ok {row row' : Provider} {changes : ProviderChanges} {draw : Bytes}
    (h : updatedProvider C row changes draw = .ok row') :
    (changes.candidate row).Valid ∧
      providerValues C (changes.candidate row) = .ok row'.toProviderColumns ∧ row'.id = row.id ∧
      row'.encryptedApiKey =
        (changes.apiKey.map (C.encryptSecret draw)).or row.encryptedApiKey := by
  unfold updatedProvider at h
  split at h
  · cases h
  · next hvalid =>
      split at h
      · cases h
      · next hvalues =>
          cases h
          exact ⟨not_not.mp hvalid, hvalues, rfl, rfl⟩

end Providers

section Models

theorem mem_sortedModalities {modalities : List InputModality} {m : InputModality} :
    m ∈ sortedModalities modalities ↔ m ∈ modalities := by
  unfold sortedModalities
  rw [List.mem_filter, decide_eq_true_iff]
  constructor
  · exact And.right
  · intro h
    refine ⟨?_, h⟩
    cases m <;> decide

theorem sortedModalities_sorted (modalities : List InputModality) :
    sortedModalities (sortedModalities modalities) = sortedModalities modalities := by
  apply List.filter_congr
  intro m _
  rw [decide_eq_decide]
  exact mem_sortedModalities

theorem sortedTexts_sorted (texts : List Str) : sortedTexts (sortedTexts texts) = sortedTexts texts :=
  (List.pairwise_insertionSort (fun a b : Str => a ≤ b) texts).insertionSort_eq

theorem mem_sortedTexts {texts : List Str} {text : Str} : text ∈ sortedTexts texts ↔ text ∈ texts :=
  (List.perm_insertionSort _ _).mem_iff

theorem getD_storedModelEffort (effort : ModelEffort) :
    (storedModelEffort effort).getD .providerDefault = effort := by
  unfold storedModelEffort
  split
  · next h => exact h.symm
  · rfl

/-- What holds of a stored model. -/
structure ModelCapability.Stored (row : ModelCapability) : Prop where
  valid : row.fields.Valid
  provider : row.providerId.isSome = true
  rewritten : updatedModel row row.fields = { row with expiresAt := none }
  storable : row.Storable

/-- A row has the columns of a request, but for its identifiers and its expiry. -/
structure ModelCapability.Holds (row : ModelCapability) (request : ModelFields) : Prop where
  aliases : row.aliases = sortedTexts request.aliases
  inputModalities : row.inputModalities = sortedModalities request.inputModalities
  evidence : row.evidence = request.evidence
  reviewedAt : row.reviewedAt = request.reviewedAt.instant
  pdf : row.pdfPassthroughVerified = request.pdfPassthroughVerified
  reasoningEffort : row.reasoningEffort = storedModelEffort request.reasoningEffort

theorem model_stored {row : ModelCapability} {request : ModelFields} (hvalid : request.Valid)
    (hholds : row.Holds request) (hid : Constrained.Valid 128 registryIdPattern row.modelId)
    (hexpires : ∀ i ∈ row.expiresAt, ∃ d ∈ request.expiresAt, Datetime.instant d = i)
    (hprovider : row.providerId.isSome = true) (hstore : row.Storable) : row.Stored := by
  refine ⟨⟨hid, ?_, ?_, ?_, rfl, ?_, ?_⟩, hprovider, ?_, hstore⟩
  · change ValidAliases row.aliases
    rw [hholds.aliases]
    refine ⟨(List.perm_insertionSort _ _).length_eq.trans_le hvalid.aliases.1, ?_⟩
    exact fun text htext => hvalid.aliases.2 text (mem_sortedTexts.mp htext)
  · change row.inputModalities ≠ []
    rw [hholds.inputModalities]
    obtain ⟨m, hm⟩ := List.exists_mem_of_ne_nil _ hvalid.modalities
    exact List.ne_nil_of_mem (mem_sortedModalities.mpr hm)
  · change ∀ text ∈ row.evidence, ValidEvidence text
    rw [hholds.evidence]
    exact hvalid.evidence
  · intro d hd
    obtain ⟨i, hi, rfl⟩ := Option.map_eq_some_iff.mp hd
    obtain ⟨expiry, hexpiry, rfl⟩ := hexpires i hi
    refine ⟨rfl, ?_⟩
    change row.reviewedAt < expiry.instant
    rw [hholds.reviewedAt]
    exact (hvalid.expires expiry hexpiry).2
  · change row.pdfPassthroughVerified = true → .pdf ∈ row.inputModalities
    rw [hholds.pdf, hholds.inputModalities]
    exact fun h => mem_sortedModalities.mpr (hvalid.pdf h)
  · obtain ⟨id, provider, profile, modelId, aliases, modalities, evidence, reviewed, expires, pdf,
      effort⟩ := row
    obtain ⟨rfl, rfl, rfl, rfl, rfl, rfl⟩ := hholds
    unfold updatedModel ModelCapability.fields ModelChanges.candidate storedDatetime
    simp only [Option.getD_none, Option.none_or, Option.or_self, getD_storedModelEffort,
      sortedTexts_sorted, sortedModalities_sorted]

theorem registryChar_of_slugChar {c : CodePoint} (h : slugChar c = true) :
    registryChar c = true := by
  unfold slugChar at h
  unfold registryChar
  rcases Bool.or_eq_true_iff.mp h with hhead | hdash
  · simp only [hhead, Bool.true_or]
  · rw [hdash, Bool.or_true]

theorem isAscii_of_registryChar {c : CodePoint} (h : registryChar c = true) :
    c.isAscii = true := by
  simp only [registryChar, registryHeadChar, CodePoint.isAsciiLower, CodePoint.isAsciiDigit,
    Bool.or_eq_true, Bool.and_eq_true, decide_eq_true_eq, beq_iff_eq] at h
  simp only [CodePoint.isAscii, decide_eq_true_eq]
  rcases h with ((((⟨h | h⟩ | rfl) | rfl) | rfl) | rfl) | rfl
  all_goals first | omega | decide

/-- A public identifier that fits the column is one that a request may have. -/
theorem publicModelId_valid {C : ConfigurationContext} {provider : Provider} {modelId : Str}
    (hprovider : provider.Stored C) (hid : Constrained.Valid 128 registryIdPattern modelId)
    (hlength : (publicModelId C provider modelId).length ≤ 128) :
    Constrained.Valid 128 registryIdPattern (publicModelId C provider modelId) := by
  unfold publicModelId at hlength ⊢
  split
  · exact hid
  · next hslash =>
      rw [if_neg hslash] at hlength
      obtain ⟨text, htext, hslug⟩ := hprovider.slug
      rw [htext, Option.getD_some] at hlength ⊢
      have hchars : ∀ c ∈ text ++ cp 47 :: modelId, registryChar c = true := by
        intro c hc
        rcases List.mem_append.mp hc with hleft | hright
        · apply registryChar_of_slugChar
          cases text with
          | nil => cases hleft
          | cons d rest =>
              obtain ⟨hhead, hrest⟩ := Bool.and_eq_true_iff.mp hslug
              rcases List.mem_cons.mp hleft with rfl | hmem
              · unfold slugChar
                rw [hhead, Bool.true_or]
              · exact List.all_eq_true.mp hrest c hmem
        · rcases List.mem_cons.mp hright with rfl | hmem
          · decide
          · cases modelId with
            | nil => cases hmem
            | cons d rest =>
                have haccepted := hid.2.2
                simp only [registryIdPattern, Bool.and_eq_true] at haccepted
                rcases List.mem_cons.mp hmem with rfl | hrest
                · unfold registryChar
                  simp only [haccepted.1.1, Bool.true_or]
                · exact List.all_eq_true.mp haccepted.2 c hrest
      refine ⟨Str.encodable_of_ascii fun c hc => isAscii_of_registryChar (hchars c hc),
        hlength, ?_⟩
      cases text with
      | nil => cases hslug
      | cons d rest =>
          obtain ⟨hhead, -⟩ := Bool.and_eq_true_iff.mp hslug
          rw [List.cons_append] at hlength hchars ⊢
          simp only [registryIdPattern, Bool.and_eq_true, decide_eq_true_eq]
          refine ⟨⟨hhead, ?_⟩, ?_⟩
          · rw [List.length_cons] at hlength
            exact Nat.le_of_succ_le_succ hlength
          · rw [List.all_eq_true]
            exact fun c hc => hchars c (List.mem_cons_of_mem _ hc)

end Models

section Tables

variable {C : ConfigurationContext} {T T' : ConfigurationTables}

theorem Provider.Apart.symm {row other : Provider} (h : row.Apart other) : other.Apart row := by
  refine ⟨h.id.symm, h.name.symm, ?_⟩
  rcases h.aliasName with hnone | hne
  · cases hother : other.aliasName with
    | none => exact .inl rfl
    | some text =>
        rw [hnone]
        exact .inr (Option.some_ne_none text)
  · exact .inr hne.symm

theorem RoutingProfile.Apart.symm {row other : RoutingProfile} (h : row.Apart other) :
    other.Apart row := ⟨h.id.symm, h.name.symm⟩

theorem ModelCapability.Apart.symm {row other : ModelCapability} (h : row.Apart other) :
    other.Apart row := ⟨h.id.symm, h.modelId.symm⟩

/-- What holds of the tables: of every row, of every two rows, and of the foreign keys. -/
structure StoredTables (C : ConfigurationContext) (T : ConfigurationTables) : Prop where
  providers : ∀ row ∈ T.providers, row.Stored C
  profiles : ∀ row ∈ T.routingProfiles, row.toProfileFields.Valid ∧ Storable row.name
  models : ∀ row ∈ T.models, row.Stored
  providersApart : T.providers.Pairwise Provider.Apart
  profilesApart : T.routingProfiles.Pairwise RoutingProfile.Apart
  modelsApart : T.models.Pairwise ModelCapability.Apart
  keys : ∀ row ∈ T.models, T.keysHold row = true

theorem pairwise_append_singleton {α : Type*} {R : α → α → Prop} {rows : List α} {row : α}
    (h : rows.Pairwise R) (hrow : ∀ other ∈ rows, R other row) : (rows ++ [row]).Pairwise R := by
  apply List.pairwise_append.mpr
  refine ⟨h, List.pairwise_singleton R row, ?_⟩
  intro other hother x hx
  rw [List.mem_singleton.mp hx]
  exact hrow other hother

/-- The foreign keys of a model hold as long as its rows are found. -/
theorem keysHold_of_found {row : ModelCapability} (h : T.keysHold row = true)
    (hprovider : ∀ id, row.providerId = some id → (T.provider? id).isSome = true →
      (T'.provider? id).isSome = true)
    (hprofile : ∀ id, row.routingProfileId = some id → (T.profile? id).isSome = true →
      (T'.profile? id).isSome = true) : T'.keysHold row = true := by
  obtain ⟨hold, hold'⟩ := Bool.and_eq_true_iff.mp h
  apply Bool.and_eq_true_iff.mpr
  constructor
  · cases hid : row.providerId with
    | none => rfl
    | some id =>
        rw [hid] at hold
        exact hprovider id hid hold
  · cases hid : row.routingProfileId with
    | none => rfl
    | some id =>
        rw [hid] at hold'
        exact hprofile id hid hold'

theorem isSome_lookup_append {ρ κ : Type*} [DecidableEq κ] {key : ρ → κ} {rows : List ρ} {k : κ}
    (h : (Rows.lookup key rows k).isSome = true) (more : List ρ) :
    (Rows.lookup key (rows ++ more) k).isSome = true := by
  obtain ⟨row, hrow⟩ := Option.isSome_iff_exists.mp h
  rw [Rows.lookup_append hrow]
  rfl

theorem isSome_lookup_put {ρ κ : Type*} [DecidableEq κ] {key : ρ → κ} {rows : List ρ} {k : κ}
    (row : ρ) : (Rows.lookup key (Rows.put key rows row) k).isSome =
      (Rows.lookup key rows k).isSome := by
  rw [Rows.lookup_put, Option.isSome_map]

/-- A stored row of the models is one that `update_model` may have written. -/
theorem holds_updatedModel (row : ModelCapability) (request : ModelFields) :
    (updatedModel row request).Holds request := ⟨rfl, rfl, rfl, rfl, rfl, rfl⟩

theorem holds_createdModel (id : Uuid) (provider : Provider) (request : ModelFields) :
    (createdModel C id provider request).Holds request := ⟨rfl, rfl, rfl, rfl, rfl, rfl⟩

/-- The provider of a new model is a stored llm provider. -/
theorem modelProvider_ok {request : ModelFields} {provider : Provider}
    (h : T.modelProvider request = .ok provider) :
    T.provider? provider.id = some provider ∧ provider.kind = .llm ∧
      ∀ id, request.routingProfileId = some id → ∃ profile, T.profile? id = some profile ∧
        provider.id ∈ profile.llmProviderIds := by
  simp only [modelProvider] at h
  split at h
  · cases h
  · next hfound =>
      split at h
      · cases h
      · next hkind =>
          have hself : ∀ {id : Uuid} {row : Provider}, T.provider? id = some row →
              T.provider? row.id = some row := by
            intro id row hrow
            rw [(Rows.mem_of_lookup hrow).2]
            exact hrow
          have hllm : ∀ row, request.providerId.bind T.provider? = some row → row.kind = .llm := by
            intro row hrow
            simpa [hrow] using hkind
          split at h
          · cases h
          · next row hnone hrow =>
              cases h
              obtain ⟨id, -, hid⟩ := Option.bind_eq_some_iff.mp hrow
              refine ⟨hself hid, hllm _ hrow, ?_⟩
              intro id hid
              rw [hid] at hfound
              rw [hid, Option.bind_some] at hnone
              rw [Option.bind_some, hnone] at hfound
              exact absurd ⟨rfl, rfl⟩ hfound
          · next profile row hprofile hrow =>
              split at h
              · next hlisted =>
                  cases h
                  obtain ⟨id, -, hid⟩ := Option.bind_eq_some_iff.mp hrow
                  refine ⟨hself hid, hllm _ hrow, ?_⟩
                  intro id hid
                  rw [hid, Option.bind_some] at hprofile
                  exact ⟨profile, hprofile, hlisted⟩
              · cases h
          · next profile hprofile hnone =>
              split at h
              · cases h
              · next row hrow =>
                  split at h
                  · next hllm =>
                      cases h
                      obtain ⟨first, hfirst, hid⟩ := Option.bind_eq_some_iff.mp hrow
                      refine ⟨hself hid, hllm, ?_⟩
                      intro id hid'
                      rw [hid', Option.bind_some] at hprofile
                      refine ⟨profile, hprofile, ?_⟩
                      rw [(Rows.mem_of_lookup hid).2]
                      exact List.mem_of_mem_head? hfirst
                  · cases h

theorem StoredTables.step (h : StoredTables C T) {operation : ConfigurationOperation}
    (heffect : Effect C T operation T') : StoredTables C T' := by
  cases heffect with
  | @createProvider id request draw row hvalues hid hstore hapart =>
      refine ⟨?_, h.profiles, h.models, pairwise_append_singleton h.providersApart hapart,
        h.profilesApart, h.modelsApart, ?_⟩
      · intro other hother
        rcases List.mem_append.mp hother with hold | hnew
        · exact h.providers other hold
        · rw [List.mem_singleton.mp hnew]
          exact provider_stored request.2 hvalues hstore
      · intro model hmodel
        exact keysHold_of_found (h.keys model hmodel)
          (fun _ _ hfound => isSome_lookup_append hfound _) fun _ _ hfound => hfound
  | @updateProvider id request draw row row' hrow hupdated hstore hapart =>
      obtain ⟨hvalid, hvalues, hid, -⟩ := updatedProvider_ok hupdated
      have hkey : row'.id = id := hid.trans (Rows.mem_of_lookup hrow).2
      refine ⟨?_, h.profiles, h.models, ?_, h.profilesApart, h.modelsApart, ?_⟩
      · intro other hother
        rcases Rows.mem_put hother with rfl | ⟨hold, -⟩
        · exact provider_stored hvalid hvalues hstore
        · exact h.providers other hold
      · refine Rows.pairwise_put (fun _ _ happ => happ.symm) (fun _ _ happ => happ.id)
          h.providersApart ?_
        rw [hkey]
        exact hapart
      · intro model hmodel
        exact keysHold_of_found (h.keys model hmodel)
          (fun _ _ hfound => (isSome_lookup_put row').trans hfound) fun _ _ hfound => hfound
  | @deleteProvider id hnone =>
      refine ⟨fun row hrow => h.providers row (Rows.mem_drop.mp hrow).1, h.profiles, h.models,
        h.providersApart.filter _, h.profilesApart, h.modelsApart, ?_⟩
      intro model hmodel
      apply keysHold_of_found (h.keys model hmodel)
      · intro other hother hfound
        have hne : other ≠ id := by
          rintro rfl
          exact hnone model hmodel hother
        exact (congrArg Option.isSome (Rows.lookup_drop_of_ne hne)).trans hfound
      · exact fun _ _ hfound => hfound
  | @createRoutingProfile id request hcheck hstore hapart =>
      refine ⟨h.providers, ?_, h.models, h.providersApart,
        pairwise_append_singleton h.profilesApart hapart, h.modelsApart, ?_⟩
      · intro other hother
        rcases List.mem_append.mp hother with hold | hnew
        · exact h.profiles other hold
        · rw [List.mem_singleton.mp hnew]
          exact ⟨request.2, hstore⟩
      · intro model hmodel
        exact keysHold_of_found (h.keys model hmodel) (fun _ _ hfound => hfound)
          fun _ _ hfound => isSome_lookup_append hfound _
  | @updateRoutingProfile id request row hrow hvalid hcheck hstore hapart =>
      refine ⟨h.providers, ?_, h.models, h.providersApart, ?_, h.modelsApart, ?_⟩
      · intro other hother
        rcases Rows.mem_put hother with rfl | ⟨hold, -⟩
        · exact ⟨hvalid, hstore⟩
        · exact h.profiles other hold
      · refine Rows.pairwise_put (fun _ _ happ => happ.symm) (fun _ _ happ => happ.id)
          h.profilesApart ?_
        change ∀ other ∈ T.otherProfiles row.id, _
        rw [(Rows.mem_of_lookup hrow).2] at hapart ⊢
        exact hapart
      · intro model hmodel
        exact keysHold_of_found (h.keys model hmodel) (fun _ _ hfound => hfound)
          fun _ _ hfound => (isSome_lookup_put _).trans hfound
  | @deleteRoutingProfile id hnone =>
      refine ⟨h.providers, fun row hrow => h.profiles row (Rows.mem_drop.mp hrow).1, h.models,
        h.providersApart, h.profilesApart.filter _, h.modelsApart, ?_⟩
      intro model hmodel
      apply keysHold_of_found (h.keys model hmodel)
      · exact fun _ _ hfound => hfound
      · intro other hother hfound
        have hne : other ≠ id := by
          rintro rfl
          exact hnone model hmodel hother
        exact (congrArg Option.isSome (Rows.lookup_drop_of_ne hne)).trans hfound
  | @createModel id request provider hprovider hstore hapart hkeys =>
      obtain ⟨hfound, -, -⟩ := modelProvider_ok hprovider
      refine ⟨h.providers, h.profiles, ?_, h.providersApart, h.profilesApart,
        pairwise_append_singleton h.modelsApart hapart, ?_⟩
      · intro other hother
        rcases List.mem_append.mp hother with hold | hnew
        · exact h.models other hold
        · rw [List.mem_singleton.mp hnew]
          apply model_stored request.2 (holds_createdModel id provider request) _ _ rfl hstore
          · exact publicModelId_valid (h.providers provider (Rows.mem_of_lookup hfound).1)
              request.2.modelId hstore.modelId
          · intro i hi
            obtain ⟨d, hd, rfl⟩ := Option.map_eq_some_iff.mp hi
            exact ⟨d, hd, rfl⟩
      · intro model hmodel
        rcases List.mem_append.mp hmodel with hold | hnew
        · exact h.keys model hold
        · rw [List.mem_singleton.mp hnew]
          exact hkeys
  | @updateModel id request row hrow hvalid hcheck hstore hapart hkeys =>
      obtain ⟨hmem, hid⟩ := Rows.mem_of_lookup hrow
      refine ⟨h.providers, h.profiles, ?_, h.providersApart, h.profilesApart, ?_, ?_⟩
      · intro other hother
        rcases Rows.mem_put hother with rfl | ⟨hold, -⟩
        · apply model_stored hvalid (holds_updatedModel _ _) hvalid.modelId _ _ hstore
          · exact fun i hi => by cases hi
          · change ((request.val.candidate row).providerId.or row.providerId).isSome = true
            rw [Option.isSome_or, (h.models row hmem).provider, Bool.or_true]
        · exact h.models other hold
      · refine Rows.pairwise_put (fun _ _ happ => happ.symm) (fun _ _ happ => happ.id)
          h.modelsApart ?_
        change ∀ other ∈ T.otherModels row.id, _
        rw [hid]
        exact hapart
      · intro model hmodel
        rcases Rows.mem_put hmodel with rfl | ⟨hold, -⟩
        · exact hkeys
        · exact h.keys model hold
  | deleteModel =>
      exact ⟨h.providers, h.profiles, fun row hrow => h.models row (Rows.mem_drop.mp hrow).1,
        h.providersApart, h.profilesApart, h.modelsApart.filter _,
        fun row hrow => h.keys row (Rows.mem_drop.mp hrow).1⟩

/-- What is stored after any run. -/
theorem stored_of_reachable {allowed : ConfigurationTables → ConfigurationOperation → Prop}
    (h : (machine C).Reachable allowed T) : StoredTables C T := by
  refine invariant_of_effects ?_ (fun _ _ _ hT _ heffect => hT.step heffect) h
  exact ⟨List.forall_mem_nil _, List.forall_mem_nil _, List.forall_mem_nil _, List.Pairwise.nil,
    List.Pairwise.nil, List.Pairwise.nil, List.forall_mem_nil _⟩

end Tables

end MediaBridge.Control
