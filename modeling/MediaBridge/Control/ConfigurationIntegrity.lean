import MediaBridge.Control.ConfigurationRows

/-!
# Referential integrity of the configuration

The references between providers, routing profiles and models, in the runs whose operations break
none that the service does not check.

## Implementation notes

Models refer to providers and profiles by foreign keys, profiles to providers by two lists, one for
each kind of slot. The condition on an operation names the references to the row that it changes.
-/

namespace MediaBridge.Control

open Foundation MediaBridge.Core Gateway ConfigurationTables

/-- The kind of a provider that answers. -/
def ProviderKind.isLlm (kind : ProviderKind) : Bool := kind = .llm

namespace ConfigurationTables

variable (C : ConfigurationContext) (T : ConfigurationTables)

/-- There is a provider with an identifier, and its kind is one of some kinds. -/
def HasKind (id : Uuid) (kinds : ProviderKind → Bool) : Prop :=
  (T.provider? id).any (fun row => kinds row.kind) = true

instance (id : Uuid) (kinds : ProviderKind → Bool) : Decidable (T.HasKind id kinds) :=
  inferInstanceAs (Decidable (_ = true))

theorem lawful_uuid : LawfulBEq Uuid := inferInstance

local instance : LawfulBEq Uuid := lawful_uuid

/-- A profile with an identifier lists a provider as one that answers. -/
def Lists (profileId : Uuid) (providerId : Option Uuid) : Prop :=
  (T.profile? profileId).any (fun profile =>
    providerId.all fun id => id ∈ profile.llmProviderIds) = true

instance (profileId : Uuid) (providerId : Option Uuid) : Decidable (T.Lists profileId providerId) :=
  inferInstanceAs (Decidable (_ = true))

/-- A profile, if there is one, lists a provider as one that answers. -/
def MayList (profileId providerId : Option Uuid) : Prop :=
  (profileId.bind T.profile?).all (fun profile =>
    providerId.all fun id => id ∈ profile.llmProviderIds) = true

instance (profileId providerId : Option Uuid) : Decidable (T.MayList profileId providerId) :=
  inferInstanceAs (Decidable (_ = true))

/-- Every reference leads to a row of the right kind. -/
structure References : Prop where
  provider : ∀ model ∈ T.models,
    model.providerId.any (fun id => T.HasKind id ProviderKind.isLlm) = true
  profile : ∀ model ∈ T.models, ∀ id ∈ model.routingProfileId, T.Lists id model.providerId
  analysis : ∀ profile ∈ T.routingProfiles, ∀ id ∈ profile.analysisProviderIds,
    T.HasKind id ProviderKind.analyses
  llm : ∀ profile ∈ T.routingProfiles, ∀ id ∈ profile.llmProviderIds,
    T.HasKind id ProviderKind.isLlm

/-- A kind suits the references to a provider. -/
structure KindFits (id : Uuid) (kind : ProviderKind) : Prop where
  provider : ∀ model ∈ T.models, model.providerId = some id → kind.isLlm = true
  analysis : ∀ profile ∈ T.routingProfiles, id ∈ profile.analysisProviderIds →
    kind.analyses = true
  llm : ∀ profile ∈ T.routingProfiles, id ∈ profile.llmProviderIds → kind.isLlm = true

instance (id : Uuid) (kind : ProviderKind) : Decidable (T.KindFits id kind) :=
  decidable_of_iff ((∀ model ∈ T.models, model.providerId = some id → kind.isLlm = true) ∧
      (∀ profile ∈ T.routingProfiles, id ∈ profile.analysisProviderIds → kind.analyses = true) ∧
      ∀ profile ∈ T.routingProfiles, id ∈ profile.llmProviderIds → kind.isLlm = true)
    ⟨fun ⟨h1, h2, h3⟩ => ⟨h1, h2, h3⟩, fun h => ⟨h.1, h.2, h.3⟩⟩

/-- The provider that a request for a model names, or else the first one that its profile lists. -/
def namedProvider (request : ModelFields) : Option Provider :=
  (request.providerId.bind T.provider?).or
    (((request.routingProfileId.bind T.profile?).bind fun profile =>
      profile.llmProviderIds.head?).bind T.provider?)

/-- An operation breaks no reference that the service leaves unchecked, and writes only what the
database stores and reads a row only if it can be read. -/
def KeepsReferences : ConfigurationOperation → Prop
  | .createProvider _ request _ => Storable request.val.endpoint
  | .updateProvider id request _ => (∀ text ∈ request.val.endpoint, Storable text) ∧
      ∀ kind ∈ request.val.kind, T.KindFits id kind
  | .deleteProvider id => (∀ model ∈ T.models, model.providerId ≠ some id) ∧
      ∀ profile ∈ T.routingProfiles,
        id ∉ profile.analysisProviderIds ∧ id ∉ profile.llmProviderIds
  | .createRoutingProfile _ request => Storable request.val.name
  | .updateRoutingProfile id request => (∀ text ∈ request.val.name, Storable text) ∧
      ∀ ids ∈ request.val.llmProviderIds, ∀ model ∈ T.models, model.routingProfileId = some id →
        (model.providerId.all fun provider => provider ∈ ids) = true
  | .deleteRoutingProfile id => ∀ model ∈ T.models, model.routingProfileId ≠ some id
  | .createModel _ request => (∀ text ∈ request.val.aliases, Storable text) ∧
      (∀ text ∈ request.val.evidence, Storable text) ∧
      ∀ provider ∈ T.namedProvider request, cp 47 ∉ request.val.modelId →
        (provider.aliasName.getD []).length + request.val.modelId.length < 128
  | .updateModel id request => (∀ texts ∈ request.val.aliases, ∀ text ∈ texts, Storable text) ∧
      (∀ text ∈ request.val.evidence, Storable text) ∧
      ∀ row ∈ T.model? id, row.readable C = true ∧
        T.MayList (request.val.routingProfileId.or row.routingProfileId)
          (request.val.providerId.or row.providerId)
  | .deleteModel id => ∀ row ∈ T.model? id, row.readable C = true

instance : ∀ operation, Decidable (T.KeepsReferences C operation)
  | .createProvider _ request _ => inferInstanceAs (Decidable (Storable request.val.endpoint))
  | .updateProvider _ _ _ => inferInstanceAs (Decidable (_ ∧ _))
  | .deleteProvider _ => inferInstanceAs (Decidable (_ ∧ _))
  | .createRoutingProfile _ request => inferInstanceAs (Decidable (Storable request.val.name))
  | .updateRoutingProfile _ _ => inferInstanceAs (Decidable (_ ∧ _))
  | .deleteRoutingProfile _ => inferInstanceAs (Decidable (∀ model ∈ T.models, _))
  | .createModel _ _ => inferInstanceAs (Decidable (_ ∧ _ ∧ _))
  | .updateModel _ _ => inferInstanceAs (Decidable (_ ∧ _ ∧ _))
  | .deleteModel id => inferInstanceAs (Decidable (∀ row ∈ T.model? id, _))

section Kinds

variable {C : ConfigurationContext} {T T' : ConfigurationTables} {id : Uuid}
  {kinds : ProviderKind → Bool}

theorem hasKind_iff : T.HasKind id kinds ↔
    ∃ row, T.provider? id = some row ∧ kinds row.kind = true := by
  unfold HasKind
  rw [Option.any_eq_true]

theorem hasKind_append (h : T.HasKind id kinds) (row : Provider) :
    HasKind { T with providers := T.providers ++ [row] } id kinds := by
  obtain ⟨found, hfound, hkind⟩ := hasKind_iff.mp h
  exact hasKind_iff.mpr ⟨found, Rows.lookup_append hfound [row], hkind⟩

theorem hasKind_drop {dropped : Uuid} (h : T.HasKind id kinds) (hne : id ≠ dropped) :
    HasKind { T with providers := T.otherProviders dropped } id kinds := by
  obtain ⟨found, hfound, hkind⟩ := hasKind_iff.mp h
  exact hasKind_iff.mpr ⟨found, (Rows.lookup_drop_of_ne hne).trans hfound, hkind⟩

/-- The kinds are as before after a provider has been written, if its own one is. -/
theorem hasKind_put {row row' : Provider} (h : T.HasKind id kinds)
    (hrow : T.provider? row'.id = some row)
    (hkind : row'.id = id → kinds row.kind = true → kinds row'.kind = true) :
    (T.putProvider row').HasKind id kinds := by
  obtain ⟨found, hfound, hsame⟩ := hasKind_iff.mp h
  apply hasKind_iff.mpr
  refine ⟨if found.id = row'.id then row' else found, ?_, ?_⟩
  · exact (Rows.lookup_put _ _ _).trans (congrArg (Option.map _) hfound)
  · have hid : found.id = id := (Rows.mem_of_lookup hfound).2
    split
    · next heq =>
        have hown : row'.id = id := heq.symm.trans hid
        rw [hown, hfound] at hrow
        cases hrow
        exact hkind hown hsame
    · exact hsame

theorem providerValues_ok {request : ProviderFields} {columns : ProviderColumns}
    (h : providerValues C request = .ok columns) :
    columns.kind = request.kind ∧ columns.endpoint = request.endpoint := by
  unfold providerValues at h
  split at h
  · cases h
  · split at h
    · cases h
    · cases h
      exact ⟨rfl, rfl⟩

/-- The check of the lists of a profile. -/
theorem checkProviderIds_ok_iff {fields : ProfileFields} : T.checkProviderIds fields = .ok () ↔
    (∀ id ∈ fields.analysisProviderIds, T.HasKind id ProviderKind.analyses) ∧
      ∀ id ∈ fields.llmProviderIds, T.HasKind id ProviderKind.isLlm := by
  have hkind : ∀ (ids : List Uuid) (kinds : ProviderKind → Bool),
      (∀ id ∈ ids, (T.provider? id).isSome = true) →
        ((ids.filterMap T.provider?).any (fun row => !kinds row.kind) = false ↔
          ∀ id ∈ ids, T.HasKind id kinds) := by
    intro ids kinds hfound
    rw [List.any_eq_false]
    constructor
    · intro h id hid
      obtain ⟨row, hrow⟩ := Option.isSome_iff_exists.mp (hfound id hid)
      have hnot := h row (List.mem_filterMap.mpr ⟨id, hid, hrow⟩)
      exact hasKind_iff.mpr ⟨row, hrow, by simpa using hnot⟩
    · intro h row hrow
      obtain ⟨id, hid, hsome⟩ := List.mem_filterMap.mp hrow
      obtain ⟨found, hfound, hk⟩ := hasKind_iff.mp (h id hid)
      rw [hsome] at hfound
      cases hfound
      simp [hk]
  have hllm : ((fields.llmProviderIds.filterMap T.provider?).any fun row =>
      decide (row.kind ≠ .llm)) =
        (fields.llmProviderIds.filterMap T.provider?).any fun row => !row.kind.isLlm := by
    congr 1
    funext row
    exact decide_not
  unfold checkProviderIds
  rw [hllm]
  constructor
  · intro h
    split at h
    · cases h
    · next hfound =>
        have hsome : ∀ id ∈ fields.analysisProviderIds ++ fields.llmProviderIds,
            (T.provider? id).isSome = true := by
          intro id hid
          rw [Bool.not_eq_true, List.any_eq_false] at hfound
          simpa [Option.ne_none_iff_isSome] using hfound id hid
        split at h
        · cases h
        · next hanalysis =>
            split at h
            · cases h
            · next hanswers =>
                exact ⟨(hkind _ _ fun id hid => hsome id (List.mem_append_left _ hid)).mp
                    (Bool.eq_false_iff.mpr hanalysis),
                  (hkind _ _ fun id hid => hsome id (List.mem_append_right _ hid)).mp
                    (Bool.eq_false_iff.mpr hanswers)⟩
  · rintro ⟨hanalysis, hanswers⟩
    have hsome : ∀ (ids : List Uuid) (kinds : ProviderKind → Bool),
        (∀ id ∈ ids, T.HasKind id kinds) → ∀ id ∈ ids, (T.provider? id).isSome = true := by
      intro ids kinds h id hid
      obtain ⟨row, hrow, -⟩ := hasKind_iff.mp (h id hid)
      rw [hrow]
      rfl
    rw [if_neg, if_neg, if_neg]
    · rw [Bool.not_eq_true]
      exact (hkind _ _ (hsome _ _ hanswers)).mpr hanswers
    · rw [Bool.not_eq_true]
      exact (hkind _ _ (hsome _ _ hanalysis)).mpr hanalysis
    · rw [Bool.not_eq_true, List.any_eq_false]
      intro id hid
      rw [Bool.not_eq_true, Option.isNone_eq_false_iff]
      rcases List.mem_append.mp hid with hleft | hright
      · exact hsome _ _ hanalysis id hleft
      · exact hsome _ _ hanswers id hright

/-- The provider of a new model is the one that its request names. -/
theorem namedProvider_of_ok {request : ModelFields} {provider : Provider}
    (h : T.modelProvider request = .ok provider) : T.namedProvider request = some provider := by
  unfold namedProvider
  simp only [modelProvider] at h
  split at h
  · cases h
  · split at h
    · cases h
    · split at h
      · cases h
      · next hrow =>
          cases h
          rw [hrow, Option.some_or]
      · next hrow =>
          split at h
          · cases h
            rw [hrow, Option.some_or]
          · cases h
      · next profile hprofile hnone =>
          split at h
          · cases h
          · next row hrow =>
              split at h
              · cases h
                rw [hnone, Option.none_or, hprofile]
                exact hrow
              · cases h

end Kinds

section Steps

variable {C : ConfigurationContext} {T T' : ConfigurationTables}
  {operation : ConfigurationOperation} {id : Uuid} {providerId : Option Uuid}

theorem lists_iff : T.Lists id providerId ↔ ∃ profile, T.profile? id = some profile ∧
    ∀ provider ∈ providerId, provider ∈ profile.llmProviderIds := by
  unfold Lists
  rw [Option.any_eq_true]
  apply exists_congr
  intro profile
  apply and_congr_right
  intro _
  cases providerId with
  | none => simp
  | some provider => simp

theorem lists_append (h : T.Lists id providerId) (row : RoutingProfile) :
    Lists { T with routingProfiles := T.routingProfiles ++ [row] } id providerId := by
  obtain ⟨profile, hprofile, hlisted⟩ := lists_iff.mp h
  exact lists_iff.mpr ⟨profile, Rows.lookup_append hprofile [row], hlisted⟩

theorem lists_drop {dropped : Uuid} (h : T.Lists id providerId) (hne : id ≠ dropped) :
    Lists { T with routingProfiles := T.otherProfiles dropped } id providerId := by
  obtain ⟨profile, hprofile, hlisted⟩ := lists_iff.mp h
  exact lists_iff.mpr ⟨profile, (Rows.lookup_drop_of_ne hne).trans hprofile, hlisted⟩

/-- A written profile lists what it listed, if its list keeps it. -/
theorem lists_put {row : RoutingProfile} (h : T.Lists id providerId)
    (hkeeps : row.id = id → ∀ provider ∈ providerId, provider ∈ row.llmProviderIds) :
    (T.putProfile row).Lists id providerId := by
  obtain ⟨profile, hprofile, hlisted⟩ := lists_iff.mp h
  apply lists_iff.mpr
  refine ⟨if profile.id = row.id then row else profile, ?_, ?_⟩
  · exact (Rows.lookup_put _ _ _).trans (congrArg (Option.map _) hprofile)
  · have hid : profile.id = id := (Rows.mem_of_lookup hprofile).2
    split
    · next heq => exact hkeeps (heq.symm.trans hid)
    · exact hlisted

/-- The references of the models after one of them has been written. -/
theorem References.models (h : T.References) {models : List ModelCapability}
    (hmodels : ∀ model ∈ models, model ∈ T.models ∨
      (model.providerId.any (fun id => T.HasKind id ProviderKind.isLlm) = true ∧
        ∀ id ∈ model.routingProfileId, T.Lists id model.providerId)) :
    References { T with models := models } := by
  refine ⟨?_, ?_, h.analysis, h.llm⟩
  · intro model hmodel
    rcases hmodels model hmodel with hold | hnew
    · exact h.provider model hold
    · exact hnew.1
  · intro model hmodel
    rcases hmodels model hmodel with hold | hnew
    · exact h.profile model hold
    · exact hnew.2

/-- The references to providers hold as long as the kinds do. -/
theorem References.providers (h : T.References) {providers : List Provider}
    (hmodel : ∀ model ∈ T.models, ∀ id, model.providerId = some id →
      T.HasKind id ProviderKind.isLlm →
        HasKind { T with providers := providers } id ProviderKind.isLlm)
    (hanalysis : ∀ profile ∈ T.routingProfiles, ∀ id ∈ profile.analysisProviderIds,
      T.HasKind id ProviderKind.analyses →
        HasKind { T with providers := providers } id ProviderKind.analyses)
    (hllm : ∀ profile ∈ T.routingProfiles, ∀ id ∈ profile.llmProviderIds,
      T.HasKind id ProviderKind.isLlm →
        HasKind { T with providers := providers } id ProviderKind.isLlm) :
    References { T with providers := providers } := by
  refine ⟨?_, h.profile, ?_, ?_⟩
  · intro model hmem
    obtain ⟨id, hid, hkind⟩ := (Option.any_eq_true _ _).mp (h.provider model hmem)
    exact (Option.any_eq_true _ _).mpr
      ⟨id, hid, decide_eq_true (hmodel model hmem id hid (of_decide_eq_true hkind))⟩
  · exact fun profile hmem id hid => hanalysis profile hmem id hid (h.analysis profile hmem id hid)
  · exact fun profile hmem id hid => hllm profile hmem id hid (h.llm profile hmem id hid)

/-- One operation. -/
theorem References.step (h : T.References) (hkeeps : T.KeepsReferences C operation)
    (heffect : Effect C T operation T') : T'.References := by
  cases heffect with
  | createProvider _ _ _ _ =>
      exact h.providers (fun _ _ _ _ hkind => hasKind_append hkind _)
        (fun _ _ _ _ hkind => hasKind_append hkind _) fun _ _ _ _ hkind => hasKind_append hkind _
  | @updateProvider id request draw row row' hrow hupdated _ _ =>
      obtain ⟨-, hvalues, hid, -⟩ := updatedProvider_ok hupdated
      have hown : row'.id = id := hid.trans (Rows.mem_of_lookup hrow).2
      have hkind : row'.kind = request.val.kind.getD row.kind := (providerValues_ok hvalues).1
      have hput : ∀ (kinds : ProviderKind → Bool) (other : Uuid), T.HasKind other kinds →
          (∀ kind, T.KindFits id kind → id = other → kinds kind = true) →
            (T.putProvider row').HasKind other kinds := by
        intro kinds other hother hfits
        apply hasKind_put hother (hown ▸ hrow)
        intro heq hold
        rw [hkind]
        cases hchange : request.val.kind with
        | none => exact hold
        | some kind => exact hfits kind (hkeeps.2 kind hchange) (hown.symm.trans heq)
      apply h.providers
      · intro model hmodel other hother hold
        apply hput _ _ hold
        rintro kind hfits rfl
        exact hfits.provider model hmodel hother
      · intro profile hprofile other hother hold
        apply hput _ _ hold
        rintro kind hfits rfl
        exact hfits.analysis profile hprofile hother
      · intro profile hprofile other hother hold
        apply hput _ _ hold
        rintro kind hfits rfl
        exact hfits.llm profile hprofile hother
  | @deleteProvider id hnone =>
      apply h.providers
      · intro model hmodel other hother hold
        apply hasKind_drop hold
        rintro rfl
        exact hnone model hmodel hother
      · intro profile hprofile other hother hold
        apply hasKind_drop hold
        rintro rfl
        exact (hkeeps.2 profile hprofile).1 hother
      · intro profile hprofile other hother hold
        apply hasKind_drop hold
        rintro rfl
        exact (hkeeps.2 profile hprofile).2 hother
  | @createRoutingProfile id request hcheck _ _ =>
      obtain ⟨hanalysis, hllm⟩ := checkProviderIds_ok_iff.mp hcheck
      refine ⟨h.provider, fun model hmodel other hother =>
        lists_append (h.profile model hmodel other hother) _, ?_, ?_⟩
      · intro profile hprofile
        rcases List.mem_append.mp hprofile with hold | hnew
        · exact h.analysis profile hold
        · rw [List.mem_singleton.mp hnew]
          exact hanalysis
      · intro profile hprofile
        rcases List.mem_append.mp hprofile with hold | hnew
        · exact h.llm profile hold
        · rw [List.mem_singleton.mp hnew]
          exact hllm
  | @updateRoutingProfile id request row hrow _ hcheck _ _ =>
      obtain ⟨hanalysis, hllm⟩ := checkProviderIds_ok_iff.mp hcheck
      have hid : row.id = id := (Rows.mem_of_lookup hrow).2
      refine ⟨h.provider, ?_, ?_, ?_⟩
      · intro model hmodel other hother
        have hlists := h.profile model hmodel other hother
        apply lists_put hlists
        intro heq provider hprovider
        have hsame : other = id := heq.symm.trans hid
        rw [hsame] at hlists hother
        change provider ∈ request.val.llmProviderIds.getD row.llmProviderIds
        cases hchange : request.val.llmProviderIds with
        | none =>
            obtain ⟨profile, hprofile, hlisted⟩ := lists_iff.mp hlists
            rw [hrow] at hprofile
            cases hprofile
            exact hlisted provider hprovider
        | some ids =>
            have hall := hkeeps.2 ids hchange model hmodel hother
            rw [Option.mem_def.mp hprovider] at hall
            exact of_decide_eq_true hall
      · intro profile hprofile
        rcases Rows.mem_put hprofile with rfl | ⟨hold, -⟩
        · exact hanalysis
        · exact h.analysis profile hold
      · intro profile hprofile
        rcases Rows.mem_put hprofile with rfl | ⟨hold, -⟩
        · exact hllm
        · exact h.llm profile hold
  | @deleteRoutingProfile id hnone =>
      refine ⟨h.provider, ?_, fun profile hprofile => h.analysis profile (Rows.mem_drop.mp hprofile).1,
        fun profile hprofile => h.llm profile (Rows.mem_drop.mp hprofile).1⟩
      intro model hmodel other hother
      apply lists_drop (h.profile model hmodel other hother)
      rintro rfl
      exact hnone model hmodel hother
  | @createModel id request provider hprovider _ _ _ =>
      obtain ⟨hfound, hllm, hprofile⟩ := modelProvider_ok hprovider
      apply h.models
      intro model hmodel
      rcases List.mem_append.mp hmodel with hold | hnew
      · exact .inl hold
      · right
        rw [List.mem_singleton.mp hnew]
        constructor
        · apply decide_eq_true
          exact hasKind_iff.mpr ⟨provider, hfound, decide_eq_true hllm⟩
        · intro other hother
          obtain ⟨profile, hsome, hlisted⟩ := hprofile other hother
          refine lists_iff.mpr ⟨profile, hsome, ?_⟩
          rintro _ ⟨⟩
          exact hlisted
  | @updateModel id request row hrow _ hcheck _ _ hkeys =>
      apply h.models
      intro model hmodel
      rcases Rows.mem_put hmodel with rfl | ⟨hold, -⟩
      · right
        have hown : (request.val.candidate row).providerId.or row.providerId =
            request.val.providerId.or row.providerId := by
          change (request.val.providerId.or row.providerId).or row.providerId = _
          rw [Option.or_assoc, Option.or_self]
        constructor
        · change ((request.val.candidate row).providerId.or row.providerId).any _ = true
          cases hprovider : (request.val.candidate row).providerId with
          | none =>
              have hnone : row.providerId = none := (Option.or_eq_none_iff.mp hprovider).2
              have hold := h.provider row (Rows.mem_of_lookup hrow).1
              rw [hnone] at hold
              cases hold
          | some provider =>
              rw [hprovider] at hcheck
              unfold checkModelProvider at hcheck
              split at hcheck
              · next hnone => cases hnone
              · next id heq =>
                  cases heq
                  split at hcheck
                  · cases hcheck
                  · next found hfound =>
                      split at hcheck
                      · next hllm =>
                          apply decide_eq_true
                          exact hasKind_iff.mpr ⟨found, hfound, decide_eq_true hllm⟩
                      · cases hcheck
        · intro other hother
          change T.Lists other ((request.val.candidate row).providerId.or row.providerId)
          rw [hown]
          have hprofile := (Bool.and_eq_true_iff.mp hkeys).2
          change ((request.val.candidate row).routingProfileId.all fun id =>
            (T.profile? id).isSome) = true at hprofile
          change (request.val.candidate row).routingProfileId = some other at hother
          rw [hother] at hprofile
          obtain ⟨profile, hfound⟩ := Option.isSome_iff_exists.mp hprofile
          have hlisted := (hkeeps.2.2 row hrow).2
          change request.val.routingProfileId.or row.routingProfileId = some other at hother
          unfold MayList at hlisted
          rw [hother, Option.bind_some, hfound] at hlisted
          unfold Lists
          rw [hfound]
          exact hlisted
      · exact .inl hold
  | deleteModel =>
      exact h.models fun model hmodel => .inl (Rows.mem_drop.mp hmodel).1

end Steps

section Failures

variable {C : ConfigurationContext} {T : ConfigurationTables} {failure : ConfigurationFailure}

/-- The failure is a `ConfigurationError`. -/
def Refused (failure : ConfigurationFailure) : Prop := ∃ code, failure = .refused code

theorem flushProvider_refused {others : List Provider} {row : Provider}
    (hstore : Storable row.endpoint) (h : flushProvider others row = .error failure) :
    Refused failure := by
  unfold flushProvider at h
  rw [if_neg (not_not.mpr hstore)] at h
  split at h
  · cases h
    exact ⟨_, rfl⟩
  · cases h

theorem flushProfile_refused {others : List RoutingProfile} {row : RoutingProfile}
    (hstore : Storable row.name) (h : flushProfile others row = .error failure) :
    Refused failure := by
  unfold flushProfile at h
  rw [if_neg (not_not.mpr hstore)] at h
  split at h
  · cases h
    exact ⟨_, rfl⟩
  · cases h

theorem flushModel_refused {others : List ModelCapability} {row : ModelCapability}
    (hstore : row.Storable) (h : T.flushModel others row = .error failure) : Refused failure := by
  unfold flushModel at h
  rw [if_neg (not_not.mpr hstore)] at h
  split at h
  · cases h
    exact ⟨_, rfl⟩
  · cases h

/-- A flush that fails, before what follows it. -/
theorem map_error {α : Type*} {e : Except ConfigurationFailure Unit} {a : α}
    (h : (e.map fun _ => a) = .error failure) : e = .error failure := by
  cases e with
  | error _ =>
      cases h
      rfl
  | ok _ => cases h

theorem checkProviderIds_refused {fields : ProfileFields}
    (h : T.checkProviderIds fields = .error failure) : Refused failure := by
  unfold checkProviderIds at h
  split at h
  · cases h
    exact ⟨_, rfl⟩
  · split at h
    · cases h
      exact ⟨_, rfl⟩
    · split at h
      · cases h
        exact ⟨_, rfl⟩
      · cases h

theorem modelProvider_refused {request : ModelFields}
    (h : T.modelProvider request = .error failure) : Refused failure := by
  simp only [modelProvider] at h
  repeat' split at h
  all_goals cases h
  all_goals exact ⟨_, rfl⟩

theorem checkModelProvider_refused {providerId : Option Uuid}
    (h : T.checkModelProvider providerId = .error failure) : Refused failure := by
  unfold checkModelProvider at h
  repeat' split at h
  all_goals cases h
  all_goals exact ⟨_, rfl⟩

theorem updatedProvider_refused {row : Provider} {changes : ProviderChanges} {draw : Bytes}
    (h : updatedProvider C row changes draw = .error failure) : Refused failure := by
  unfold updatedProvider at h
  repeat' split at h
  all_goals cases h
  all_goals exact ⟨_, rfl⟩

/-- What a provider update writes can be stored, if its own endpoint can. -/
theorem storable_updatedProvider {row row' : Provider} {changes : ProviderChanges} {draw : Bytes}
    (h : updatedProvider C row changes draw = .ok row') (hrow : Storable row.endpoint)
    (hchanges : ∀ text ∈ changes.endpoint, Storable text) : Storable row'.endpoint := by
  obtain ⟨-, hvalues, -, -⟩ := updatedProvider_ok h
  rw [(providerValues_ok hvalues).2]
  change Storable (changes.endpoint.getD row.endpoint)
  cases hchange : changes.endpoint with
  | none => exact hrow
  | some text => exact hchanges text hchange

/-- What a model update writes can be stored, if its own texts can. -/
theorem storable_updatedModel {row : ModelCapability} {changes : ModelChanges}
    (hvalid : (changes.candidate row).Valid) (hrow : row.Storable)
    (haliases : ∀ texts ∈ changes.aliases, ∀ text ∈ texts, Storable text)
    (hevidence : ∀ text ∈ changes.evidence, Storable text) :
    (updatedModel row (changes.candidate row)).Storable := by
  refine ⟨hvalid.modelId.2.1, ?_, ?_⟩
  · intro text htext
    have hmem : text ∈ changes.aliases.getD row.aliases := mem_sortedTexts.mp htext
    cases hchange : changes.aliases with
    | none =>
        rw [hchange] at hmem
        exact hrow.aliases text hmem
    | some texts =>
        rw [hchange] at hmem
        exact haliases texts hchange text hmem
  · intro text htext
    rcases Option.or_eq_some_iff.mp htext with hnew | ⟨-, hold⟩
    · exact hevidence text hnew
    · exact hrow.evidence text hold

/-- The columns can hold a new model, if its public identifier is short enough. -/
theorem storable_createdModel {id : Uuid} {provider : Provider} {request : ModelFields}
    (hprovider : provider.Stored C) (hid : Constrained.Valid 128 registryIdPattern request.modelId)
    (haliases : ∀ text ∈ request.aliases, Storable text)
    (hevidence : ∀ text ∈ request.evidence, Storable text)
    (hlength : cp 47 ∉ request.modelId →
      (provider.aliasName.getD []).length + request.modelId.length < 128) :
    (createdModel C id provider request).Storable := by
  refine ⟨?_, fun text htext => haliases text (mem_sortedTexts.mp htext), hevidence⟩
  change (publicModelId C provider request.modelId).length ≤ 128
  unfold publicModelId
  split
  · exact hid.2.1
  · next hslash =>
      obtain ⟨text, htext, -⟩ := hprovider.slug
      have hshort := hlength hslash
      rw [htext, Option.getD_some] at hshort ⊢
      rw [List.length_append, List.length_cons]
      omega

/-- An update of a provider raises nothing else, if its endpoint can be stored. -/
theorem updateProvider_refused (hstored : StoredTables C T) {id : Uuid} {changes : ProviderChanges}
    {draw : Bytes} (hchanges : ∀ text ∈ changes.endpoint, Storable text)
    (h : T.updateProvider C id changes draw = .error failure) : Refused failure := by
  unfold updateProvider at h
  split at h
  · cases h
    exact ⟨_, rfl⟩
  · next row hrow =>
      have hold := (hstored.providers row (Rows.mem_of_lookup hrow).1).storable
      split at h
      · next hupdated =>
          cases h
          exact updatedProvider_refused hupdated
      · next row' hupdated =>
          exact flushProvider_refused (storable_updatedProvider hupdated hold hchanges) (map_error h)

/-- An update of a profile raises nothing else, if its name can be stored. -/
theorem updateRoutingProfile_refused (hstored : StoredTables C T) {id : Uuid}
    {changes : ProfileChanges} (hchanges : ∀ text ∈ changes.name, Storable text)
    (h : T.updateRoutingProfile id changes = .error failure) : Refused failure := by
  simp only [updateRoutingProfile] at h
  split at h
  · cases h
    exact ⟨_, rfl⟩
  · next row hrow =>
      split at h
      · cases h
        exact ⟨_, rfl⟩
      · split at h
        · next hcheck =>
            cases h
            exact checkProviderIds_refused hcheck
        · apply flushProfile_refused _ (map_error h)
          change Storable (changes.name.getD row.name)
          cases hchange : changes.name with
          | none => exact (hstored.profiles row (Rows.mem_of_lookup hrow).1).2
          | some text => exact hchanges text hchange

/-- An update of a model raises nothing else, if its texts can be stored and the row be read. -/
theorem updateModel_refused (hstored : StoredTables C T) {id : Uuid} {changes : ModelChanges}
    (haliases : ∀ texts ∈ changes.aliases, ∀ text ∈ texts, Storable text)
    (hevidence : ∀ text ∈ changes.evidence, Storable text)
    (hread : ∀ row ∈ T.model? id, row.readable C = true)
    (h : T.updateModel C id changes = .error failure) : Refused failure := by
  simp only [updateModel] at h
  split at h
  · cases h
    exact ⟨_, rfl⟩
  · next row hrow =>
      rw [if_neg (not_not.mpr (hread row hrow))] at h
      split at h
      · cases h
        exact ⟨_, rfl⟩
      · next hvalid =>
          split at h
          · next hcheck =>
              cases h
              exact checkModelProvider_refused hcheck
          · exact flushModel_refused (storable_updatedModel (not_not.mp hvalid)
              (hstored.models row (Rows.mem_of_lookup hrow).1).storable haliases hevidence)
              (map_error h)

/-- An operation that fails is refused, under its condition. -/
theorem refused_of_error (hstored : StoredTables C T) {operation : ConfigurationOperation}
    (hkeeps : T.KeepsReferences C operation) (h : T.apply C operation = .error failure) :
    Refused failure := by
  cases operation with
  | createProvider id request draw =>
      change T.createProvider C id request draw = _ at h
      unfold createProvider at h
      split at h
      · cases h
        exact ⟨_, rfl⟩
      · next columns hvalues =>
          apply flushProvider_refused _ (map_error h)
          change Storable columns.endpoint
          rw [(providerValues_ok hvalues).2]
          exact hkeeps
  | updateProvider id request draw => exact updateProvider_refused hstored hkeeps.1 h
  | deleteProvider id =>
      change T.deleteProvider id = _ at h
      unfold deleteProvider at h
      split at h
      · cases h
        exact ⟨_, rfl⟩
      · split at h
        · next hreferenced =>
            obtain ⟨model, hmodel, hid⟩ := List.any_eq_true.mp hreferenced
            exact absurd (of_decide_eq_true hid) (hkeeps.1 model hmodel)
        · cases h
  | createRoutingProfile id request =>
      change T.createRoutingProfile id request = _ at h
      unfold createRoutingProfile at h
      split at h
      · next hcheck =>
          cases h
          exact checkProviderIds_refused hcheck
      · apply flushProfile_refused _ (map_error h)
        exact hkeeps
  | updateRoutingProfile id request => exact updateRoutingProfile_refused hstored hkeeps.1 h
  | deleteRoutingProfile id =>
      change T.deleteRoutingProfile id = _ at h
      unfold deleteRoutingProfile at h
      split at h
      · cases h
        exact ⟨_, rfl⟩
      · split at h
        · next hreferenced =>
            obtain ⟨model, hmodel, hid⟩ := List.any_eq_true.mp hreferenced
            exact absurd (of_decide_eq_true hid) (hkeeps model hmodel)
        · cases h
  | createModel id request =>
      change T.createModel C id request = _ at h
      unfold createModel at h
      split at h
      · next hprovider =>
          cases h
          exact modelProvider_refused hprovider
      · next provider hprovider =>
          obtain ⟨hfound, -, -⟩ := modelProvider_ok hprovider
          exact flushModel_refused (storable_createdModel
            (hstored.providers provider (Rows.mem_of_lookup hfound).1) request.2.modelId hkeeps.1
            hkeeps.2.1 (hkeeps.2.2 provider (namedProvider_of_ok hprovider))) (map_error h)
  | updateModel id request =>
      exact updateModel_refused hstored hkeeps.1 hkeeps.2.1
        (fun row hrow => (hkeeps.2.2 row hrow).1) h
  | deleteModel id =>
      change T.deleteModel C id = _ at h
      unfold deleteModel at h
      split at h
      · cases h
        exact ⟨_, rfl⟩
      · next row hrow =>
          rw [if_neg (not_not.mpr (hkeeps row hrow))] at h
          cases h

end Failures

/-- In every run whose operations break no unchecked reference, every reference leads to a row of
the right kind; and such an operation keeps that, or is refused and changes nothing. -/
theorem references_kept (C : ConfigurationContext) {T : ConfigurationTables}
    (h : (machine C).Reachable (KeepsReferences C) T) :
    T.References ∧ ∀ operation, T.KeepsReferences C operation →
      (∃ T', T.apply C operation = .ok T' ∧ T'.References) ∨
        ∃ code, T.apply C operation = .error (.refused code) ∧ T.after C operation = T := by
  have hreferences : T.References := by
    refine invariant_of_effects ?_ (fun _ _ _ hT hkeeps heffect => hT.step hkeeps heffect) h
    exact ⟨List.forall_mem_nil _, List.forall_mem_nil _, List.forall_mem_nil _,
      List.forall_mem_nil _⟩
  refine ⟨hreferences, ?_⟩
  intro operation hkeeps
  cases happly : T.apply C operation with
  | ok T' => exact .inl ⟨T', rfl, hreferences.step hkeeps (effect_of_apply happly)⟩
  | error failure =>
      obtain ⟨code, rfl⟩ := refused_of_error (stored_of_reachable h) hkeeps happly
      refine .inr ⟨code, rfl, ?_⟩
      rw [after, happly]

section Samples

/-- A service with ASCII character data, keys that are their own ciphertexts, and times that can
all be read. -/
def sampleConfiguration : ConfigurationContext where
  unicode := .ascii id
  casefold := Str.asciiLower
  encryptSecret _ secret := secret
  readable _ := true

def sampleProviderFields (name : String) (kind : ProviderKind) : ProviderFields where
  name := lit name
  kind := kind
  endpoint := lit "https://api.example.org"
  secretRef := ⟨.env, lit "API_KEY"⟩

theorem valid_answers : (sampleProviderFields "answers" .llm).Valid := by decide

theorem valid_parserFields : (sampleProviderFields "parser" .ocr).Valid := by decide

def sampleProfileFields : ProfileFields where
  name := lit "default"
  analysisProviderIds := [2]
  llmProviderIds := [1]

theorem valid_profile : sampleProfileFields.Valid := by decide

def sampleModelFields : ModelFields where
  routingProfileId := some 3
  modelId := lit "chat"
  inputModalities := [.text]
  reviewedAt := ⟨0, some 0⟩

theorem valid_model : sampleModelFields.Valid := by decide

/-- A provider of each kind, a profile that lists them, and a model for it. -/
def sampleOperations : List ConfigurationOperation :=
  [.createProvider 1 ⟨_, valid_answers⟩ [], .createProvider 2 ⟨_, valid_parserFields⟩ [],
    .createRoutingProfile 3 ⟨_, valid_profile⟩, .createModel 4 ⟨_, valid_model⟩]

/-- The tables after the sample operations. -/
def sampleTables : ConfigurationTables :=
  sampleOperations.foldl (fun T operation => T.after sampleConfiguration operation) {}

theorem reachable_sampleTables :
    (machine sampleConfiguration).Reachable (KeepsReferences sampleConfiguration) sampleTables := by
  have hrun : sampleOperations.foldlM (fun (T : ConfigurationTables) operation =>
      if T.KeepsReferences sampleConfiguration operation then
        some (T.after sampleConfiguration operation) else none) {} = some sampleTables := by
    decide +kernel
  refine Machine.Reachable.foldlM ?_ (.start rfl) hrun
  intro T operation T' hstep
  obtain ⟨hkeeps, hafter⟩ := Option.ite_none_right_eq_some.mp hstep
  exact ⟨hkeeps, (Option.some.inj hafter).symm⟩

/-- The model can be deleted. -/
theorem references_kept_sample : sampleTables.models.map ModelCapability.modelId =
      [lit "answers/chat"] ∧ sampleTables.References ∧
    ((∃ T', sampleTables.apply sampleConfiguration (.deleteModel 4) = .ok T' ∧ T'.References) ∨
      ∃ code, sampleTables.apply sampleConfiguration (.deleteModel 4) = .error (.refused code) ∧
        sampleTables.after sampleConfiguration (.deleteModel 4) = sampleTables) := by
  obtain ⟨hreferences, hnext⟩ := references_kept sampleConfiguration reachable_sampleTables
  refine ⟨by decide +kernel, hreferences, hnext (.deleteModel 4) ?_⟩
  decide +kernel

/-- A provider that a profile lists is deleted; one that a model refers to raises an
`IntegrityError`. -/
theorem references_lost :
    (¬ ∀ (C : ConfigurationContext) (T : ConfigurationTables),
      (machine C).Reachable Machine.anyStep T → T.References) ∧
    ¬ ∀ (C : ConfigurationContext) (T : ConfigurationTables),
      (machine C).Reachable Machine.anyStep T → ∀ operation,
        (∃ T', T.apply C operation = .ok T' ∧ T'.References) ∨
          ∃ code, T.apply C operation = .error (.refused code) ∧ T.after C operation = T := by
  have hsample : (machine sampleConfiguration).Reachable Machine.anyStep sampleTables :=
    reachable_sampleTables.mono fun _ _ _ => trivial
  constructor
  · intro h
    have hdeleted : (machine sampleConfiguration).Reachable Machine.anyStep
        (sampleTables.after sampleConfiguration (.deleteProvider 2)) := hsample.next trivial rfl
    have hparser := (h _ _ hdeleted).analysis { sampleProfileFields with id := 3 }
      (by decide +kernel) 2 (by decide +kernel)
    revert hparser
    decide +kernel
  · intro h
    have hraises : sampleTables.apply sampleConfiguration (.deleteProvider 1) =
        .error .integrityError := by
      decide +kernel
    rcases h sampleConfiguration _ hsample (.deleteProvider 1) with ⟨T', hok, -⟩ | ⟨code, herr, -⟩
    · rw [hraises] at hok
      cases hok
    · rw [hraises] at herr
      cases herr

end Samples

end ConfigurationTables

end MediaBridge.Control
