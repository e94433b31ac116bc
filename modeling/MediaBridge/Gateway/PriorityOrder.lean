import MediaBridge.Gateway.ProviderChoice

/-!
# The order of a routing profile

A profile lists its providers in an order, and `_provider_for_target` puts the list into a set.
Among the usable providers the one with the least identifier is chosen, so that the order of the
profile is followed exactly where its first usable identifier is the least of them.
-/

namespace MediaBridge.Gateway

open Foundation ProviderRouting

/-- An identifier of a provider that is an enabled text model. -/
def Usable (providers : List Json) (id : Str) : Prop :=
  ∃ provider ∈ objects providers, (Json.field provider "id").str? = some id ∧
    (Json.field provider "kind").isLit "llm" = true ∧
    (Json.field provider "enabled").isTrue = true ∧ OffersText provider

/-- The first usable identifier of a list. -/
def FirstUsable (providers : List Json) (ids : List Str) (id : Str) : Prop :=
  ∃ before after, ids = before ++ id :: after ∧ Usable providers id ∧
    ∀ earlier ∈ before, ¬ Usable providers earlier

/-- The first usable identifier of a list is the least one. -/
def LeastFirst (providers : List Json) (ids : List Str) : Prop :=
  ∀ first, FirstUsable providers ids first → ∀ id ∈ ids, Usable providers id → first ≤ id

variable {providers : List Json} {ids : List Str} {id : Str}

theorem exists_firstUsable (hmem : id ∈ ids) (h : Usable providers id) :
    ∃ first, FirstUsable providers ids first := by
  induction ids with
  | nil => cases hmem
  | cons head rest ih =>
      by_cases hhead : Usable providers head
      · exact ⟨head, [], rest, rfl, hhead, nofun⟩
      · have hrest : id ∈ rest := by
          rcases List.mem_cons.mp hmem with rfl | hrest
          · exact absurd h hhead
          · exact hrest
        obtain ⟨first, before, after, rfl, hfirst, hbefore⟩ := ih hrest
        exact ⟨first, head :: before, after, rfl, hfirst,
          List.forall_mem_cons.mpr ⟨hhead, hbefore⟩⟩

theorem FirstUsable.mem (h : FirstUsable providers ids id) : id ∈ ids := by
  obtain ⟨before, after, rfl, -, -⟩ := h
  exact List.mem_append_right _ List.mem_cons_self

theorem FirstUsable.usable (h : FirstUsable providers ids id) : Usable providers id := by
  obtain ⟨_, _, -, husable, -⟩ := h
  exact husable

theorem FirstUsable.unique {id' : Str} (h : FirstUsable providers ids id)
    (h' : FirstUsable providers ids id') : id = id' := by
  obtain ⟨before, after, rfl, husable, hbefore⟩ := h
  obtain ⟨before', after', heq, husable', hbefore'⟩ := h'
  rcases List.append_eq_append_iff.mp heq with ⟨more, rfl, hrest⟩ | ⟨more, rfl, hrest⟩
  · cases more with
    | nil => exact (List.cons.inj hrest).1
    | cons c more =>
        rw [List.cons_append, List.cons.injEq] at hrest
        rw [← hrest.1] at hbefore'
        exact absurd husable (hbefore' id (by simp))
  · cases more with
    | nil => exact (List.cons.inj hrest).1.symm
    | cons c more =>
        rw [List.cons_append, List.cons.injEq] at hrest
        rw [← hrest.1] at hbefore
        exact absurd husable' (hbefore id' (by simp))

section Chosen

variable {profiles : Json} {model provider : Entries Str Json}

/-- The usable identifiers of a list are those of the providers that offer text. -/
theorem usable_iff (hmem : id ∈ ids) :
    Usable providers id ↔ ∃ other ∈ (objects providers).filter (serves ids),
      providerIdent other = id ∧ OffersText other := by
  constructor
  · rintro ⟨other, hother, hid, hkind, henabled, hoffers⟩
    refine ⟨other, List.mem_filter.mpr ⟨hother, serves_iff.mpr ⟨⟨id, hmem, hid⟩, hkind,
      henabled⟩⟩, ?_, hoffers⟩
    rw [providerIdent, hid]
    rfl
  · rintro ⟨other, hother, rfl, hoffers⟩
    obtain ⟨hother, hserves⟩ := List.mem_filter.mp hother
    obtain ⟨-, hkind, henabled⟩ := serves_iff.mp hserves
    exact ⟨other, hother, str?_of_serves hserves, hkind, henabled, hoffers⟩

/-- What is chosen is a usable identifier of the profile, and the least one. -/
theorem ServedBy.least_usable (h : ServedBy profiles providers model provider) :
    providerIdent provider ∈ providerIds (profileOf profiles model) model ∧
      Usable providers (providerIdent provider) ∧
      ∀ id ∈ providerIds (profileOf profiles model) model, Usable providers id →
        providerIdent provider ≤ id := by
  have hmem := providerIdent_mem h.serves
  refine ⟨hmem, (usable_iff hmem).mpr h.chosen.offered, ?_⟩
  intro id hid husable
  obtain ⟨other, hother, rfl, hoffers⟩ := (usable_iff hid).mp husable
  exact h.chosen.least other hother hoffers

/-- The first usable provider serves a model exactly if it is the least one. -/
theorem ServedBy.firstUsable_iff (h : ServedBy profiles providers model provider) :
    FirstUsable providers (providerIds (profileOf profiles model) model) (providerIdent provider) ↔
      LeastFirst providers (providerIds (profileOf profiles model) model) := by
  obtain ⟨hmem, husable, hleast⟩ := h.least_usable
  constructor
  · intro hchosen first hfirst id hid hid'
    rw [hfirst.unique hchosen]
    exact hleast id hid hid'
  · intro hcondition
    obtain ⟨first, hfirst⟩ := exists_firstUsable hmem husable
    have heq : first = providerIdent provider :=
      le_antisymm (hcondition first hfirst _ hmem husable)
        (hleast first hfirst.mem hfirst.usable)
    rwa [← heq]

end Chosen

section Targets

variable {body profile model provider : Entries Str Json} {models items : List Json}
  {targetId : Str}

/-- The provider that is selected for a target under a profile with a list, with the strategy
'priority' or any other, is the first usable one of the list exactly if that is the least of the
usable ones. -/
theorem priority_followed_iff (hmodels : registryModels body = some models)
    (hproviders : Json.field body "providers" = .arr providers)
    (hmodel : (objects models).filter (names · targetId) = [model])
    (hprofile : profileOf (Json.field body "routing_profiles") model = some profile)
    (hitems : Json.field profile "llm_provider_ids" = .arr items)
    (h : providerForTarget body targetId = .ok provider) :
    FirstUsable providers (items.filterMap Json.str?) (providerIdent provider) ↔
      LeastFirst providers (items.filterMap Json.str?) := by
  have hserved : ServedBy (Json.field body "routing_profiles") providers model provider := by
    rw [providerForTarget, hmodels, hproviders] at h
    simp only [hmodel] at h
    exact providerForModel_eq_ok_iff.mp h
  have hids : providerIds (profileOf (Json.field body "routing_profiles") model) model =
      items.filterMap Json.str? := by
    rw [hprofile, providerIds, Option.map_some, hitems]
  rw [← hids]
  exact hserved.firstUsable_iff

end Targets

section Sample

/-- A provider of a concrete snapshot. -/
def sampleProvider (id : String) : Entries Str Json :=
  [(lit "id", .str (lit id)), (lit "kind", .str (lit "llm")), (lit "enabled", .bool true),
    (lit "catalog_id", .str (lit "openai")), (lit "protocol", .str (lit "chat")),
    (lit "endpoint", .str (lit "https://a.example")), (lit "model_id", .str (lit "m"))]

/-- A model with a profile. -/
def sampleModel : Entries Str Json :=
  [(lit "id", .str (lit "m")), (lit "routing_profile_id", .str (lit "r"))]

/-- A profile that lists its providers in an order. -/
def sampleProfile (first second : String) : Entries Str Json :=
  [(lit "id", .str (lit "r")), (lit "strategy", .str (lit "priority")),
    (lit "llm_provider_ids", .arr [.str (lit first), .str (lit second)])]

def sampleProviders : List Json := [.obj (sampleProvider "a"), .obj (sampleProvider "b")]

/-- A snapshot with two usable providers. -/
def samplePriorityBody (first second : String) : Entries Str Json :=
  [(lit "registry", .obj [(lit "models", .arr [.obj sampleModel])]),
    (lit "routing_profiles", .arr [.obj (sampleProfile first second)]),
    (lit "providers", .arr sampleProviders)]

theorem priority_followed_iff_sample :
    ∃ provider, providerForTarget (samplePriorityBody "a" "b") (lit "m") = .ok provider ∧
      (FirstUsable sampleProviders [lit "a", lit "b"] (providerIdent provider) ↔
        LeastFirst sampleProviders [lit "a", lit "b"]) := by
  obtain ⟨provider, h⟩ := exists_of_isOk
    (by decide +kernel : (providerForTarget (samplePriorityBody "a" "b") (lit "m")).isOk = true)
  exact ⟨provider, h, @priority_followed_iff _ _ _ _ _ [.obj sampleModel] _ _ rfl rfl rfl rfl rfl h⟩

theorem usable_sampleProvider (id : String) (h : .obj (sampleProvider id) ∈ sampleProviders) :
    Usable sampleProviders (lit id) :=
  ⟨sampleProvider id, List.mem_filterMap.mpr ⟨_, h, rfl⟩, rfl, rfl, rfl, _, rfl,
    List.mem_cons_self⟩

/-- The first provider of the list is usable, and the second one is selected. -/
theorem second_provider_selected :
    Usable sampleProviders (lit "b") ∧
      ∃ provider, providerForTarget (samplePriorityBody "b" "a") (lit "m") = .ok provider ∧
        providerIdent provider = lit "a" ∧
        ¬ FirstUsable sampleProviders [lit "b", lit "a"] (providerIdent provider) := by
  have husable : Usable sampleProviders (lit "b") :=
    usable_sampleProvider "b" (List.mem_cons_of_mem _ List.mem_cons_self)
  have hselected : (providerForTarget (samplePriorityBody "b" "a") (lit "m")).toOption.map
      providerIdent = some (lit "a") := by
    decide +kernel
  obtain ⟨provider, h⟩ := exists_of_isOk
    (by decide +kernel : (providerForTarget (samplePriorityBody "b" "a") (lit "m")).isOk = true)
  rw [h] at hselected
  have hident : providerIdent provider = lit "a" := Option.some.inj hselected
  refine ⟨husable, provider, h, hident, ?_⟩
  intro hfirst
  have heq := hfirst.unique (⟨[], [lit "a"], rfl, husable, nofun⟩ :
    FirstUsable sampleProviders [lit "b", lit "a"] (lit "b"))
  rw [hident] at heq
  exact absurd heq (by decide)

end Sample

end MediaBridge.Gateway
