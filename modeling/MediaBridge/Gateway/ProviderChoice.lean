import MediaBridge.Foundation.Collect
import MediaBridge.Gateway.ProviderRouting
import Mathlib.Data.List.Find

/-!
# Which provider serves a model

When `_provider_for_target` chooses a provider, and which one, in terms of the records of
the snapshot alone. Priority, health and cost are the same for every provider, so that
all strategies choose the least identifier.
-/

namespace MediaBridge.Gateway

open Foundation ProviderRouting

/-- The identifier of a provider record. -/
def providerIdent (provider : Entries Str Json) : Str :=
  ((Json.field provider "id").str?).getD []

/-- The capabilities of a provider can be read, and text is among them. -/
def OffersText (provider : Entries Str Json) : Prop :=
  ∃ capabilities, capabilitySet provider = .ok capabilities ∧
    .str (lit "text") ∈ capabilities

/-- The first provider with the least identifier of those that offer text. -/
structure Chosen (found : List (Entries Str Json)) (provider : Entries Str Json) : Prop where
  collectable : ∀ other ∈ found, ∃ capabilities, capabilitySet other = .ok capabilities
  first : found.find? (fun other => decide (providerIdent other = providerIdent provider)) =
    some provider
  offered : ∃ other ∈ found, providerIdent other = providerIdent provider ∧ OffersText other
  least : ∀ other ∈ found, OffersText other → providerIdent provider ≤ providerIdent other
  complete : complete provider = true

/-- A provider serves a model. -/
structure ServedBy (profiles : Json) (providers : List Json)
    (model provider : Entries Str Json) : Prop where
  idsHashable : ∀ other ∈ objects providers, (Json.field other "id").hashable = true
  strategyHashable : ∀ profile ∈ profileOf profiles model,
    (Json.field profile "strategy").hashable = true
  chosen : Chosen ((objects providers).filter
    (serves (providerIds (profileOf profiles model) model))) provider

namespace ProviderRouting

theorem serves_iff {ids : List Str} {provider : Entries Str Json} :
    serves ids provider = true ↔ (∃ id ∈ ids, (Json.field provider "id").str? = some id) ∧
      (Json.field provider "kind").isLit "llm" = true ∧
      (Json.field provider "enabled").isTrue = true := by
  rw [serves, Bool.and_eq_true, Bool.and_eq_true, and_assoc]
  apply and_congr_left'
  cases (Json.field provider "id").str? with
  | none => simp
  | some id => simp

/-- Which identifiers a provider may serve for does not matter otherwise. -/
theorem serves_of_serves {ids ids' : List Str} {provider : Entries Str Json}
    (h : serves ids provider = true) (hmem : providerIdent provider ∈ ids') :
    serves ids' provider = true := by
  obtain ⟨⟨id, -, hid⟩, hrest⟩ := serves_iff.mp h
  refine serves_iff.mpr ⟨⟨_, hmem, ?_⟩, hrest⟩
  rw [providerIdent, hid]
  rfl

/-- A provider that may serve has its identifier. -/
theorem str?_of_serves {ids : List Str} {provider : Entries Str Json}
    (h : serves ids provider = true) :
    (Json.field provider "id").str? = some (providerIdent provider) := by
  obtain ⟨⟨id, -, hid⟩, -⟩ := serves_iff.mp h
  rw [providerIdent, hid]
  rfl

theorem providerIdent_mem {ids : List Str} {provider : Entries Str Json}
    (h : serves ids provider = true) : providerIdent provider ∈ ids := by
  obtain ⟨⟨id, hmem, hid⟩, -⟩ := serves_iff.mp h
  rw [providerIdent, hid]
  exact hmem

theorem truthy_of_isTrue {v : Json} (h : v.isTrue = true) : v.truthy = true := by
  cases v with
  | bool b => exact h
  | null | int _ | float _ | str _ | arr _ | obj _ => cases h

/-- The candidate for a provider whose capabilities can be read. -/
theorem candidateOf_eq_ok_iff {provider : Entries Str Json} {c : ProviderRouteCandidate} :
    candidateOf provider = .ok c ↔ ∃ capabilities, capabilitySet provider = .ok capabilities ∧
      c = ⟨providerIdent provider, (Json.field provider "enabled").truthy, capabilities,
        0, true, 0⟩ := by
  constructor
  · intro h
    obtain ⟨capabilities, hcapabilities, h⟩ := ok_of_bind h
    cases h
    exact ⟨capabilities, hcapabilities, rfl⟩
  · rintro ⟨capabilities, hcapabilities, rfl⟩
    rw [candidateOf, hcapabilities]
    rfl

/-- A candidate of an enabled provider is eligible when text is offered. -/
theorem eligible_iff {provider : Entries Str Json} {c : ProviderRouteCandidate}
    (hc : candidateOf provider = .ok c) (henabled : (Json.field provider "enabled").isTrue = true) :
    c.eligible (lit "text") = true ↔ OffersText provider := by
  obtain ⟨capabilities, hcapabilities, rfl⟩ := candidateOf_eq_ok_iff.mp hc
  have hoffers : (∃ v ∈ capabilities, v.str? = some (lit "text")) ↔
      .str (lit "text") ∈ capabilities := by
    constructor
    · rintro ⟨v, hv, htext⟩
      rwa [← (Json.str?_eq_some_iff v _).mp htext]
    · exact fun h => ⟨_, h, rfl⟩
  rw [ProviderRouteCandidate.eligible, truthy_of_isTrue henabled, ProviderRouteCandidate.offers]
  simp only [Bool.true_and, List.any_eq_true, decide_eq_true_eq, hoffers, OffersText,
    hcapabilities, Except.ok.injEq, exists_eq_left']

/-- Only the identifiers of candidates differ. -/
theorem key_le_iff {p q : Entries Str Json} {c d : ProviderRouteCandidate}
    (strategy : RoutingStrategy) (hc : candidateOf p = .ok c) (hd : candidateOf q = .ok d) :
    c.key strategy ≤ d.key strategy ↔ providerIdent p ≤ providerIdent q := by
  obtain ⟨capabilities, -, rfl⟩ := candidateOf_eq_ok_iff.mp hc
  obtain ⟨capabilities', -, rfl⟩ := candidateOf_eq_ok_iff.mp hd
  cases strategy <;> simp [ProviderRouteCandidate.key, ProviderRouteCandidate.rank,
    Prod.Lex.toLex_le_toLex]

/-- The candidate that is selected has the least identifier of those that offer text. -/
theorem selectProvider_eq_some_iff {strategy : RoutingStrategy}
    {found : List (Entries Str Json)} {candidates : List ProviderRouteCandidate}
    (henabled : ∀ p ∈ found, (Json.field p "enabled").isTrue = true)
    (hcandidates : found.mapM candidateOf = .ok candidates) (id : Str) :
    (∃ chosen, selectProvider candidates (lit "text") strategy = some chosen ∧
        chosen.providerId = id) ↔
      (∃ p ∈ found, providerIdent p = id ∧ OffersText p) ∧
        ∀ p ∈ found, OffersText p → id ≤ providerIdent p := by
  have hmem (c : ProviderRouteCandidate) :
      c ∈ candidates.filter (·.eligible (lit "text")) ↔
        ∃ p ∈ found, candidateOf p = .ok c ∧ OffersText p := by
    rw [List.mem_filter, mem_iff_of_mapM_ok hcandidates]
    constructor
    · rintro ⟨⟨p, hp, hc⟩, heligible⟩
      exact ⟨p, hp, hc, (eligible_iff hc (henabled p hp)).mp heligible⟩
    · rintro ⟨p, hp, hc, hoffers⟩
      exact ⟨⟨p, hp, hc⟩, (eligible_iff hc (henabled p hp)).mpr hoffers⟩
  have hident {p : Entries Str Json} {c : ProviderRouteCandidate}
      (hc : candidateOf p = .ok c) : c.providerId = providerIdent p := by
    obtain ⟨_, -, rfl⟩ := candidateOf_eq_ok_iff.mp hc
    rfl
  have hcandidate (p : Entries Str Json) (hp : p ∈ found) : ∃ c, candidateOf p = .ok c := by
    obtain ⟨c, -, hc⟩ := exists_of_mapM_ok hcandidates hp
    exact ⟨c, hc⟩
  constructor
  · rintro ⟨chosen, hchosen, rfl⟩
    obtain ⟨p, hp, hc, hoffers⟩ := (hmem chosen).mp (List.argmin_mem hchosen)
    refine ⟨⟨p, hp, (hident hc).symm, hoffers⟩, fun q hq hq' => ?_⟩
    obtain ⟨d, hd⟩ := hcandidate q hq
    have hle := List.le_of_mem_argmin ((hmem d).mpr ⟨q, hq, hd, hq'⟩) hchosen
    rw [hident hc]
    exact (key_le_iff strategy hc hd).mp hle
  · rintro ⟨⟨p, hp, rfl, hoffers⟩, hleast⟩
    obtain ⟨c, hc⟩ := hcandidate p hp
    have hcmem := (hmem c).mpr ⟨p, hp, hc, hoffers⟩
    cases hselect : selectProvider candidates (lit "text") strategy with
    | none =>
        rw [List.argmin_eq_none.mp hselect] at hcmem
        cases hcmem
    | some chosen =>
        obtain ⟨q, hq, hd, hq'⟩ := (hmem chosen).mp (List.argmin_mem hselect)
        have hle := List.le_of_mem_argmin hcmem hselect
        refine ⟨chosen, rfl, ?_⟩
        rw [hident hd]
        exact le_antisymm ((key_le_iff strategy hd hc).mp hle) (hleast q hq hq')

/-- The choice among providers that may serve. -/
theorem chooseProvider_eq_ok_iff {strategy : RoutingStrategy} {ids : List Str}
    {found : List (Entries Str Json)} (hfound : ∀ p ∈ found, serves ids p = true)
    {provider : Entries Str Json} :
    chooseProvider strategy found = .ok provider ↔ Chosen found provider := by
  have henabled (p : Entries Str Json) (hp : p ∈ found) :
      (Json.field p "enabled").isTrue = true := (serves_iff.mp (hfound p hp)).2.2
  have hfind (id : Str) : (found.find? fun p => decide ((Json.field p "id").str? = some id)) =
      found.find? fun p => decide (providerIdent p = id) := by
    refine List.find?_congr fun p hp => ?_
    rw [str?_of_serves (hfound p hp), decide_eq_decide, Option.some_inj]
  constructor
  · intro h
    obtain ⟨candidates, hcandidates, h⟩ := ok_of_bind h
    cases hselect : selectProvider candidates (lit "text") strategy with
    | none =>
        rw [hselect] at h
        cases h
    | some chosen =>
        simp only [hselect, hfind] at h
        split at h
        · cases h
        · rename_i p hp
          split at h
          · rename_i hcomplete
            cases h
            have hfirst := List.find?_some hp
            have hident : providerIdent provider = chosen.providerId := of_decide_eq_true hfirst
            obtain ⟨hoffered, hleast⟩ :=
              (selectProvider_eq_some_iff henabled hcandidates _).mp ⟨chosen, hselect, rfl⟩
            rw [← hident] at hoffered hleast hp
            refine ⟨fun other hother => ?_, hp, hoffered, hleast, hcomplete⟩
            obtain ⟨c, -, hc⟩ := exists_of_mapM_ok hcandidates hother
            obtain ⟨capabilities, hcapabilities, -⟩ := candidateOf_eq_ok_iff.mp hc
            exact ⟨capabilities, hcapabilities⟩
          · cases h
  · intro h
    obtain ⟨candidates, hcandidates⟩ : ∃ candidates, found.mapM candidateOf = .ok candidates := by
      apply exists_mapM_ok
      intro p hp
      obtain ⟨capabilities, hcapabilities⟩ := h.collectable p hp
      exact ⟨_, candidateOf_eq_ok_iff.mpr ⟨capabilities, hcapabilities, rfl⟩⟩
    obtain ⟨chosen, hselect, hident⟩ : ∃ chosen,
        selectProvider candidates (lit "text") strategy = some chosen ∧
          chosen.providerId = providerIdent provider :=
      (selectProvider_eq_some_iff henabled hcandidates _).mpr ⟨h.offered, h.least⟩
    simp only [chooseProvider, hcandidates, bind, Except.bind, hselect, hfind, hident, h.first,
      h.complete, if_true]

theorem hashable_of_strategyOf {profile : Option (Entries Str Json)}
    {strategy : RoutingStrategy} (h : strategyOf profile = .ok strategy) :
    ∀ p ∈ profile, (Json.field p "strategy").hashable = true := by
  rintro p rfl
  by_contra hno
  rw [Bool.not_eq_true] at hno
  simp [strategyOf, hno] at h

theorem exists_strategyOf {profile : Option (Entries Str Json)}
    (h : ∀ p ∈ profile, (Json.field p "strategy").hashable = true) :
    ∃ strategy, strategyOf profile = .ok strategy := by
  cases profile with
  | none => exact ⟨.priority, rfl⟩
  | some p =>
      rw [strategyOf]
      simp only [h p rfl, Bool.not_true, Bool.false_eq_true, if_false]
      split_ifs <;> exact ⟨_, rfl⟩

/-- The choice of a provider for a model record. -/
theorem providerForModel_eq_ok_iff {profiles : Json} {providers : List Json}
    {model provider : Entries Str Json} :
    providerForModel profiles providers model = .ok provider ↔
      ServedBy profiles providers model provider := by
  have hserves (p : Entries Str Json) (hp : p ∈ (objects providers).filter
      (serves (providerIds (profileOf profiles model) model))) :=
    (List.mem_filter.mp hp).2
  constructor
  · intro h
    obtain ⟨found, hfound, h⟩ := ok_of_bind h
    unfold providerMatches at hfound
    split at hfound
    · rename_i hids
      cases hfound
      split at h
      · cases h
      · obtain ⟨strategy, hstrategy, h⟩ := ok_of_bind h
        refine ⟨List.all_eq_true.mp hids, ?_, (chooseProvider_eq_ok_iff hserves).mp h⟩
        exact hashable_of_strategyOf hstrategy
    · cases hfound
  · rintro ⟨hids, hhashable, hchosen⟩
    obtain ⟨strategy, hstrategy⟩ := exists_strategyOf hhashable
    have hmatches : providerMatches (providerIds (profileOf profiles model) model) providers =
        .ok ((objects providers).filter
          (serves (providerIds (profileOf profiles model) model))) :=
      if_pos (List.all_eq_true.mpr hids)
    obtain ⟨other, hother, -⟩ := hchosen.offered
    rw [providerForModel]
    simp only [hmatches, hstrategy, bind, Except.bind]
    rw [if_neg (by simpa using List.ne_nil_of_mem hother)]
    exact (chooseProvider_eq_ok_iff hserves).mpr hchosen

end ProviderRouting

/-- The provider that serves a model is an enabled one of its profile. -/
theorem ServedBy.serves {profiles : Json} {providers : List Json}
    {model provider : Entries Str Json} (h : ServedBy profiles providers model provider) :
    ProviderRouting.serves (providerIds (profileOf profiles model) model) provider = true :=
  (List.mem_filter.mp (List.mem_of_find?_eq_some h.chosen.first)).2

end MediaBridge.Gateway
