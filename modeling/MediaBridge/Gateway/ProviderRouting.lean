import MediaBridge.Foundation.JsonEqual
import Mathlib.Algebra.Order.Ring.Rat
import Mathlib.Data.Int.Order.Basic
import Mathlib.Data.List.Lex
import Mathlib.Data.List.MinMax
import Mathlib.Data.Prod.Lex
import Mathlib.Order.Fin.Basic

/-!
# The provider of a target model

`media_bridge_gateway/provider_selection.py`, and `_provider_for_target` of
`media_bridge_gateway/downstream.py`: from the body of a snapshot and the name of a
model to the provider record that serves it.

## Implementation notes

A snapshot is signed but its providers and routing profiles are not validated, so every
field is read as the JSON value it is. A value without a hash makes a membership test in
a set raise `TypeError`.
-/

namespace MediaBridge.Gateway

open Foundation

inductive RoutingStrategy
  | priority
  | fallback
  | health
  | cost
deriving DecidableEq

structure ProviderRouteCandidate where
  providerId : Str
  enabled : Bool
  capabilities : List Json
  priority : Int := 0
  healthy : Bool := true
  estimatedCost : ℚ := 0

namespace ProviderRouteCandidate

/-- `capability in candidate.capabilities`. -/
def offers (c : ProviderRouteCandidate) (capability : Str) : Bool :=
  c.capabilities.any fun v => decide (v.str? = some capability)

/-- Enabled, healthy and capable. -/
def eligible (c : ProviderRouteCandidate) (capability : Str) : Bool :=
  c.enabled && c.healthy && c.offers capability

/-- What a strategy compares first. -/
def rank (strategy : RoutingStrategy) (c : ProviderRouteCandidate) : ℚ :=
  match strategy with
  | .cost => c.estimatedCost
  | .health => if c.healthy then 0 else 1
  | .priority | .fallback => 0

/-- The key of `min`. -/
def key (strategy : RoutingStrategy) (c : ProviderRouteCandidate) : ℚ ×ₗ Int ×ₗ Str :=
  toLex (c.rank strategy, toLex (c.priority, c.providerId))

/-- The keys are compared component by component. -/
instance keyOrder : LinearOrder (ℚ ×ₗ Int ×ₗ Str) :=
  @Prod.Lex.instLinearOrder ℚ (Int ×ₗ Str) Rat.linearOrder
    (@Prod.Lex.instLinearOrder Int Str Int.instLinearOrder _)

instance keyPreorder : Preorder (ℚ ×ₗ Int ×ₗ Str) := keyOrder.toPreorder

end ProviderRouteCandidate

/-- `select_provider`; `none` is the `ProviderSelectionError`. -/
def selectProvider (candidates : List ProviderRouteCandidate) (requiredCapability : Str)
    (strategy : RoutingStrategy) : Option ProviderRouteCandidate :=
  (candidates.filter (·.eligible requiredCapability)).argmin (·.key strategy)

/-- Why no provider is chosen. `unavailable` is the `DownstreamError`
`model_provider_unavailable`. -/
inductive RoutingError
  | unavailable (message : String)
  | typeError
deriving DecidableEq

namespace ProviderRouting

def noUniqueProvider : RoutingError :=
  .unavailable "No unique Provider is configured for the target model."

def noHealthyProvider : RoutingError :=
  .unavailable "No healthy Provider can serve this model."

/-- The dictionaries in a list. -/
def objects (items : List Json) : List (Entries Str Json) := items.filterMap Json.obj?

/-- A model record has the name as its identifier or among its aliases. -/
def names (model : Entries Str Json) (targetId : Str) : Bool :=
  decide ((Json.field model "id").str? = some targetId) ||
    match Json.field model "aliases" with
    | .arr items => items.any fun v => decide (v.str? = some targetId)
    | _ => false

/-- The profile that is used where a model names none. -/
def defaultProfile (profiles : List Json) : Option (Entries Str Json) :=
  (objects profiles).find? fun profile => !(Json.field profile "enabled").isFalse

/-- The first profile with an identifier. -/
def profileById (profiles : List Json) (id : Str) : Option (Entries Str Json) :=
  (objects profiles).find? fun profile => decide ((Json.field profile "id").str? = some id)

/-- `routing_profile_id`, when it is a string. -/
def routingProfileId (profiles : Json) (model : Entries Str Json) : Option Str :=
  match Json.field model "routing_profile_id", profiles with
  | .str id, _ => some id
  | _, .arr items => (defaultProfile items).bind fun profile => (Json.field profile "id").str?
  | _, _ => none

/-- The profile of a model. -/
def profileOf (profiles : Json) (model : Entries Str Json) : Option (Entries Str Json) :=
  match routingProfileId profiles model, profiles with
  | some id, .arr items => profileById items id
  | _, _ => none

/-- The providers that may serve a model: those of its profile, or its own. -/
def providerIds (profile : Option (Entries Str Json)) (model : Entries Str Json) : List Str :=
  match profile.map fun p => Json.field p "llm_provider_ids" with
  | some (.arr items) => items.filterMap Json.str?
  | _ => ((Json.field model "provider_id").str?).toList

/-- An enabled text provider with one of the identifiers. -/
def serves (ids : List Str) (provider : Entries Str Json) : Bool :=
  ((Json.field provider "id").str?).any (fun id => decide (id ∈ ids)) &&
    (Json.field provider "kind").isLit "llm" && (Json.field provider "enabled").isTrue

/-- The providers with one of the identifiers, in the order of the snapshot. -/
def providerMatches (ids : List Str) (providers : List Json) :
    Except RoutingError (List (Entries Str Json)) :=
  if (objects providers).all fun provider => (Json.field provider "id").hashable then
    .ok ((objects providers).filter (serves ids))
  else .error .typeError

/-- The strategy of a profile. -/
def strategyOf (profile : Option (Entries Str Json)) : Except RoutingError RoutingStrategy :=
  match profile with
  | none => .ok .priority
  | some p =>
      let v := Json.field p "strategy"
      if !v.hashable then .error .typeError
      else if v.isLit "fallback" then .ok .fallback
      else if v.isLit "health" then .ok .health
      else if v.isLit "cost" then .ok .cost
      else .ok .priority

/-- `frozenset(item.get("capabilities", []) or (["text"] if kind == "llm" else []))`. -/
def capabilitySet (provider : Entries Str Json) : Except RoutingError (List Json) :=
  let v := Json.field provider "capabilities"
  if !v.truthy then
    .ok (if (Json.field provider "kind").isLit "llm" then [.str (lit "text")] else [])
  else
    match v with
    | .arr items => if items.all Json.hashable then .ok items else .error .typeError
    | .obj fields => .ok ((Entries.keys fields).map .str)
    | .str s => .ok (s.map fun c => .str [c])
    | _ => .error .typeError

/-- The candidate for a provider. -/
def candidateOf (provider : Entries Str Json) : Except RoutingError ProviderRouteCandidate := do
  let capabilities ← capabilitySet provider
  return {
    providerId := ((Json.field provider "id").str?).getD []
    enabled := (Json.field provider "enabled").truthy
    capabilities := capabilities }

/-- The fields that a chosen provider must have. -/
def requiredFields : List String := ["catalog_id", "protocol", "endpoint", "model_id"]

/-- `isinstance(provider.get(key), str) and provider[key]` for all of them. -/
def complete (provider : Entries Str Json) : Bool :=
  requiredFields.all fun key => ((Json.field provider key).str?).any fun s => !s.isEmpty

/-- The choice among the providers that may serve. -/
def chooseProvider (strategy : RoutingStrategy) (found : List (Entries Str Json)) :
    Except RoutingError (Entries Str Json) := do
  let candidates ← found.mapM candidateOf
  match selectProvider candidates (lit "text") strategy with
  | none => .error noHealthyProvider
  | some chosen =>
      match found.find? fun p =>
          decide ((Json.field p "id").str? = some chosen.providerId) with
      | none => .error noUniqueProvider
      | some provider => if complete provider then .ok provider else .error noUniqueProvider

/-- The provider of one model record. -/
def providerForModel (profiles : Json) (providers : List Json) (model : Entries Str Json) :
    Except RoutingError (Entries Str Json) := do
  let profile := profileOf profiles model
  let found ← providerMatches (providerIds profile model) providers
  if found.isEmpty then .error noUniqueProvider
  else do
    let strategy ← strategyOf profile
    chooseProvider strategy found

/-- The list of model records in a snapshot. -/
def registryModels (body : Entries Str Json) : Option (List Json) :=
  match Json.field body "registry" with
  | .obj registry =>
      match Json.field registry "models" with
      | .arr models => some models
      | _ => none
  | _ => none

/-- `_provider_for_target`. -/
def providerForTarget (body : Entries Str Json) (targetId : Str) :
    Except RoutingError (Entries Str Json) :=
  match registryModels body, Json.field body "providers" with
  | some models, .arr providers =>
      match (objects models).filter (names · targetId) with
      | [model] => providerForModel (Json.field body "routing_profiles") providers model
      | _ => .error noUniqueProvider
  | _, _ => .error noUniqueProvider

end ProviderRouting

end MediaBridge.Gateway
