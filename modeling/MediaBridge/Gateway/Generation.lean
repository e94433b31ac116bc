import MediaBridge.Gateway.Auth
import MediaBridge.Gateway.ProviderRouting

/-!
# Generations of the gateway

`media_bridge_gateway/runtime.py`: what the gateway builds from one verified snapshot, and
the model that it chooses for `auto`; and `_resolve_public_request` of
`media_bridge_gateway/app.py`, which reads it.

## Implementation notes

The factories of the gate and of the downstream are those of
`media_bridge_gateway/entrypoints.py`. The service of a generation wraps the same gate,
and the state store is shared by all generations, so neither is kept here.
-/

namespace MediaBridge.Gateway

open Foundation MediaBridge.Core ProviderRouting

/-- `ProviderResponsesDownstream`, as far as it comes from a snapshot. -/
structure ProviderResponsesDownstream where
  snapshot : Entries Str Json
  signer : GateReceiptSigner

structure GatewayGeneration where
  version : Int
  snapshotId : Str
  snapshotDigest : Str
  gate : PreRequestGate
  downstream : ProviderResponsesDownstream
  credentialVerifier : SnapshotCredentialVerifier
  transaction : GatewayTransaction
  models : List Str
  autoModel : Option Str

namespace Generation

/-- The identifiers of the enabled text providers. -/
def enabledLlmIds (providers : List Json) : List Str :=
  (objects providers).filterMap fun provider =>
    if (Json.field provider "kind").isLit "llm" && (Json.field provider "enabled").isTrue then
      (Json.field provider "id").str?
    else none

/-- The identifier of the profile of a model. -/
def autoRouteId (profiles : List Json) (model : Entries Str Json) : Json :=
  match Json.field model "routing_profile_id" with
  | .str id => .str id
  | _ =>
      match defaultProfile profiles with
      | some route => Json.field route "id"
      | none => .null

/-- The profile of a model. -/
def autoRoute (profiles : List Json) (model : Entries Str Json) : Option (Entries Str Json) :=
  (objects profiles).find? fun candidate =>
    Json.equal (Json.field candidate "id") (autoRouteId profiles model)

/-- The profile of a model names an enabled text provider. -/
def hasProvider (providers profiles : List Json) (model : Entries Str Json) : Bool :=
  (providerIds (autoRoute profiles model) model).any fun id =>
    decide (id ∈ enabledLlmIds providers)

/-- The list, or an empty one. -/
def listOr : Json → List Json
  | .arr items => items
  | _ => []

/-- `_auto_model_for_snapshot`. -/
def autoModelForSnapshot (models : List Json) (providers profiles : Json)
    (publicModels : List Str) : Option Str :=
  match providers with
  | .arr providers =>
      (objects models).findSome? fun model =>
        match (Json.field model "id").str? with
        | none => none
        | some id =>
            if id ∈ publicModels ∧ hasProvider providers (listOr profiles) model = true then
              some id
            else none
  | _ => none

/-- The model records of a snapshot; none when there is no list of them. -/
def registryModelList (body : Entries Str Json) : List Json := (registryModels body).getD []

/-- The name that an entry of the public list stands for. -/
def publicName : Json → Option Str
  | .str s => if s.isEmpty then none else some s
  | .obj item => ((Json.field item "id").str?).filter fun s => !s.isEmpty
  | _ => none

/-- The public models: a list of their own, or the identifiers of the registry. -/
def publicModels (body : Entries Str Json) : List Str :=
  let configured :=
    match Entries.get? body (lit "models") with
    | some v => listOr v
    | none => registryModelList body
  configured.filterMap publicName

/-- The model for `auto`. -/
def autoModel (body : Entries Str Json) : Option Str :=
  autoModelForSnapshot (registryModelList body) (Json.field body "providers")
    (Json.field body "routing_profiles") (publicModels body)

end Generation

/-- What the factories of all generations share. -/
structure GatewayTransactionFactory where
  reader : FieldReader
  unicode : UnicodeData
  platform : Platform
  setOrder : SetOrder
  backends : Backends
  signer : GateReceiptSigner
  pepper : Bytes

namespace GatewayTransactionFactory

/-- `gate_factory`; `none` is an exception. -/
def gateFactory (F : GatewayTransactionFactory) (snapshot : SignedSnapshot) :
    Option PreRequestGate :=
  (RuntimeSnapshot.capabilityRegistryFromSnapshot F.reader snapshot.body).map fun registry =>
    ⟨F.unicode, F.platform, F.setOrder, registry, F.backends, F.signer⟩

/-- `downstream_factory`. -/
def downstreamFactory (F : GatewayTransactionFactory) (snapshot : SignedSnapshot) :
    ProviderResponsesDownstream :=
  ⟨snapshot.body, F.signer⟩

/-- `build`; `none` is an exception. -/
def build (F : GatewayTransactionFactory) (snapshot : SignedSnapshot) :
    Option GatewayGeneration := do
  let gate ← F.gateFactory snapshot
  let verifier ← SnapshotCredentialVerifier.build F.reader snapshot.body F.pepper
  return {
    version := snapshot.version
    snapshotId := snapshot.snapshotId
    snapshotDigest := snapshot.digest.value
    gate := gate
    downstream := F.downstreamFactory snapshot
    credentialVerifier := verifier
    transaction := ⟨gate, F.signer, snapshot.version.toNat⟩
    models := Generation.publicModels snapshot.body
    autoModel := Generation.autoModel snapshot.body }

/-- What a generation is, when it is built. -/
theorem build_eq_some {F : GatewayTransactionFactory} {snapshot : SignedSnapshot}
    {generation : GatewayGeneration} (h : F.build snapshot = some generation) :
    ∃ gate verifier, F.gateFactory snapshot = some gate ∧
      SnapshotCredentialVerifier.build F.reader snapshot.body F.pepper = some verifier ∧
      generation = ⟨snapshot.version, snapshot.snapshotId, snapshot.digest.value, gate,
        F.downstreamFactory snapshot, verifier, ⟨gate, F.signer, snapshot.version.toNat⟩,
        Generation.publicModels snapshot.body, Generation.autoModel snapshot.body⟩ := by
  obtain ⟨gate, hgate, h⟩ := Option.bind_eq_some_iff.mp h
  obtain ⟨verifier, hverifier, h⟩ := Option.bind_eq_some_iff.mp h
  cases h
  exact ⟨gate, verifier, hgate, hverifier, rfl⟩

theorem version_of_build {F : GatewayTransactionFactory} {snapshot : SignedSnapshot}
    {generation : GatewayGeneration} (h : F.build snapshot = some generation) :
    generation.version = snapshot.version := by
  obtain ⟨gate, verifier, -, -, rfl⟩ := build_eq_some h
  rfl

end GatewayTransactionFactory

/-- Why a request is not resolved. -/
inductive PublicRequestError
  | gatewayUnavailable
  | lookup (code : String)
  | valueError (message : String)
  | typeError
deriving DecidableEq

/-- `effort is not None and effort not in {"low", "medium", "high"}` does not raise. -/
def checkEffort (effort : Json) : Except PublicRequestError Unit :=
  if effort.isNull then .ok ()
  else if !effort.hashable then .error .typeError
  else if effort.isLit "low" || effort.isLit "medium" || effort.isLit "high" then .ok ()
  else .error (.valueError "reasoning_effort must be low, medium, or high")

/-- The payload with the model that the request names, or the one for `auto`. -/
def namePublicModel (payload : Entries Str Json) (generation : GatewayGeneration) :
    Except PublicRequestError (Entries Str Json) :=
  let requested := Json.field payload "model"
  if requested.isNull || requested.isLit "auto" then
    match generation.autoModel with
    | none => .error (.lookup "model_unavailable")
    | some model => .ok (Entries.set payload (lit "model") (.str model))
  else if (requested.str?).any fun name => decide (name ∈ generation.models) then .ok payload
  else .error (.lookup "model_not_found")

/-- `_resolve_public_request`. -/
def resolvePublicRequest (payload : Json) (generation : Option GatewayGeneration) :
    Except PublicRequestError (Entries Str Json) :=
  match generation with
  | none => .error .gatewayUnavailable
  | some generation =>
      match payload with
      | .obj fields => do
          let resolved ← namePublicModel fields generation
          checkEffort (Json.field resolved "reasoning_effort")
          return resolved
      | _ => .error (.valueError "request must be an object")

end MediaBridge.Gateway
