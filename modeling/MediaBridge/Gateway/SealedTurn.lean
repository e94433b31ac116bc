import MediaBridge.Core.NormalizedRequest
import MediaBridge.Gateway.Transaction

/-!
# Sealed turns

A `SealedTurn` is a turn of one transaction up to the provider: the payload, the
normalized request, what the gate prepared, and the sealed request, each with
the equation that makes it the result of the step before.
-/

namespace MediaBridge.Gateway

open Foundation MediaBridge.Core

/-- A turn that has been normalized, gated and sealed. -/
structure SealedTurn (tx : GatewayTransaction) where
  budget : Nat
  payload : Entries Str Json
  state : Option ResponsesStateRecord
  normalized : NormalizedResponsesRequest
  now : Instant
  gateSignedAt : ℚ
  tenantId : Str
  outcome : GateOutcome
  prepared : DownstreamPayload
  verifiedAt : ℚ
  signedAt : ℚ
  entropy : { data : Bytes // data.length = 18 }
  sealedRequest : SealedGatewayRequest
  normalized_eq : OpenaiResponses.normalizeResponsesRequest tx.gate.unicode budget
    (.obj payload) state = .ok normalized
  outcome_eq : tx.gate.prepareForModel now gateSignedAt tenantId normalized.request =
    .ok outcome
  prepared_eq : outcome.prepared = some prepared
  sealed_eq : tx.sealRequest verifiedAt signedAt entropy payload normalized prepared =
    .ok sealedRequest

/-- One turn with all clocks at time zero; `none` when a step refuses or raises. -/
def SealedTurn.run (tx : GatewayTransaction) (budget : Nat) (payload : Entries Str Json)
    (state : Option ResponsesStateRecord) (tenantId : Str)
    (entropy : { data : Bytes // data.length = 18 }) : Option (SealedTurn tx) :=
  match hn : OpenaiResponses.normalizeResponsesRequest tx.gate.unicode budget (.obj payload)
      state with
  | .error _ => none
  | .ok normalized =>
      match ho : tx.gate.prepareForModel 0 0 tenantId normalized.request with
      | .error _ => none
      | .ok outcome =>
          match hp : outcome.prepared with
          | none => none
          | some prepared =>
              match hs : tx.sealRequest 0 0 entropy payload normalized prepared with
              | .error _ => none
              | .ok request =>
                  some ⟨budget, payload, state, normalized, 0, 0, tenantId, outcome, prepared,
                    0, 0, entropy, request, hn, ho, hp, hs⟩

namespace GatewayTransaction

variable {tx : GatewayTransaction}

/-- What a sealed request consists of. -/
structure SealedFrom (tx : GatewayTransaction) (signedAt : ℚ)
    (entropy : { data : Bytes // data.length = 18 }) (payload : Entries Str Json)
    (normalized : NormalizedResponsesRequest) (prepared : DownstreamPayload)
    (request : SealedGatewayRequest) : Prop where
  payload : buildDownstreamPayload payload normalized prepared = some request.payload
  targetId : request.targetId = prepared.targetId
  capability : request.capability = prepared.capability
  action : request.action = prepared.action
  nonce : request.requestNonce = requestNonce entropy
  outputDigest : sealedDigest tx.gate.platform request.payload request.requestNonce =
    some request.outputDigest
  inputDigest : ∃ value, digestGatewayPayload tx.gate.platform value = some request.inputDigest
  receipt : Receipts.sign tx.gate.platform tx.signer signedAt request.binding 30 =
    some request.receipt

theorem sealing_eq_ok {α : Type} {x : Option α} {a : α} : sealing x = .ok a ↔ x = some a := by
  cases x <;> simp [sealing]

theorem sealedFrom_of_ok {verifiedAt signedAt : ℚ}
    {entropy : { data : Bytes // data.length = 18 }} {payload : Entries Str Json}
    {normalized : NormalizedResponsesRequest} {prepared : DownstreamPayload}
    {request : SealedGatewayRequest}
    (h : tx.sealRequest verifiedAt signedAt entropy payload normalized prepared =
      .ok request) :
    SealedFrom tx signedAt entropy payload normalized prepared request := by
  obtain ⟨⟨⟩, -, h⟩ := ok_of_bind h
  obtain ⟨downstream, hdownstream, h⟩ := ok_of_bind h
  obtain ⟨inputDigest, hinput, h⟩ := ok_of_bind h
  obtain ⟨outputDigest, houtput, h⟩ := ok_of_bind h
  obtain ⟨receipt, hreceipt, h⟩ := ok_of_bind h
  cases h
  exact ⟨sealing_eq_ok.mp hdownstream, rfl, rfl, rfl, rfl, sealing_eq_ok.mp houtput,
    ⟨_, sealing_eq_ok.mp hinput⟩, sealing_eq_ok.mp hreceipt⟩

/-- A fresh nonce has the length and the letters the guard asks for. -/
theorem noncePattern_requestNonce (entropy : { data : Bytes // data.length = 18 }) :
    noncePattern (requestNonce entropy) = true := by
  have hlength : (requestNonce entropy).length = 24 := by
    have h := Base64.encodeUrl_length entropy.val
    rw [entropy.property] at h
    exact h
  have hletters : ∀ c ∈ requestNonce entropy, urlSafeChar c = true :=
    Base64.forall_mem_encodeUrl (by decide) entropy.val
  simp only [noncePattern, Bool.and_eq_true, decide_eq_true_eq, List.all_eq_true]
  exact ⟨⟨by omega, by omega⟩, hletters⟩

theorem encodable_of_digest {P : Platform} {value : Json} {digest : Str}
    (h : digestGatewayPayload P value = some digest) : Str.encodable digest = true := by
  obtain ⟨text, -, h⟩ := Option.bind_eq_some_iff.mp h
  obtain ⟨data, -, h⟩ := Option.bind_eq_some_iff.mp h
  cases h
  exact Str.encodable_of_ascii (hexText_ascii _)

/-- The value of the model field is the target, in both kinds of payload, and the
earlier response is not named any more. -/
structure Forwarded (payload : Entries Str Json) (targetId : Str) : Prop where
  model : Json.field payload "model" = .str targetId
  noPrevious : Json.field payload "previous_response_id" = .null
  noConversation : Json.field payload "conversation" = .null

theorem get?_copiedEntries (payload : Entries Str Json) (key : Str) :
    Entries.get? (copiedEntries payload) key =
      if rebuiltKeys.any fun k => decide (key = lit k) then none
      else Entries.get? payload key := by
  rw [copiedEntries, Entries.get?_filter payload
    (fun key => !rebuiltKeys.any fun k => decide (key = lit k))]
  cases rebuiltKeys.any fun k => decide (key = lit k) <;> simp

/-- A rebuilt payload is the copied entries, the target and the new input. -/
theorem rebuilt_eq (payload : Entries Str Json) (targetId : Str) (input : Json) :
    Entries.set (Entries.set (copiedEntries payload) (lit "model") (.str targetId))
        (lit "input") input =
      copiedEntries payload ++ [(lit "model", .str targetId), (lit "input", input)] := by
  have hmodel : lit "model" ∉ Entries.keys (copiedEntries payload) := by
    rw [← Entries.get?_eq_none_iff, get?_copiedEntries, if_pos (by decide)]
  have hinput : lit "input" ∉ Entries.keys (copiedEntries payload) := by
    rw [← Entries.get?_eq_none_iff, get?_copiedEntries, if_pos (by decide)]
  rw [Entries.set_of_notMem hmodel, Entries.set_of_notMem, List.append_assoc]
  · rfl
  · rw [Entries.keys_append, List.mem_append, not_or]
    refine ⟨hinput, ?_⟩
    change lit "input" ∉ [lit "model"]
    decide

/-- A payload that passes whole loses the two references to earlier turns. -/
def withoutServerState (payload : Entries Str Json) : Entries Str Json :=
  Entries.erase (Entries.erase payload (lit "previous_response_id")) (lit "conversation")

theorem get?_withoutServerState {payload : Entries Str Json} {key : Str}
    (hprevious : key ≠ lit "previous_response_id") (hconversation : key ≠ lit "conversation") :
    Entries.get? (withoutServerState payload) key = Entries.get? payload key := by
  rw [withoutServerState, Entries.get?_erase_of_ne _ hconversation,
    Entries.get?_erase_of_ne _ hprevious]

/-- The two ways in which a payload is forwarded. -/
theorem buildDownstreamPayload_eq_some {payload built : Entries Str Json}
    {normalized : NormalizedResponsesRequest} {prepared : DownstreamPayload}
    (hmodel : Json.field payload "model" = .str prepared.targetId)
    (h : buildDownstreamPayload payload normalized prepared = some built) :
    (passesWhole normalized = true ∧ built = withoutServerState payload) ∨
      (passesWhole normalized = false ∧ ∃ input, rebuiltInput prepared.content = some input ∧
        built = copiedEntries payload ++
          [(lit "model", .str prepared.targetId), (lit "input", input)]) := by
  unfold buildDownstreamPayload at h
  split at h
  · rename_i hwhole
    cases h
    refine .inl ⟨hwhole, ?_⟩
    apply Entries.set_of_get?
    change Entries.get? (withoutServerState payload) (lit "model") = _
    rw [get?_withoutServerState (by decide) (by decide)]
    exact Json.get?_of_field hmodel (by simp)
  · rename_i hwhole
    obtain ⟨input, hinput, h⟩ := Option.bind_eq_some_iff.mp h
    cases h
    exact .inr ⟨by simpa using hwhole, input, hinput, rebuilt_eq payload _ input⟩

theorem forwarded_of_build {payload built : Entries Str Json}
    {normalized : NormalizedResponsesRequest} {prepared : DownstreamPayload}
    (hmodel : Json.field payload "model" = .str prepared.targetId)
    (h : buildDownstreamPayload payload normalized prepared = some built) :
    Forwarded built prepared.targetId := by
  rcases buildDownstreamPayload_eq_some hmodel h with ⟨-, rfl⟩ | ⟨-, input, -, rfl⟩
  · refine ⟨?_, ?_, ?_⟩
    · rw [Json.field, get?_withoutServerState (by decide) (by decide)]
      exact hmodel
    · rw [Json.field, withoutServerState, Entries.get?_erase_of_ne _ (by decide),
        Entries.get?_erase_self]
      rfl
    · rw [Json.field, withoutServerState, Entries.get?_erase_self]
      rfl
  · have hnone {key : String} (hkey : (rebuiltKeys.any fun k => decide (lit key = lit k)) = true) :
        Entries.get? (copiedEntries payload) (lit key) = none := by
      rw [get?_copiedEntries, if_pos hkey]
    refine ⟨?_, ?_, ?_⟩
    · rw [Json.field, Entries.get?_append, hnone (by decide)]
      rfl
    · rw [Json.field, Entries.get?_append, hnone (by decide)]
      rfl
    · rw [Json.field, Entries.get?_append, hnone (by decide)]
      rfl

end GatewayTransaction

namespace SealedTurn

variable {tx : GatewayTransaction} (t : SealedTurn tx)

/-- The payload passed the checks of the normalizer. -/
theorem normalizedFrom : ∃ input current parts,
    OpenaiResponses.NormalizedFrom tx.gate.unicode t.budget t.payload t.state t.normalized
      input current parts := by
  obtain ⟨fields, input, current, parts, hpayload, hfrom⟩ :=
    OpenaiResponses.normalizedFrom_of_ok t.normalized_eq
  cases hpayload
  exact ⟨input, current, parts, hfrom⟩

/-- The branch of the gate that prepared the payload. -/
theorem preparedBy : PreRequestGate.Prepared tx.gate t.now t.tenantId t.normalized.request
    t.outcome t.prepared :=
  (PreRequestGate.prepared_of_prepareForModel t.outcome_eq t.prepared_eq).1

theorem sealedFrom : GatewayTransaction.SealedFrom tx t.signedAt t.entropy t.payload
    t.normalized t.prepared t.sealedRequest :=
  GatewayTransaction.sealedFrom_of_ok t.sealed_eq

theorem targetId_eq : t.prepared.targetId = t.normalized.request.target.registryId.value := by
  cases t.preparedBy with
  | pdfs _ _ _ _ _ hready => exact hready.targetId
  | converted _ _ _ _ hready => exact hready.targetId
  | textOnly _ _ hready => exact hready.targetId

theorem model_eq : Json.field t.payload "model" = .str t.prepared.targetId := by
  obtain ⟨input, current, parts, hfrom⟩ := t.normalizedFrom
  rw [t.targetId_eq]
  exact hfrom.model

/-- A transaction for concrete runs. -/
def sampleTransaction : GatewayTransaction := ⟨PreRequestGate.sampleGate, .sample, 1⟩

def sampleEntropy : { data : Bytes // data.length = 18 } := ⟨List.replicate 18 7, by decide⟩

end SealedTurn

end MediaBridge.Gateway
