import MediaBridge.Core.ReceiptVerification
import MediaBridge.Core.GateReturns
import MediaBridge.Core.NormalizerTotality
import MediaBridge.Gateway.LegacyState
import MediaBridge.Gateway.ProviderPayload
import MediaBridge.Gateway.SealCompleteness

/-!
# Turns that end in an exception

`GatewayTransaction.invoke` of `media_bridge_gateway/transaction.py` with the stack that
`copy.deepcopy` has left, over `ProviderResponsesDownstream.invoke` of
`media_bridge_gateway/downstream.py`: which turns return a result.

## Implementation notes

`copy.deepcopy` nests two calls for each container, and one for the value inside. The other
traversals of a payload after it need fewer calls: `json.dumps` counts containers as
`json.loads` does, and `_text_from_responses_payload` nests one call for each.
-/

namespace MediaBridge.Gateway

open Foundation MediaBridge.Core

section Copies

mutual

/-- The calls that `copy.deepcopy` of a value nests. -/
def copyFrames : Json → Nat
  | .arr items => copyFramesItems items + 2
  | .obj fields => copyFramesFields fields + 2
  | .null => 1
  | .bool _ => 1
  | .int _ => 1
  | .float _ => 1
  | .str _ => 1

/-- The most calls that an item of a list needs. -/
def copyFramesItems : List Json → Nat
  | [] => 0
  | v :: rest => max (copyFrames v) (copyFramesItems rest)

/-- The most calls that a value of a dictionary needs. -/
def copyFramesFields : List (Str × Json) → Nat
  | [] => 0
  | (_, v) :: rest => max (copyFrames v) (copyFramesFields rest)

end

/-- The copies of `_build_downstream_payload` need no more than `room` nested calls. -/
def copiesWithin (room : Nat) (payload : Entries Str Json)
    (normalized : NormalizedResponsesRequest) : Bool :=
  if GatewayTransaction.passesWhole normalized then decide (copyFrames (.obj payload) ≤ room)
  else (GatewayTransaction.copiedEntries payload).all fun e => decide (copyFrames e.2 ≤ room)

end Copies

namespace TurnInput

variable (room : Nat) (tx : GatewayTransaction) (input : TurnInput)

/-- The sealing, with `room` nested calls for the copies of the payload. -/
def sealWithin (normalized : NormalizedResponsesRequest) (outcome : GateOutcome)
    (prepared : DownstreamPayload) : Except TurnEnd SealedGatewayRequest :=
  if (tx.verifyPrepared input.verifiedAt prepared).isOk &&
      (input.payload.obj?).any fun fields => !copiesWithin room fields normalized then
    .error (.pipeline .sealRecursion)
  else input.sealTurn tx normalized outcome prepared

/-- `invoke` between its two uses of the store. -/
def prepareWithin (previous : Option GatewayStateRecord) : Except TurnEnd AnsweredTurn :=
  match tx.normalizeAndCheck input.budget input.checkedAt input.payload previous with
  | .error stop => .error (stopped stop)
  | .ok admission =>
      match tx.gate.prepareForModel input.gatedAt input.gateSignedAt input.tenantId
          admission.normalized.request with
      | .error e => .error (.pipeline (.gate e))
      | .ok outcome =>
          match outcome.prepared with
          | none => .error (.returned (gateRefusal outcome.result))
          | some prepared => do
              let request ← input.sealWithin room tx admission.normalized outcome prepared
              let response ← input.callProvider outcome request
              return ⟨admission.normalized, outcome, prepared, response⟩

variable {σ : Type} (api : StateApi σ)

/-- `GatewayTransaction.invoke`. -/
def invokeWithin (subject : DataPlaneSubject) (store : σ) : TurnEnd × Option StateEntry × σ :=
  if lit "responses:invoke" ∉ subject.scopes then
    (.returned (blocked (lit "credential_scope_denied")
      (lit "Data-plane credential is not authorized for Responses.") none 403), none, store)
  else
    match input.findPrevious api subject store with
    | (.error ending, store) => (ending, none, store)
    | (.ok previous, store) =>
        match input.prepareWithin room tx previous with
        | .error ending => (ending, none, store)
        | .ok answered => input.recordTurn tx api subject answered store

end TurnInput

/-- What `ProviderResponsesDownstream.invoke` has besides the snapshot: `stack` are the nested
calls of the search for media, and `send` is the answer of the provider, or the
`DownstreamError` for it. -/
structure ProviderEnd where
  casefold : Str → Str
  secret : Option Str
  stack : Nat
  now : ℚ
  maxEntries : Nat
  used : ReplayGuard
  send : Entries Str Json → Except (Str × Str × Nat) GatewayResponse

namespace ProviderEnd

variable (E : ProviderEnd) (tx : GatewayTransaction) (downstream : ProviderResponsesDownstream)

/-- The interpreter's functions, as the transaction has them. -/
def context : ProviderPayload.Context :=
  ⟨tx.gate.unicode, tx.gate.platform, E.casefold, E.secret⟩

/-- The guard's checks: the seal, and that the receipt is new. -/
def guardChecks (request : SealedGatewayRequest) : Except GuardError Unit := do
  verifySeal tx.gate.unicode tx.gate.platform E.stack downstream.signer E.now request
  let _ ← ReplayGuard.consume tx.gate.platform E.maxEntries E.used E.now request.receipt
  return ()

/-- The payload that goes to the provider, and its answer. -/
def answer (request : SealedGatewayRequest) : ProviderCall :=
  match ProviderPayload.invoke (E.context tx) downstream.snapshot request.targetId
      request.payload with
  | .ok payload =>
      match E.send payload with
      | .ok response => .answered response
      | .error (code, message, httpStatus) => .failed code message httpStatus
  | .error (.downstream code message httpStatus) => .failed (lit code) (lit message) httpStatus
  | .error (.routing (.unavailable message)) =>
      .failed (lit "model_provider_unavailable") (lit message) 502
  | .error (.routing .typeError) => .raised
  | .error .typeError => .raised

/-- `ProviderResponsesDownstream.invoke`. -/
def invoke (request : SealedGatewayRequest) : ProviderCall :=
  match E.guardChecks tx downstream request with
  | .error (.rejected _) => .guarded
  | .error _ => .raised
  | .ok () => E.answer tx downstream request

end ProviderEnd

section Room

variable {room : Nat} {tx : GatewayTransaction} {input : TurnInput} {fields : Entries Str Json}

theorem copyFrames_le_of_mem {e : Str × Json} (he : e ∈ fields) :
    copyFrames e.2 ≤ copyFramesFields fields := by
  induction fields with
  | nil => cases he
  | cons first rest ih =>
      obtain ⟨key, v⟩ := first
      rw [copyFramesFields]
      cases List.mem_cons.mp he with
      | inl heq =>
          rw [heq]
          exact le_max_left _ _
      | inr hmem => exact le_trans (ih hmem) (le_max_right _ _)

/-- A payload that can be copied whole can be copied field by field. -/
theorem copiesWithin_of_le (h : copyFrames (.obj fields) ≤ room)
    (normalized : NormalizedResponsesRequest) : copiesWithin room fields normalized = true := by
  unfold copiesWithin
  split
  · exact decide_eq_true h
  · apply List.all_eq_true.mpr
    intro e he
    have hle := copyFrames_le_of_mem (List.mem_of_mem_filter he)
    rw [copyFrames] at h
    exact decide_eq_true (by omega)

theorem sealWithin_eq_sealTurn (hroom : ∀ fields, input.payload = .obj fields →
    copyFrames (.obj fields) ≤ room) (normalized : NormalizedResponsesRequest)
    (outcome : GateOutcome) (prepared : DownstreamPayload) :
    input.sealWithin room tx normalized outcome prepared =
      input.sealTurn tx normalized outcome prepared := by
  unfold TurnInput.sealWithin
  rw [if_neg]
  intro hdeep
  obtain ⟨fields, hfields, hcopies⟩ :=
    (Option.any_eq_true _ _).mp (Bool.and_eq_true_iff.mp hdeep).2
  have hpayload : input.payload = .obj fields := by
    cases hcase : input.payload <;> rw [hcase] at hfields <;> cases hfields
    rfl
  rw [copiesWithin_of_le (hroom fields hpayload)] at hcopies
  cases hcopies

/-- With enough room for the copies, the turn is that without a limit. -/
theorem invokeWithin_eq_invoke (hroom : ∀ fields, input.payload = .obj fields →
    copyFrames (.obj fields) ≤ room) {σ : Type} (api : StateApi σ) (subject : DataPlaneSubject)
    (store : σ) :
    input.invokeWithin room tx api subject store = input.invoke tx api subject store := by
  have hseal : input.sealWithin room tx = input.sealTurn tx := by
    funext normalized outcome prepared
    exact sealWithin_eq_sealTurn hroom normalized outcome prepared
  have hprepare : input.prepareWithin room tx = input.prepareTurn tx := by
    funext previous
    unfold TurnInput.prepareWithin TurnInput.prepareTurn
    rewrite [hseal]
    rfl
  unfold TurnInput.invokeWithin TurnInput.invoke
  rewrite [hprepare]
  rfl

end Room

/-- The turn ends with a result. -/
def TurnEnd.IsReturned : TurnEnd → Prop
  | .returned _ => True
  | .pipeline _ => False
  | .state _ => False

/-- A turn that the gate has prepared. -/
structure Gated (tx : GatewayTransaction) (input : TurnInput) (fields : Entries Str Json)
    (previous : Option GatewayStateRecord) (admission : Admission) (outcome : GateOutcome)
    (prepared : DownstreamPayload) : Prop where
  admitted : tx.normalizeAndCheck input.budget input.checkedAt (.obj fields) previous =
    .ok admission
  gated : tx.gate.prepareForModel input.gatedAt input.gateSignedAt input.tenantId
    admission.normalized.request = .ok outcome
  prepared : outcome.prepared = some prepared

/-- A check of a turn fails with an exception that nobody turns into a result: one of the
normalizer, one of the gate, the copy of the payload, or one behind the provider boundary. -/
inductive TurnFails (room : Nat) (tx : GatewayTransaction) (input : TurnInput)
    (fields : Entries Str Json) (previous : Option GatewayStateRecord)
    (ProviderFails : SealedGatewayRequest → Prop) : Prop
  | normalizer : OpenaiResponses.Hazard tx.gate.unicode input.budget fields
        (previous.map GatewayStateRecord.forNormalizer) →
      TurnFails room tx input fields previous ProviderFails
  | gate {admission : Admission} :
      tx.normalizeAndCheck input.budget input.checkedAt (.obj fields) previous = .ok admission →
      PreRequestGate.Uncaught tx.gate input.gatedAt input.tenantId admission.normalized.request →
      TurnFails room tx input fields previous ProviderFails
  | copy {admission : Admission} {outcome : GateOutcome} {prepared : DownstreamPayload} :
      Gated tx input fields previous admission outcome prepared →
      tx.verifyPrepared input.verifiedAt prepared = .ok () →
      copiesWithin room fields admission.normalized = false →
      TurnFails room tx input fields previous ProviderFails
  | provider {admission : Admission} {outcome : GateOutcome} {prepared : DownstreamPayload}
      {request : SealedGatewayRequest} :
      Gated tx input fields previous admission outcome prepared →
      input.sealWithin room tx admission.normalized outcome prepared = .ok request →
      ProviderFails request → TurnFails room tx input fields previous ProviderFails

section Turns

variable {room : Nat} {tx : GatewayTransaction} {input : TurnInput} {fields : Entries Str Json}
  {previous : Option GatewayStateRecord} {admission : Admission} {outcome : GateOutcome}
  {prepared : DownstreamPayload}

/-- The receipt of the gate is one that the signer of a transaction can read. -/
theorem verifyPrepared_raisesOnly (hdepth : 1 ≤ tx.gate.platform.jsonDepth)
    (h : Gated tx input fields previous admission outcome prepared) (verifiedAt : ℚ) :
    RaisesOnly (fun e => e = .failed) (tx.verifyPrepared verifiedAt prepared) := by
  have hsigned : ∃ signedAt, Receipts.sign tx.gate.platform tx.gate.signer signedAt
      prepared.binding 30 = some prepared.receipt := by
    cases (PreRequestGate.prepared_of_prepareForModel h.gated h.prepared).1 with
    | pdfs _ _ _ _ _ hready => exact hready.receipt
    | converted _ _ _ _ hready => exact hready.receipt
    | textOnly _ _ hready => exact hready.receipt
  obtain ⟨signedAt, hsigned⟩ := hsigned
  intro e he
  unfold GatewayTransaction.verifyPrepared at he
  split at he
  · cases he
  · rename_i hrecursion
    obtain ⟨message, hmessage⟩ := Receipts.verify_of_sign hdepth hsigned _ hrecursion
    cases hmessage
  · cases he
    rfl

theorem sealing_raisesOnly {α : Type} (x : Option α) :
    RaisesOnly (fun e => e = .failed) (GatewayTransaction.sealing x) := by
  cases x with
  | none => exact .error rfl
  | some a => exact .ok a

/-- The sealing of what the gate prepared fails with a refusal only. -/
theorem sealTurn_raisesOnly (hdepth : 1 ≤ tx.gate.platform.jsonDepth)
    (h : Gated tx input fields previous admission outcome prepared) :
    RaisesOnly TurnEnd.IsReturned
      (input.sealTurn tx admission.normalized outcome prepared) := by
  have hseal (payload : Entries Str Json) : RaisesOnly (fun e => e = .failed)
      (tx.sealRequest input.verifiedAt input.signedAt input.entropy payload admission.normalized
        prepared) := by
    unfold GatewayTransaction.sealRequest
    apply RaisesOnly.bind (verifyPrepared_raisesOnly hdepth h _)
    intro _
    apply RaisesOnly.bind (sealing_raisesOnly _)
    intro _
    apply RaisesOnly.bind (sealing_raisesOnly _)
    intro _
    apply RaisesOnly.bind (sealing_raisesOnly _)
    intro _
    exact RaisesOnly.bind (sealing_raisesOnly _) fun _ => .ok _
  unfold TurnInput.sealTurn
  simp only
  split
  · exact .error trivial
  · split
    · exact .ok _
    · exact .error trivial
    · rename_i hrecursion
      cases hseal _ _ hrecursion

theorem callProvider_raisesOnly_iff (request : SealedGatewayRequest) :
    RaisesOnly TurnEnd.IsReturned (input.callProvider outcome request) ↔
      input.provider request ≠ .raised := by
  unfold TurnInput.callProvider
  cases input.provider request with
  | answered response => exact iff_of_true (.ok _) nofun
  | guarded => exact iff_of_true (.error trivial) nofun
  | failed code message httpStatus => exact iff_of_true (.error trivial) nofun
  | raised => exact iff_of_false (fun h => h _ rfl) fun h => h rfl

/-- The check of the earlier state refuses in the ordinary way. -/
theorem blocked_of_checkStateCapability {now : Instant} {normalized : NormalizedResponsesRequest}
    {stop : Stop} (h : tx.checkStateCapability now normalized = some stop) :
    (TurnInput.stopped stop).IsReturned := by
  unfold GatewayTransaction.checkStateCapability at h
  split at h
  · cases h
  · split at h
    · cases h
    · simp only at h
      split at h
      · cases h
        trivial
      · split_ifs at h <;> cases h <;> trivial

/-- A turn that stops before the gate ends with a result, if the normalizer does. -/
theorem stopped_isReturned_iff {stop : Stop}
    (h : tx.normalizeAndCheck input.budget input.checkedAt (.obj fields) previous = .error stop) :
    (TurnInput.stopped stop).IsReturned ↔
      ¬ OpenaiResponses.Hazard tx.gate.unicode input.budget fields
        (previous.map GatewayStateRecord.forNormalizer) := by
  rw [OpenaiResponses.hazard_iff_not_contained, not_not]
  unfold GatewayTransaction.normalizeAndCheck at h
  split at h
  · rename_i code message hnormalize
    cases h
    rw [hnormalize]
    exact iff_of_true trivial (OpenaiResponses.contained_refuse code message)
  · rename_i e hother hnormalize
    cases h
    rw [hnormalize]
    refine iff_of_false id fun hcontained => ?_
    obtain ⟨code, message, rfl⟩ := hcontained e rfl
    exact hother code message rfl
  · rename_i normalized hnormalize
    rw [hnormalize]
    split at h
    · rename_i stop' hcheck
      cases h
      exact iff_of_true (blocked_of_checkStateCapability hcheck) (OpenaiResponses.contained_ok _)
    · cases h

theorem not_hazard_of_admitted
    (h : tx.normalizeAndCheck input.budget input.checkedAt (.obj fields) previous =
      .ok admission) :
    ¬ OpenaiResponses.Hazard tx.gate.unicode input.budget fields
      (previous.map GatewayStateRecord.forNormalizer) := by
  rw [OpenaiResponses.hazard_iff_not_contained, not_not]
  unfold GatewayTransaction.normalizeAndCheck at h
  split at h
  · cases h
  · cases h
  · rename_i normalized hnormalize
    rw [hnormalize]
    exact OpenaiResponses.contained_ok _

theorem isOk_verifyPrepared {verifiedAt : ℚ} :
    (tx.verifyPrepared verifiedAt prepared).isOk = true ↔
      tx.verifyPrepared verifiedAt prepared = .ok () := by
  constructor
  · intro h
    obtain ⟨_, hok⟩ := exists_of_isOk h
    exact hok
  · intro h
    rw [h]
    rfl

theorem sealWithin_deep_iff (hpayload : input.payload = .obj fields) :
    ((tx.verifyPrepared input.verifiedAt prepared).isOk &&
        (input.payload.obj?).any fun fields => !copiesWithin room fields admission.normalized) =
          true ↔
      tx.verifyPrepared input.verifiedAt prepared = .ok () ∧
        copiesWithin room fields admission.normalized = false := by
  rw [Bool.and_eq_true, isOk_verifyPrepared, hpayload]
  simp [Json.obj?]

/-- A turn is admitted and gated in one way. -/
theorem Gated.agrees {admission' : Admission} {outcome' : GateOutcome}
    (h : Gated tx input fields previous admission outcome prepared)
    (hadmitted : tx.normalizeAndCheck input.budget input.checkedAt (.obj fields) previous =
      .ok admission')
    (hgated : tx.gate.prepareForModel input.gatedAt input.gateSignedAt input.tenantId
      admission'.normalized.request = .ok outcome') :
    admission = admission' ∧ outcome = outcome' := by
  have hsame : admission = admission' := Except.ok.inj (h.admitted.symm.trans hadmitted)
  subst hsame
  exact ⟨rfl, Except.ok.inj (h.gated.symm.trans hgated)⟩

/-- What is left of a turn that the gate has prepared. -/
theorem turnFails_iff_of_gated {ProviderFails : SealedGatewayRequest → Prop}
    (h : Gated tx input fields previous admission outcome prepared)
    (hclean : ¬ OpenaiResponses.Hazard tx.gate.unicode input.budget fields
      (previous.map GatewayStateRecord.forNormalizer))
    (hcaught : ¬ PreRequestGate.Uncaught tx.gate input.gatedAt input.tenantId
      admission.normalized.request) :
    TurnFails room tx input fields previous ProviderFails ↔
      (tx.verifyPrepared input.verifiedAt prepared = .ok () ∧
        copiesWithin room fields admission.normalized = false) ∨
      ∃ request, input.sealWithin room tx admission.normalized outcome prepared = .ok request ∧
        ProviderFails request := by
  constructor
  · intro hfails
    cases hfails with
    | normalizer hhazard => exact absurd hhazard hclean
    | gate hadmitted huncaught =>
        rw [h.admitted] at hadmitted
        cases hadmitted
        exact absurd huncaught hcaught
    | copy hgated hverified hdeep =>
        obtain ⟨rfl, rfl⟩ := hgated.agrees h.admitted h.gated
        obtain rfl := Option.some.inj (hgated.prepared.symm.trans h.prepared)
        exact .inl ⟨hverified, hdeep⟩
    | provider hgated hseal hprovider =>
        obtain ⟨rfl, rfl⟩ := hgated.agrees h.admitted h.gated
        obtain rfl := Option.some.inj (hgated.prepared.symm.trans h.prepared)
        exact .inr ⟨_, hseal, hprovider⟩
  · rintro (⟨hverified, hdeep⟩ | ⟨request, hseal, hprovider⟩)
    · exact .copy h hverified hdeep
    · exact .provider h hseal hprovider

/-- A prepared turn ends with a result, unless its copies or its provider fail. -/
theorem sealed_returns_iff (hdepth : 1 ≤ tx.gate.platform.jsonDepth)
    (hpayload : input.payload = .obj fields)
    (h : Gated tx input fields previous admission outcome prepared) :
    RaisesOnly TurnEnd.IsReturned (do
        let request ← input.sealWithin room tx admission.normalized outcome prepared
        let response ← input.callProvider outcome request
        return (⟨admission.normalized, outcome, prepared, response⟩ : AnsweredTurn)) ↔
      ¬ ((tx.verifyPrepared input.verifiedAt prepared = .ok () ∧
          copiesWithin room fields admission.normalized = false) ∨
        ∃ request, input.sealWithin room tx admission.normalized outcome prepared = .ok request ∧
          input.provider request = .raised) := by
  have hdeep := @sealWithin_deep_iff room tx input fields admission prepared hpayload
  unfold TurnInput.sealWithin
  split
  · rename_i hraised
    refine iff_of_false (fun hreturns => hreturns _ rfl) fun hno => hno (.inl (hdeep.mp hraised))
  · rename_i hroom
    have hcopies := mt hdeep.mpr hroom
    cases hseal : input.sealTurn tx admission.normalized outcome prepared with
    | error e =>
        refine iff_of_true (RaisesOnly.error_iff.mpr (sealTurn_raisesOnly hdepth h e hseal)) ?_
        rintro (hdeep | ⟨request, hrequest, -⟩)
        · exact hcopies hdeep
        · cases hrequest
    | ok request =>
        have hprovider := @callProvider_raisesOnly_iff input outcome request
        constructor
        · rintro hreturns (hdeep | ⟨request', hrequest, hraised⟩)
          · exact hcopies hdeep
          · cases hrequest
            refine hprovider.mp (fun e he => hreturns e ?_) hraised
            change (input.callProvider outcome request >>= _) = _
            rw [he]
            rfl
        · intro hno
          apply RaisesOnly.bind (hprovider.mpr fun hraised => hno (.inr ⟨request, rfl, hraised⟩))
          exact fun _ => .ok _

/-- A turn ends with a result between its uses of the store, or a check of it fails. -/
theorem prepareWithin_returns_iff (hB : tx.gate.backends.Declared)
    (hclock : |input.gateSignedAt| < 2 ^ 1024) (hdepth : 1 ≤ tx.gate.platform.jsonDepth)
    (hpayload : input.payload = .obj fields) :
    RaisesOnly TurnEnd.IsReturned (input.prepareWithin room tx previous) ↔
      ¬ TurnFails room tx input fields previous
        fun request => input.provider request = .raised := by
  unfold TurnInput.prepareWithin
  rw [hpayload]
  cases hadmitted : tx.normalizeAndCheck input.budget input.checkedAt (.obj fields) previous with
  | error stop =>
      have hstopped := stopped_isReturned_iff hadmitted
      simp only
      rw [RaisesOnly.error_iff, hstopped]
      constructor
      · intro hclean hfails
        cases hfails with
        | normalizer hhazard => exact hclean hhazard
        | gate hother =>
            rw [hadmitted] at hother
            cases hother
        | copy hgated =>
            rw [hgated.admitted] at hadmitted
            cases hadmitted
        | provider hgated =>
            rw [hgated.admitted] at hadmitted
            cases hadmitted
      · exact fun hno hhazard => hno (.normalizer hhazard)
  | ok admission =>
      have hclean := not_hazard_of_admitted hadmitted
      have hcatches := PreRequestGate.prepareForModel_ok_iff tx.gate input.gatedAt input.tenantId
        admission.normalized.request hB hclock
      simp only
      cases hgated : tx.gate.prepareForModel input.gatedAt input.gateSignedAt input.tenantId
          admission.normalized.request with
      | error e =>
          refine iff_of_false (fun hreturns => hreturns _ rfl) fun hno => ?_
          rw [hgated] at hcatches
          have huncaught : PreRequestGate.Uncaught tx.gate input.gatedAt input.tenantId
              admission.normalized.request := by
            by_contra hcaught
            obtain ⟨outcome, houtcome⟩ := hcatches.mpr hcaught
            cases houtcome
          exact hno (.gate hadmitted huncaught)
      | ok outcome =>
          have hcaught := hcatches.mp ⟨outcome, hgated⟩
          simp only
          cases hprepared : outcome.prepared with
          | none =>
              refine iff_of_true (.error trivial) fun hfails => ?_
              cases hfails with
              | normalizer hhazard => exact hclean hhazard
              | gate hother huncaught =>
                  rw [hadmitted] at hother
                  cases hother
                  exact hcaught huncaught
              | copy hother =>
                  obtain ⟨rfl, rfl⟩ := hother.agrees hadmitted hgated
                  rw [hother.prepared] at hprepared
                  cases hprepared
              | provider hother =>
                  obtain ⟨rfl, rfl⟩ := hother.agrees hadmitted hgated
                  rw [hother.prepared] at hprepared
                  cases hprepared
          | some prepared =>
              have hG : Gated tx input fields previous admission outcome prepared :=
                ⟨hadmitted, hgated, hprepared⟩
              rw [turnFails_iff_of_gated hG hclean hcaught]
              exact sealed_returns_iff hdepth hpayload hG

end Turns

section Providers

open ProviderPayload

variable {E : ProviderEnd} {tx : GatewayTransaction} {downstream : ProviderResponsesDownstream}
  {request : SealedGatewayRequest} {C : Context} {provider : Entries Str Json}
  {options : TextGenerationOptions} {prompt : Str}

/-- A refusal of the provider boundary. -/
def IsRefusal (e : DispatchError) : Prop :=
  ∃ code message httpStatus, e = .downstream code message httpStatus

theorem analyze_raisesOnly {secret : Option Str} {backend : ProviderTextBackend} :
    RaisesOnly IsRefusal (analyze secret backend options prompt) := by
  unfold analyze
  split
  · exact .error ⟨_, _, _, rfl⟩
  · split
    · exact .error ⟨_, _, _, rfl⟩
    · exact .ok _

/-- The call of a backend fails with a refusal only. -/
theorem serve_raisesOnly : RaisesOnly IsRefusal (serve C provider options prompt) := by
  unfold serve
  split
  · exact .error ⟨_, _, _, rfl⟩
  · split
    · exact .error ⟨_, _, _, rfl⟩
    · unfold analyzeSpecified
      split
      · exact .error ⟨_, _, _, rfl⟩
      · exact analyze_raisesOnly

theorem dispatch_of_unhashable {requested default : Json}
    (h : (requestedEffort requested default).hashable = false) :
    dispatch C requested default provider options prompt = .error .typeError := by
  unfold dispatch effortProvider
  have hnull : ¬ (requestedEffort requested default).isNull = true := by
    intro hnull
    rw [(Json.isNull_iff _).mp hnull] at h
    cases h
  rw [if_neg hnull, h]
  rfl

theorem dispatch_raisesOnly {requested default : Json}
    (h : (requestedEffort requested default).hashable = true) :
    RaisesOnly IsRefusal (dispatch C requested default provider options prompt) := by
  unfold dispatch effortProvider
  split
  · exact serve_raisesOnly
  · rw [h, if_neg (by decide)]
    split
    · exact serve_raisesOnly
    · exact .error ⟨_, _, _, rfl⟩

/-- The choice of a provider and of its effort cannot be made, for want of a hash. -/
structure Unhashable (E : ProviderEnd) (tx : GatewayTransaction)
    (downstream : ProviderResponsesDownstream) (request : SealedGatewayRequest) : Prop where
  options : ∃ options,
    OpenaiChat.responsesGenerationOptions tx.gate.platform request.payload = .ok options
  choice : ProviderRouting.providerForTarget downstream.snapshot request.targetId =
      .error .typeError ∨
    ∃ provider, ProviderRouting.providerForTarget downstream.snapshot request.targetId =
        .ok provider ∧
      (requestedEffort (Json.field request.payload "reasoning_effort")
        (policyDefault downstream.snapshot)).hashable = false

theorem answer_raised_iff :
    E.answer tx downstream request = .raised ↔ Unhashable E tx downstream request := by
  unfold ProviderEnd.answer ProviderPayload.invoke
  cases hoptions : OpenaiChat.responsesGenerationOptions tx.gate.platform request.payload with
  | error e =>
      refine iff_of_false ?_ fun hno => ?_
      · rw [ProviderEnd.context, hoptions]
        nofun
      · obtain ⟨options, hother⟩ := hno.options
        rw [hoptions] at hother
        cases hother
  | ok options =>
      rw [ProviderEnd.context, hoptions]
      simp only
      cases hchoice : ProviderRouting.providerForTarget downstream.snapshot request.targetId with
      | error e =>
          cases e with
          | unavailable message =>
              refine iff_of_false nofun fun hno => ?_
              obtain hother | ⟨provider, hother, -⟩ := hno.choice
              · rw [hchoice] at hother
                cases hother
              · rw [hchoice] at hother
                cases hother
          | typeError => exact iff_of_true rfl ⟨⟨options, hoptions⟩, .inl hchoice⟩
      | ok provider =>
          have hunhashable : Unhashable E tx downstream request ↔
              (requestedEffort (Json.field request.payload "reasoning_effort")
                (policyDefault downstream.snapshot)).hashable = false := by
            refine ⟨fun hno => ?_, fun hno => ⟨⟨options, hoptions⟩, .inr ⟨provider, hchoice, hno⟩⟩⟩
            obtain hother | ⟨provider', -, hno⟩ := hno.choice
            · rw [hchoice] at hother
              cases hother
            · exact hno
          rw [hunhashable]
          cases hhash : (requestedEffort (Json.field request.payload "reasoning_effort")
              (policyDefault downstream.snapshot)).hashable with
          | false =>
              simp only [dispatch_of_unhashable hhash]
          | true =>
              refine iff_of_false ?_ nofun
              split
              · split <;> nofun
              · nofun
              · nofun
              · rename_i hdispatch
                obtain ⟨code, message, httpStatus, he⟩ := dispatch_raisesOnly hhash _ hdispatch
                cases he
              · rename_i hdispatch
                obtain ⟨code, message, httpStatus, he⟩ := dispatch_raisesOnly hhash _ hdispatch
                cases he

/-- The search for media runs out of nested calls, when the guard gets to it. -/
structure SearchTooDeep (E : ProviderEnd) (tx : GatewayTransaction)
    (downstream : ProviderResponsesDownstream) (request : SealedGatewayRequest) : Prop where
  verified : ∃ binding, Receipts.verify tx.gate.platform downstream.signer E.now request.receipt
    request.binding = .ok binding
  capability : request.capability = lit "non_vision"
  search : MediaReference.containsMediaReference tx.gate.unicode E.stack
    (.obj request.payload) = .tooDeep

/-- A check behind the provider boundary fails with an exception of its own. -/
inductive BoundaryFails (E : ProviderEnd) (tx : GatewayTransaction)
    (downstream : ProviderResponsesDownstream) (request : SealedGatewayRequest) : Prop
  | search : SearchTooDeep E tx downstream request → BoundaryFails E tx downstream request
  | unhashable : E.guardChecks tx downstream request = .ok () →
      Unhashable E tx downstream request → BoundaryFails E tx downstream request

/-- The guard raises its own error. -/
def IsRejection (e : GuardError) : Prop := ∃ message, e = .rejected message

theorem consume_raisesOnly {P : Platform} {maxEntries : Nat} {used : ReplayGuard} {now : ℚ}
    {receipt : Str} (h : ∃ data, Utf8.encode receipt = some data) :
    RaisesOnly IsRejection (ReplayGuard.consume P maxEntries used now receipt) := by
  obtain ⟨data, hdata⟩ := h
  rw [ReplayGuard.consume, hdata]
  simp only
  split
  · exact .error ⟨_, rfl⟩
  · split
    · exact .error ⟨_, rfl⟩
    · exact .ok _

/-- The guard's checks of a sealed turn fail with its own error, or the search is too deep. -/
theorem guardChecks_raisesOnly_iff (t : SealedTurn tx)
    (hdepth : 1 ≤ tx.gate.platform.jsonDepth) :
    RaisesOnly IsRejection (E.guardChecks tx downstream t.sealedRequest) ↔
      ¬ SearchTooDeep E tx downstream t.sealedRequest := by
  have hconsume : RaisesOnly IsRejection (do
      let _ ← ReplayGuard.consume tx.gate.platform E.maxEntries E.used E.now
        t.sealedRequest.receipt
      return ()) :=
    .bind (consume_raisesOnly (Receipts.exists_encode_of_sign t.sealedFrom.receipt)) fun _ => .ok _
  unfold ProviderEnd.guardChecks
  rw [t.verifySeal_eq]
  cases hverify : Receipts.verify tx.gate.platform downstream.signer E.now
      t.sealedRequest.receipt t.sealedRequest.binding with
  | error e =>
      obtain ⟨message, rfl⟩ := Receipts.verify_of_sign hdepth t.sealedFrom.receipt e hverify
      refine iff_of_true (.error ⟨_, rfl⟩) fun hdeep => ?_
      obtain ⟨binding, hother⟩ := hdeep.verified
      rw [hverify] at hother
      cases hother
  | ok binding =>
      simp only
      rw [verifyBoundary_eq t.bounded_sealedRequest t.forwarded_sealedRequest]
      split
      · rename_i hcapability
        cases hsearch : MediaReference.containsMediaReference tx.gate.unicode E.stack
            (.obj t.sealedRequest.payload) with
        | clean =>
            refine iff_of_true hconsume fun hdeep => ?_
            rw [hdeep.search] at hsearch
            cases hsearch
        | found =>
            refine iff_of_true (.error ⟨_, rfl⟩) fun hdeep => ?_
            rw [hdeep.search] at hsearch
            cases hsearch
        | tooDeep =>
            refine iff_of_false (fun h => ?_) fun hno => hno ⟨⟨_, hverify⟩, hcapability, hsearch⟩
            obtain ⟨message, he⟩ := h .recursionError rfl
            cases he
      · rename_i hcapability
        exact iff_of_true hconsume fun hdeep => hcapability hdeep.capability

/-- What becomes of a sealed turn behind the provider boundary. -/
theorem boundary_raised_iff (t : SealedTurn tx) (hdepth : 1 ≤ tx.gate.platform.jsonDepth) :
    E.invoke tx downstream t.sealedRequest = .raised ↔
      BoundaryFails E tx downstream t.sealedRequest := by
  have hguard := @guardChecks_raisesOnly_iff E tx downstream t hdepth
  unfold ProviderEnd.invoke
  cases hchecks : E.guardChecks tx downstream t.sealedRequest with
  | error e =>
      rw [hchecks, RaisesOnly.error_iff] at hguard
      have hfails : BoundaryFails E tx downstream t.sealedRequest ↔ ¬ IsRejection e := by
        rw [hguard, not_not]
        refine ⟨fun hfails => ?_, .search⟩
        cases hfails with
        | search hdeep => exact hdeep
        | unhashable hok =>
            rw [hchecks] at hok
            cases hok
      rw [hfails]
      cases e with
      | rejected message => exact iff_of_false nofun fun hno => hno ⟨_, rfl⟩
      | unicodeError => exact iff_of_true rfl (by rintro ⟨_, ⟨⟩⟩)
      | recursionError => exact iff_of_true rfl (by rintro ⟨_, ⟨⟩⟩)
      | overflowError => exact iff_of_true rfl (by rintro ⟨_, ⟨⟩⟩)
  | ok done =>
      simp only
      rw [answer_raised_iff]
      rw [hchecks] at hguard
      refine ⟨fun hno => .unhashable hchecks hno, fun hfails => ?_⟩
      cases hfails with
      | search hdeep => exact absurd hdeep (hguard.mp (.ok _))
      | unhashable _ hno => exact hno

end Providers

section Sealed

variable {room : Nat} {tx : GatewayTransaction} {input : TurnInput} {fields : Entries Str Json}
  {previous : Option GatewayStateRecord} {admission : Admission} {outcome : GateOutcome}
  {prepared : DownstreamPayload} {request : SealedGatewayRequest}

theorem normalize_of_admitted
    (h : tx.normalizeAndCheck input.budget input.checkedAt (.obj fields) previous =
      .ok admission) :
    OpenaiResponses.normalizeResponsesRequest tx.gate.unicode input.budget (.obj fields)
      (previous.map GatewayStateRecord.forNormalizer) = .ok admission.normalized := by
  unfold GatewayTransaction.normalizeAndCheck at h
  split at h
  · cases h
  · cases h
  · rename_i normalized hnormalize
    split at h
    · cases h
    · cases h
      exact hnormalize

/-- What a turn has sealed is a sealed turn. -/
theorem exists_sealedTurn (hpayload : input.payload = .obj fields)
    (h : Gated tx input fields previous admission outcome prepared)
    (hseal : input.sealWithin room tx admission.normalized outcome prepared = .ok request) :
    ∃ t : SealedTurn tx, t.sealedRequest = request := by
  unfold TurnInput.sealWithin at hseal
  split at hseal
  · cases hseal
  · unfold TurnInput.sealTurn at hseal
    rw [hpayload] at hseal
    simp only [Json.obj?] at hseal
    split at hseal
    · rename_i hrequest
      cases hseal
      exact ⟨⟨input.budget, fields, _, admission.normalized, input.gatedAt, input.gateSignedAt,
        input.tenantId, outcome, prepared, input.verifiedAt, input.signedAt, input.entropy, _,
        normalize_of_admitted h.admitted, h.gated, h.prepared, hrequest⟩, rfl⟩
    · cases hseal
    · cases hseal

/-- The failures of a turn whose provider is that of the gateway. -/
theorem turnFails_boundary_iff {E : ProviderEnd} {downstream : ProviderResponsesDownstream}
    (hdepth : 1 ≤ tx.gate.platform.jsonDepth) (hpayload : input.payload = .obj fields)
    (hprovider : input.provider = E.invoke tx downstream) :
    (TurnFails room tx input fields previous fun request => input.provider request = .raised) ↔
      TurnFails room tx input fields previous (BoundaryFails E tx downstream) := by
  constructor
  · intro h
    cases h with
    | normalizer hhazard => exact .normalizer hhazard
    | gate hadmitted huncaught => exact .gate hadmitted huncaught
    | copy hgated hverified hdeep => exact .copy hgated hverified hdeep
    | provider hgated hseal hraised =>
        obtain ⟨t, rfl⟩ := exists_sealedTurn hpayload hgated hseal
        rw [hprovider] at hraised
        exact .provider hgated hseal ((boundary_raised_iff t hdepth).mp hraised)
  · intro h
    cases h with
    | normalizer hhazard => exact .normalizer hhazard
    | gate hadmitted huncaught => exact .gate hadmitted huncaught
    | copy hgated hverified hdeep => exact .copy hgated hverified hdeep
    | provider hgated hseal hfails =>
        obtain ⟨t, rfl⟩ := exists_sealedTurn hpayload hgated hseal
        refine .provider hgated hseal ?_
        rw [hprovider]
        exact (boundary_raised_iff t hdepth).mpr hfails

end Sealed

section Invocation

variable {room : Nat} {tx : GatewayTransaction} {input : TurnInput} {fields : Entries Str Json}
  {subject : DataPlaneSubject} {store : GatewayStateStore}

/-- A turn reaches the normalizer. -/
structure Begun (input : TurnInput) (subject : DataPlaneSubject) (store : GatewayStateStore)
    (previous : Option GatewayStateRecord) : Prop where
  scope : lit "responses:invoke" ∈ subject.scopes
  found : (input.findPrevious gatewayApi subject store).1 = .ok previous

theorem findPrevious_raisesOnly (input : TurnInput) (subject : DataPlaneSubject)
    (store : GatewayStateStore) :
    RaisesOnly TurnEnd.IsReturned (input.findPrevious gatewayApi subject store).1 := by
  unfold TurnInput.findPrevious
  split
  · exact .ok _
  · simp only [gatewayApi]
    cases store.resolve input.resolvedAt _ subject.tenantId subject.credentialSelector with
    | mk store' found =>
        cases found with
        | some record => exact .ok _
        | none => exact .error trivial

theorem recordTurn_isReturned (answered : AnsweredTurn) :
    (input.recordTurn tx gatewayApi subject answered store).1.IsReturned := by
  unfold TurnInput.recordTurn
  simp only
  split
  · trivial
  · simp only [gatewayApi]
    cases store.put input.recordedAt _ with
    | some stored => trivial
    | none => trivial

/-- The gateway's turn ends with a result exactly when no check of it fails otherwise. -/
theorem invokeWithin_isReturned_iff {E : ProviderEnd} {downstream : ProviderResponsesDownstream}
    (hB : tx.gate.backends.Declared) (hclock : |input.gateSignedAt| < 2 ^ 1024)
    (hdepth : 1 ≤ tx.gate.platform.jsonDepth) (hpayload : input.payload = .obj fields)
    (hprovider : input.provider = E.invoke tx downstream) :
    (input.invokeWithin room tx gatewayApi subject store).1.IsReturned ↔
      ¬ ∃ previous, Begun input subject store previous ∧
        TurnFails room tx input fields previous (BoundaryFails E tx downstream) := by
  unfold TurnInput.invokeWithin
  split
  · rename_i hscope
    refine iff_of_true trivial ?_
    rintro ⟨previous, hbegun, -⟩
    exact hscope hbegun.scope
  · rename_i hscope
    have hfind := findPrevious_raisesOnly input subject store
    cases hfound : input.findPrevious gatewayApi subject store with
    | mk found store' =>
        rw [hfound] at hfind
        cases found with
        | error ending =>
            refine iff_of_true (hfind ending rfl) ?_
            rintro ⟨previous, hbegun, -⟩
            have hok := hbegun.found
            rw [hfound] at hok
            cases hok
        | ok previous =>
            have hreturns := @prepareWithin_returns_iff room tx input fields previous hB hclock
              hdepth hpayload
            rw [turnFails_boundary_iff hdepth hpayload hprovider] at hreturns
            have hsame : (∃ previous', Begun input subject store previous' ∧
                TurnFails room tx input fields previous' (BoundaryFails E tx downstream)) ↔
                TurnFails room tx input fields previous (BoundaryFails E tx downstream) := by
              constructor
              · rintro ⟨previous', hbegun, hfails⟩
                have hok := hbegun.found
                rw [hfound] at hok
                cases hok
                exact hfails
              · exact fun hfails => ⟨previous, ⟨not_not.mp hscope, by rw [hfound]⟩, hfails⟩
            rw [hsame, ← hreturns]
            simp only
            cases hprepared : input.prepareWithin room tx previous with
            | error ending => exact RaisesOnly.error_iff.symm
            | ok answered => exact iff_of_true (recordTurn_isReturned answered) (.ok _)

end Invocation

end MediaBridge.Gateway
