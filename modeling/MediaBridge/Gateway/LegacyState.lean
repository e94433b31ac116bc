import MediaBridge.Gateway.SealedTurn

/-!
# The legacy state path

`ResponsesStateStore`, `LegacyResponsesStateAdapter` and `ResponsesIngressGateway`: the turns of
the deprecated ingress, beside those of a transaction over a `GatewayStateStore`.

## Implementation notes

A transaction calls its store through two methods, which `StateApi` names; `invoke` is one
definition over both stores. What does not touch the store is `prepareTurn`. A streaming turn
leaves the entry that is put when its stream has been drained.
-/

namespace MediaBridge.Gateway

open Foundation MediaBridge.Core

/-- `media_bridge/responses_state.py`: a store whose records name no credential. -/
structure ResponsesStateStore where
  ttlSeconds : Nat := 1800
  maxEntries : Nat := 1000
  records : Entries (Str × Str) ResponsesStateRecord := []
  ttl_range : 1 ≤ ttlSeconds ∧ ttlSeconds ≤ 86400
  entries_range : 1 ≤ maxEntries ∧ maxEntries ≤ 100000

namespace ResponsesStateStore

variable (store : ResponsesStateStore)

/-- `_validate_identifiers`; `false` is the `ValueError`. -/
def identifiersValid (responseId tenantId : Str) : Bool :=
  responseIdPattern responseId && tenantIdPattern tenantId

/-- `_purge_expired`. -/
def purgeExpired (now : ℚ) : ResponsesStateStore :=
  { store with records := store.records.filter fun e => decide (now < e.2.expiresAt) }

/-- The checks of `put`; `false` is a `ValueError`. -/
def entryValid (entry : StateEntry) : Bool :=
  identifiersValid entry.responseId entry.tenantId &&
    decide (entry.sanitizedText.length ≤ 200000) &&
    decide (entry.mediaTainted = decide (entry.mediaModalities ≠ ∅))

/-- The record that `put` stores. -/
def recordOf (entry : StateEntry) (now : ℚ) : ResponsesStateRecord where
  responseId := entry.responseId
  tenantId := entry.tenantId
  sanitizedText := entry.sanitizedText
  mediaTainted := entry.mediaTainted
  mediaModalities := entry.mediaModalities
  expiresAt := now + store.ttlSeconds

/-- The entries after a record is stored and the oldest ones are evicted. -/
def stored (record : ResponsesStateRecord) : ResponsesStateStore :=
  let key := (record.tenantId, record.responseId)
  let records := Entries.erase store.records key ++ [(key, record)]
  { store with records := records.drop (records.length - store.maxEntries) }

/-- `put`; `none` is a `ValueError`. -/
def put (now : ℚ) (entry : StateEntry) : Option (ResponsesStateStore × ResponsesStateRecord) :=
  if entryValid entry then
    let record := store.recordOf entry now
    some ((store.purgeExpired now).stored record, record)
  else none

/-- `resolve`: the store after purging, and the record unless there is an error. -/
def resolve (now : ℚ) (responseId tenantId : Str) :
    ResponsesStateStore × Option ResponsesStateRecord :=
  if identifiersValid responseId tenantId then
    let store := store.purgeExpired now
    (store, Entries.get? store.records (tenantId, responseId))
  else (store, none)

/-- `clear`. -/
def clear : ResponsesStateStore := { store with records := [] }

end ResponsesStateStore

/-- What the methods of a store raise: `responsesStateError` is the class that
`media_bridge/responses_state.py` defines. -/
inductive StateRaised
  | valueError
  | gatewayStateError
  | responsesStateError
deriving DecidableEq

/-- A state store as a transaction calls it. -/
structure StateApi (σ : Type) where
  put : ℚ → StateEntry → σ → Except StateRaised GatewayStateRecord × σ
  resolve : ℚ → Str → Str → Str → σ → Except StateRaised GatewayStateRecord × σ
  clear : σ → σ

/-- `GatewayStateStore`. -/
def gatewayApi : StateApi GatewayStateStore where
  put now entry store :=
    match store.put now entry with
    | some (store, record) => (.ok record, store)
    | none => (.error .valueError, store)
  resolve now responseId tenantId selector store :=
    match store.resolve now responseId tenantId selector with
    | (store, some record) => (.ok record, store)
    | (store, none) => (.error .gatewayStateError, store)
  clear := GatewayStateStore.clear

namespace LegacyResponsesStateAdapter

/-- `_from_legacy`. -/
def fromLegacy (record : ResponsesStateRecord) (credentialSelector targetId : Str)
    (snapshotVersion : Int) : GatewayStateRecord where
  responseId := record.responseId
  tenantId := record.tenantId
  sanitizedText := record.sanitizedText
  mediaTainted := record.mediaTainted
  mediaModalities := record.mediaModalities
  credentialSelector := credentialSelector
  targetId := targetId
  snapshotVersion := snapshotVersion
  expiresAt := record.expiresAt

/-- `LegacyResponsesStateAdapter`. -/
def api : StateApi ResponsesStateStore where
  put now entry store :=
    match store.put now entry with
    | some (store, record) =>
        (.ok (fromLegacy record entry.credentialSelector entry.targetId entry.snapshotVersion),
          store)
    | none => (.error .valueError, store)
  resolve now responseId tenantId selector store :=
    match store.resolve now responseId tenantId with
    | (store, some record) => (.ok (fromLegacy record selector (lit "legacy-state") 0), store)
    | (store, none) => (.error .responsesStateError, store)
  clear := ResponsesStateStore.clear

end LegacyResponsesStateAdapter

/-- What a provider answers. -/
structure GatewayResponse where
  body : Bytes
  contentType : Str
  responseId : Str
  statusCode : Nat
  streaming : Bool

/-- How the call of the provider ends. -/
inductive ProviderCall
  | answered (response : GatewayResponse)
  /-- A `DownstreamGuardError`. -/
  | guarded
  /-- A `DownstreamError`. -/
  | failed (code message : Str) (httpStatus : Nat)
  /-- Any other exception. -/
  | raised

inductive ResultStatus
  | completed
  | blocked
  | upstreamError
deriving DecidableEq

structure GatewayResult where
  status : ResultStatus
  response : Option GatewayResponse
  gateResult : Option PrepareForModelResult
  error : Option (Str × Str)
  warning : Option (Str × Str)
  httpStatus : Nat

/-- The exceptions of the part of a turn that does not touch the store. -/
inductive PipelineRaised
  | normalizer (e : Raised)
  | gate (e : GateRaised)
  | sealRecursion
  | provider

/-- How `invoke` ends. -/
inductive TurnEnd
  | returned (result : GatewayResult)
  | pipeline (e : PipelineRaised)
  | state (e : StateRaised)

/-- A turn: what is sent, what the clocks show, and how the provider answers. -/
structure TurnInput where
  tenantId : Str
  tenant_valid : tenantIdPattern tenantId = true
  payload : Json
  budget : Nat
  resolvedAt : ℚ
  checkedAt : Instant
  gatedAt : Instant
  gateSignedAt : ℚ
  verifiedAt : ℚ
  signedAt : ℚ
  recordedAt : ℚ
  entropy : { data : Bytes // data.length = 18 }
  provider : SealedGatewayRequest → ProviderCall

/-- A turn that the provider has answered. -/
structure AnsweredTurn where
  normalized : NormalizedResponsesRequest
  outcome : GateOutcome
  prepared : DownstreamPayload
  response : GatewayResponse

namespace TurnInput

variable (tx : GatewayTransaction) (input : TurnInput)

/-- `_blocked`. -/
def blocked (code message : Str) (gateResult : Option PrepareForModelResult)
    (httpStatus : Nat) : GatewayResult :=
  ⟨.blocked, none, gateResult, some (code, message), none, httpStatus⟩

/-- A refusal before the gate, or an exception of the normalizer. -/
def stopped : Stop → TurnEnd
  | .blocked code message httpStatus =>
      .returned (blocked (lit code) (lit message) none httpStatus)
  | .raised e => .pipeline (.normalizer e)

/-- The refusal of the gate. -/
def gateRefusal (result : PrepareForModelResult) : GatewayResult :=
  match result.error with
  | some error => blocked error.code.value error.message.value (some result) 400
  | none => blocked (lit "pre_request_blocked") (lit "Pre-request gate blocked the request.")
      (some result) 400

/-- The call of the provider, and what `invoke` makes of its exceptions. -/
def callProvider (outcome : GateOutcome) (request : SealedGatewayRequest) :
    Except TurnEnd GatewayResponse :=
  match input.provider request with
  | .answered response => .ok response
  | .guarded => .error (.returned (blocked (lit "gateway_guard_rejected")
      (lit "Responses downstream guard rejected the request.") (some outcome.result) 500))
  | .failed code message httpStatus => .error (.returned
      ⟨.upstreamError, none, some outcome.result, some (code, message), none, httpStatus⟩)
  | .raised => .error (.pipeline .provider)

/-- The sealing, and what `invoke` makes of its exceptions. -/
def sealTurn (normalized : NormalizedResponsesRequest) (outcome : GateOutcome)
    (prepared : DownstreamPayload) : Except TurnEnd SealedGatewayRequest :=
  let failed := TurnEnd.returned (blocked (lit "gateway_sealing_failed")
    (lit "Responses request could not be sealed safely.") (some outcome.result) 500)
  match input.payload.obj? with
  | none => .error failed
  | some fields =>
      match tx.sealRequest input.verifiedAt input.signedAt input.entropy fields normalized
          prepared with
      | .ok request => .ok request
      | .error .failed => .error failed
      | .error .recursionError => .error (.pipeline .sealRecursion)

/-- `invoke` between its two uses of the store. -/
def prepareTurn (previous : Option GatewayStateRecord) : Except TurnEnd AnsweredTurn :=
  match tx.normalizeAndCheck input.budget input.checkedAt input.payload previous with
  | .error stop => .error (stopped stop)
  | .ok admission =>
      match tx.gate.prepareForModel input.gatedAt input.gateSignedAt input.tenantId
          admission.normalized.request with
      | .error e => .error (.pipeline (.gate e))
      | .ok outcome =>
          match outcome.prepared with
          | none => .error (.returned (gateRefusal outcome.result))
          | some prepared => do
              let request ← input.sealTurn tx admission.normalized outcome prepared
              let response ← input.callProvider outcome request
              return ⟨admission.normalized, outcome, prepared, response⟩

/-- The result of a turn that the provider has answered. -/
def completed (answered : AnsweredTurn) (warning : Option (Str × Str)) : GatewayResult :=
  ⟨.completed, some answered.response, some answered.outcome.result, none, warning,
    answered.response.statusCode⟩

/-- The warning about a state that was not recorded. -/
def unrecorded : Str × Str :=
  (lit "state_persistence_failed", lit "Sanitized response state could not be persisted.")

/-- The response that the payload refers to. -/
def previousId? : Option Str :=
  input.payload.obj?.bind fun fields => (Json.field fields "previous_response_id").str?

variable {σ : Type} (api : StateApi σ)

/-- The first use of the store: the state that the payload refers to. -/
def findPrevious (subject : DataPlaneSubject) (store : σ) :
    Except TurnEnd (Option GatewayStateRecord) × σ :=
  match input.previousId? with
  | none => (.ok none, store)
  | some previousId =>
      match api.resolve input.resolvedAt previousId subject.tenantId
          subject.credentialSelector store with
      | (.ok record, store) => (.ok (some record), store)
      | (.error .gatewayStateError, store) =>
          (.error (.returned (blocked (lit "state_unavailable")
            (lit "Responses state is unavailable.") none 400)), store)
      | (.error e, store) => (.error (.state e), store)

/-- The second use of the store: at once, or when the stream has been drained. -/
def recordTurn (subject : DataPlaneSubject) (answered : AnsweredTurn) (store : σ) :
    TurnEnd × Option StateEntry × σ :=
  let entry := tx.stateEntry answered.response.responseId subject answered.normalized
    answered.prepared
  if answered.response.streaming then
    (.returned (completed answered none), some entry, store)
  else
    match api.put input.recordedAt entry store with
    | (.ok _, store) => (.returned (completed answered none), none, store)
    | (.error .valueError, store) => (.returned (completed answered (some unrecorded)), none, store)
    | (.error e, store) => (.state e, none, store)

/-- `GatewayTransaction.invoke`: how it ends, what a stream still has to record, and the
store. -/
def invoke (subject : DataPlaneSubject) (store : σ) : TurnEnd × Option StateEntry × σ :=
  if lit "responses:invoke" ∉ subject.scopes then
    (.returned (blocked (lit "credential_scope_denied")
      (lit "Data-plane credential is not authorized for Responses.") none 403), none, store)
  else
    match input.findPrevious api subject store with
    | (.error ending, store) => (ending, none, store)
    | (.ok previous, store) =>
        match input.prepareTurn tx previous with
        | .error ending => (ending, none, store)
        | .ok answered => input.recordTurn tx api subject answered store

/-- Over a `GatewayStateStore` the first use of the store is the first lookup of a
transaction. -/
theorem findPrevious_gatewayApi (subject : DataPlaneSubject) (store : GatewayStateStore) :
    input.findPrevious gatewayApi subject store =
      match GatewayTransaction.findState store input.resolvedAt input.payload subject with
      | (store, .ok previous) => (.ok previous, store)
      | (store, .error stop) => (.error (stopped stop), store) := by
  unfold findPrevious previousId? GatewayTransaction.findState
  cases input.payload.obj? with
  | none => rfl
  | some fields =>
      simp only [Option.bind_some]
      cases (Json.field fields "previous_response_id").str? with
      | none => rfl
      | some previousId =>
          simp only [gatewayApi]
          rcases store.resolve input.resolvedAt previousId subject.tenantId
            subject.credentialSelector with ⟨store', found⟩
          cases found with
          | none => rfl
          | some record => rfl

end TurnInput

/-- The subject under which a tenant is served; `none` is the `ValueError` of
`DataPlaneSubject`. -/
abbrev SubjectOf := (tenantId : Str) → tenantIdPattern tenantId = true → Option DataPlaneSubject

theorem responses_scope : [lit "responses:invoke"] ≠ [] ∧
    ∀ scope ∈ [lit "responses:invoke"], scopePattern scope = true := by decide

/-- The selector that the legacy ingress gives a tenant. -/
def legacySelector (tenantId : Str) : Str := lit "legacy:" ++ tenantId

/-- The subject of `ResponsesIngressGateway.invoke`. -/
def legacySubject : SubjectOf := fun tenantId htenant =>
  if h : responseIdPattern (legacySelector tenantId) = true then
    some ⟨legacySelector tenantId, tenantId, [lit "responses:invoke"], h, htenant,
      responses_scope⟩
  else none

/-- The credentials of a gateway, one for each tenant. -/
structure TenantCredentials where
  selector : Str → Str
  selector_valid : ∀ tenantId, responseIdPattern (selector tenantId) = true

/-- The subject that a tenant's credential proves. -/
def TenantCredentials.subject (credentials : TenantCredentials) : SubjectOf :=
  fun tenantId htenant =>
    some ⟨credentials.selector tenantId, tenantId, [lit "responses:invoke"],
      credentials.selector_valid tenantId, htenant, responses_scope⟩

/-- What happens at an ingress: a turn, the end of the stream of an earlier turn, and
`clear_state`. -/
inductive IngressEvent
  | turn (input : TurnInput)
  | drained (i : Nat) (now : ℚ)
  | cleared

/-- The answer to an event. -/
inductive IngressEnd
  | subjectInvalid
  | ended (ending : TurnEnd)
  | silent

/-- An ingress: its store, and what the stream of each turn still has to record. -/
structure Ingress (σ : Type) where
  store : σ
  pending : List (Option StateEntry) := []

namespace Ingress

variable {σ : Type} (tx : GatewayTransaction) (api : StateApi σ) (subjectOf : SubjectOf)

/-- A turn: without a subject nothing happens. -/
def turn (ingress : Ingress σ) (input : TurnInput) : IngressEnd × Ingress σ :=
  match subjectOf input.tenantId input.tenant_valid with
  | none => (.subjectInvalid, { ingress with pending := ingress.pending ++ [none] })
  | some subject =>
      match input.invoke tx api subject ingress.store with
      | (ending, deferred, store) => (.ended ending, ⟨store, ingress.pending ++ [deferred]⟩)

/-- The stream of the `i`-th turn has been drained; a `ValueError` is ignored. -/
def drain (ingress : Ingress σ) (i : Nat) (now : ℚ) : Ingress σ :=
  match ingress.pending[i]? with
  | some (some entry) => ⟨(api.put now entry ingress.store).2, ingress.pending.set i none⟩
  | some none => ingress
  | none => ingress

/-- One event. -/
def step (ingress : Ingress σ) : IngressEvent → IngressEnd × Ingress σ
  | .turn input => ingress.turn tx api subjectOf input
  | .drained i now => (.silent, ingress.drain api i now)
  | .cleared => (.silent, { ingress with store := api.clear ingress.store })

/-- A run: the answers, and the ingress after it. -/
def run (start : Ingress σ) (events : List IngressEvent) : List IngressEnd × Ingress σ :=
  events.foldl (fun acc event =>
    let next := acc.2.step tx api subjectOf event
    (acc.1 ++ [next.1], next.2)) ([], start)

variable {tx api subjectOf} {start : Ingress σ} {events : List IngressEvent}
  {event : IngressEvent}

@[simp] theorem run_nil : start.run tx api subjectOf [] = ([], start) := rfl

theorem run_append_singleton : start.run tx api subjectOf (events ++ [event]) =
    let acc := start.run tx api subjectOf events
    let next := acc.2.step tx api subjectOf event
    (acc.1 ++ [next.1], next.2) := by
  rw [run, List.foldl_append]
  rfl

end Ingress

/-- A property of a store that its methods keep. -/
structure StateApi.Keeps {σ : Type} (api : StateApi σ) (I : σ → Prop) : Prop where
  put : ∀ now entry store, I store → I (api.put now entry store).2
  resolve : ∀ now responseId tenantId selector store, I store →
    I (api.resolve now responseId tenantId selector store).2
  clear : ∀ store, I store → I (api.clear store)

section Keeps

variable {σ : Type} {tx : GatewayTransaction} {api : StateApi σ} {subjectOf : SubjectOf}
  {I : σ → Prop} {store : σ}

theorem TurnInput.findPrevious_keeps (h : api.Keeps I) (hstore : I store) (input : TurnInput)
    (subject : DataPlaneSubject) : I (input.findPrevious api subject store).2 := by
  unfold findPrevious
  cases input.previousId? with
  | none => exact hstore
  | some previousId =>
      have hresolved := h.resolve input.resolvedAt previousId subject.tenantId
        subject.credentialSelector store hstore
      simp only
      split
      · rename_i hresolve
        rwa [hresolve] at hresolved
      · rename_i hresolve
        rwa [hresolve] at hresolved
      · rename_i hresolve
        rwa [hresolve] at hresolved

theorem TurnInput.recordTurn_keeps (h : api.Keeps I) (hstore : I store) (input : TurnInput)
    (subject : DataPlaneSubject) (answered : AnsweredTurn) :
    I (input.recordTurn tx api subject answered store).2.2 := by
  unfold recordTurn
  have hput := h.put input.recordedAt (tx.stateEntry answered.response.responseId subject
    answered.normalized answered.prepared) store hstore
  simp only
  split
  · exact hstore
  split
  · rename_i hresult
    rwa [hresult] at hput
  · rename_i hresult
    rwa [hresult] at hput
  · rename_i hresult
    rwa [hresult] at hput

/-- A turn keeps what the methods of the store keep. -/
theorem TurnInput.invoke_keeps (h : api.Keeps I) (hstore : I store) (input : TurnInput)
    (subject : DataPlaneSubject) : I (input.invoke tx api subject store).2.2 := by
  unfold invoke
  have hfound := findPrevious_keeps h hstore input subject
  split
  · exact hstore
  split
  · rename_i hprevious
    rwa [hprevious] at hfound
  · rename_i hprevious
    rw [hprevious] at hfound
    split
    · exact hfound
    · exact recordTurn_keeps h hfound input subject _

/-- A run keeps what the methods of the store keep. -/
theorem Ingress.run_keeps (h : api.Keeps I) {start : Ingress σ} (hstart : I start.store)
    (events : List IngressEvent) : I (start.run tx api subjectOf events).2.store := by
  induction events using List.reverseRecOn with
  | nil => exact hstart
  | append_singleton events event ih =>
      rw [run_append_singleton]
      cases event with
      | cleared => exact h.clear _ ih
      | drained i now =>
          simp only [step, drain]
          split
          · exact h.put _ _ _ ih
          · exact ih
          · exact ih
      | turn input =>
          simp only [step, turn]
          split
          · exact ih
          · rename_i subject _
            exact input.invoke_keeps h ih subject

end Keeps

end MediaBridge.Gateway
