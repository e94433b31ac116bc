import MediaBridge.Gateway.TurnFailures

/-!
# The request handlers of the gateway

`responses` and `chat_completions` of `media_bridge_gateway/app.py`, from the bytes of a body to
the response, and which bodies they answer.

## Implementation notes

A recursion of `json.loads` is a `RuntimeError`, a body that is no JSON is a `ValueError`, and so
is a `ChatNormalizationError`: the handlers answer each in the first clause that names it. The
headers of a response and the chunks of a stream are not kept.
-/

namespace MediaBridge.Gateway

open Foundation MediaBridge.Core

inductive Endpoint
  | responses
  | chatCompletions
deriving DecidableEq

/-- How the messages of an endpoint begin. -/
def Endpoint.title : Endpoint → Str
  | .responses => lit "Responses"
  | .chatCompletions => lit "Chat Completions"

/-- What a handler sends: `error` is the body of `_error`. -/
inductive Reply
  | error (code message : Str) (httpStatus : Nat)
  | content (body : Bytes) (httpStatus : Nat)
  | stream (httpStatus : Nat)

/-- An exception that leaves a handler. -/
inductive Escape
  | typeError
  | recursionError
  | transaction (ending : TurnEnd)

/-- Why there is no payload for the transaction. -/
inductive Unresolved
  | replied (reply : Reply)
  | typeError

/-- `json.loads(body)`. -/
def loadBody (P : Platform) (body : Bytes) : Except JsonText.LoadsError Json :=
  match JsonText.decodeJsonBytes P.wide body with
  | none => .error .decode
  | some text => JsonText.loads P.float P.jsonDepth text

/-- The texts of an output item. -/
def outputItemTexts : Json → List Str
  | .obj item =>
      match Json.field item "content" with
      | .arr parts => parts.filterMap fun part =>
          match part with
          | .obj part =>
              if (Json.field part "type").isLit "output_text" then (Json.field part "text").str?
              else none
          | _ => none
      | _ => []
  | _ => []

/-- `_output_text`. -/
def outputText (payload : Entries Str Json) : Str :=
  match Json.field payload "output_text" with
  | .str direct => direct
  | _ =>
      match Json.field payload "output" with
      | .arr items => (items.flatMap outputItemTexts).flatten
      | _ => []

/-- The completion that `chat_response_from_responses` makes of a response. -/
def chatCompletion (createdAt : Int) (id requestModel : Str) (payload : Entries Str Json) : Json :=
  let message := Json.obj [(lit "role", .str (lit "assistant")),
    (lit "content", .str (outputText payload))]
  let choice := Json.obj [(lit "index", .int 0), (lit "message", message),
    (lit "finish_reason", .str (lit "stop"))]
  let usage :=
    match Json.field payload "usage" with
    | .obj usage => [(lit "usage", Json.obj usage)]
    | _ => []
  .obj ([(lit "id", .str id), (lit "object", .str (lit "chat.completion")),
    (lit "created", .int createdAt),
    (lit "model", (Entries.get? payload (lit "model")).getD (.str requestModel)),
    (lit "choices", .arr [choice])] ++ usage)

/-- `chat_response_from_responses`; `none` is a `ValueError`. -/
def chatResponseFromResponses (P : Platform) (createdAt : Int) (body : Bytes)
    (requestModel : Str) : Except Escape (Option Bytes) :=
  match loadBody P body with
  | .error .recursion => .error .recursionError
  | .error _ => .ok none
  | .ok (.obj payload) =>
      match Json.field payload "id" with
      | .str id =>
          .ok ((JsonText.dumps P.float ⟨false, false, true⟩
            (chatCompletion createdAt id requestModel payload)).bind Utf8.encode)
      | _ => .ok none
  | .ok _ => .ok none

/-- What the handlers work with: the interpreter, what the middleware has set, the state, the
clocks and random bytes of a turn, and the provider boundary. -/
structure RequestHandlers where
  unicode : UnicodeData
  platform : Platform
  generation : Option GatewayGeneration
  subject : Option DataPlaneSubject
  store : GatewayStateStore
  maxBodyBytes : Nat
  room : Nat
  budget : Nat
  resolvedAt : ℚ
  checkedAt : Instant
  gatedAt : Instant
  gateSignedAt : ℚ
  verifiedAt : ℚ
  signedAt : ℚ
  recordedAt : ℚ
  entropy : { data : Bytes // data.length = 18 }
  providerEnd : ProviderEnd
  /-- `int(time.time())` of a chat completion. -/
  createdAt : Int

namespace RequestHandlers

variable (H : RequestHandlers)

def unavailable : Reply :=
  .error (lit "gateway_unavailable") (lit "Gateway is unavailable.") 503

def invalidRequest (endpoint : Endpoint) : Reply :=
  .error (lit "invalid_request") (endpoint.title ++ lit " request is invalid.") 400

/-- The answer to an exception of the resolver, when it is one that a handler catches. -/
def unresolved (endpoint : Endpoint) : PublicRequestError → Unresolved
  | .gatewayUnavailable => .replied unavailable
  | .lookup code =>
      .replied (.error (lit code) (lit "The requested public model is unavailable.") 404)
  | .valueError _ => .replied (invalidRequest endpoint)
  | .typeError => .typeError

/-- The payload for the transaction. -/
def payload (endpoint : Endpoint) (body : Bytes) : Except Unresolved (Entries Str Json) :=
  match loadBody H.platform body with
  | .error .recursion => .error (.replied unavailable)
  | .error _ => .error (.replied (invalidRequest endpoint))
  | .ok value =>
      match resolvePublicRequest value H.generation with
      | .error e => .error (unresolved endpoint e)
      | .ok resolved =>
          match endpoint with
          | .responses => .ok resolved
          | .chatCompletions =>
              match OpenaiChat.chatRequestToResponses H.platform (.obj resolved) with
              | .ok fields => .ok fields
              | .error _ => .error (.replied (invalidRequest endpoint))

/-- The turn of a payload. -/
def turnInput (generation : GatewayGeneration) (subject : DataPlaneSubject)
    (payload : Entries Str Json) : TurnInput where
  tenantId := subject.tenantId
  tenant_valid := subject.tenant_valid
  payload := .obj payload
  budget := H.budget
  resolvedAt := H.resolvedAt
  checkedAt := H.checkedAt
  gatedAt := H.gatedAt
  gateSignedAt := H.gateSignedAt
  verifiedAt := H.verifiedAt
  signedAt := H.signedAt
  recordedAt := H.recordedAt
  entropy := H.entropy
  provider := H.providerEnd.invoke generation.transaction generation.downstream

/-- The response to the result of a turn. -/
def reply (endpoint : Endpoint) (payload : Entries Str Json) (result : GatewayResult) :
    Except Escape Reply :=
  match result.status, result.response with
  | .completed, some response =>
      if response.streaming then .ok (.stream response.statusCode)
      else
        match endpoint with
        | .responses => .ok (.content response.body response.statusCode)
        | .chatCompletions =>
            let model := Receipts.textOf H.platform (Json.field payload "model")
            match chatResponseFromResponses H.platform H.createdAt response.body model with
            | .ok (some converted) => .ok (.content converted response.statusCode)
            | .ok none => .ok (.error (lit "invalid_downstream_response")
                (lit "Responses gateway returned an invalid response.") 502)
            | .error e => .error e
  | _, _ =>
      match result.error with
      | some (code, message) => .ok (.error code message result.httpStatus)
      | none => .ok (.error (lit "gateway_failed") (lit "Gateway failed safely.") 500)

/-- The turn of a payload, and the response to it. -/
def serve (endpoint : Endpoint) (payload : Entries Str Json) : Except Escape Reply :=
  match H.generation, H.subject with
  | some generation, some subject =>
      match ((H.turnInput generation subject payload).invokeWithin H.room generation.transaction
          gatewayApi subject H.store).1 with
      | .returned result => H.reply endpoint payload result
      | ending => .error (.transaction ending)
  | _, _ =>
      .ok (.error (lit "gateway_unavailable") (lit "Gateway request context is unavailable.") 503)

/-- `request.headers["content-type"].partition(";")[0].lower() == "application/json"`. -/
def acceptsType (contentType : Str) : Bool :=
  decide (H.unicode.lower (contentType.takeWhile fun c => c ≠ cp 59) = lit "application/json")

/-- `responses` and `chat_completions`. -/
def handle (endpoint : Endpoint) (contentType : Str) (body : Bytes) : Except Escape Reply :=
  if !H.acceptsType contentType then
    .ok (.error (lit "unsupported_content_type")
      (endpoint.title ++ lit " request must use application/json.") 415)
  else if H.maxBodyBytes < body.length then
    .ok (.error (lit "request_too_large")
      (endpoint.title ++ lit " request exceeded the configured limit.") 413)
  else
    match H.payload endpoint body with
    | .error (.replied reply) => .ok reply
    | .error .typeError => .error .typeError
    | .ok payload => H.serve endpoint payload

/-- The body is read: its type is accepted, and it is within the limit. -/
structure Reads (contentType : Str) (body : Bytes) : Prop where
  type : H.acceptsType contentType = true
  size : body.length ≤ H.maxBodyBytes

/-- The answer to a chat has a body that nests deeper than the decoder can open. -/
def NestedAnswer (endpoint : Endpoint) (result : GatewayResult) : Prop :=
  endpoint = .chatCompletions ∧ result.status = .completed ∧ ∃ response,
    result.response = some response ∧ response.streaming = false ∧
      loadBody H.platform response.body = .error .recursion

/-- A body that a handler does not answer: the effort has no hash, a check of the turn fails with
an exception that nobody catches, or the body of the answer cannot be decoded for its nesting. -/
inductive Escapes (endpoint : Endpoint) (contentType : Str) (body : Bytes) : Prop
  | effort {fields resolved : Entries Str Json} {generation : GatewayGeneration} :
      H.Reads contentType body → loadBody H.platform body = .ok (.obj fields) →
      H.generation = some generation → namePublicModel fields generation = .ok resolved →
      (Json.field resolved "reasoning_effort").hashable = false →
      Escapes endpoint contentType body
  | turn {payload : Entries Str Json} {generation : GatewayGeneration}
      {subject : DataPlaneSubject} {previous : Option GatewayStateRecord} :
      H.Reads contentType body → H.payload endpoint body = .ok payload →
      H.generation = some generation → H.subject = some subject →
      Begun (H.turnInput generation subject payload) subject H.store previous →
      TurnFails H.room generation.transaction (H.turnInput generation subject payload) payload
        previous (BoundaryFails H.providerEnd generation.transaction generation.downstream) →
      Escapes endpoint contentType body
  | answer {payload : Entries Str Json} {generation : GatewayGeneration}
      {subject : DataPlaneSubject} {result : GatewayResult} :
      H.Reads contentType body → H.payload endpoint body = .ok payload →
      H.generation = some generation → H.subject = some subject →
      ((H.turnInput generation subject payload).invokeWithin H.room generation.transaction
        gatewayApi subject H.store).1 = .returned result →
      H.NestedAnswer endpoint result → Escapes endpoint contentType body

end RequestHandlers

section Resolution

variable {effort value : Json} {fields : Entries Str Json} {generation : GatewayGeneration}

theorem checkEffort_eq_typeError_iff :
    checkEffort effort = .error .typeError ↔ effort.hashable = false := by
  unfold checkEffort
  by_cases hnull : effort.isNull = true
  · rw [if_pos hnull, (Json.isNull_iff _).mp hnull]
    exact iff_of_false nofun nofun
  rw [if_neg hnull]
  cases effort.hashable with
  | false => exact iff_of_true rfl rfl
  | true =>
      refine iff_of_false ?_ nofun
      rw [if_neg (by decide)]
      split <;> nofun

theorem namePublicModel_ne_typeError : namePublicModel fields generation ≠ .error .typeError := by
  unfold namePublicModel
  simp only
  split
  · split <;> nofun
  · split <;> nofun

/-- The resolver raises a `TypeError` for an effort without a hash, and for nothing else. -/
theorem resolvePublicRequest_eq_typeError_iff {generation : Option GatewayGeneration} :
    resolvePublicRequest value generation = .error .typeError ↔
      ∃ fields generation' resolved, value = .obj fields ∧ generation = some generation' ∧
        namePublicModel fields generation' = .ok resolved ∧
        (Json.field resolved "reasoning_effort").hashable = false := by
  unfold resolvePublicRequest
  cases generation with
  | none => exact iff_of_false nofun (by rintro ⟨_, _, _, -, ⟨⟩, -⟩)
  | some generation =>
      simp only
      split
      · rename_i fields
        constructor
        · intro h
          obtain hname | ⟨resolved, hname, h⟩ := bind_error_iff.mp h
          · exact absurd hname namePublicModel_ne_typeError
          · obtain heffort | ⟨_, -, h⟩ := bind_error_iff.mp h
            · exact ⟨fields, generation, resolved, rfl, rfl, hname,
                checkEffort_eq_typeError_iff.mp heffort⟩
            · cases h
        · rintro ⟨_, _, resolved, ⟨⟩, ⟨⟩, hname, heffort⟩
          exact bind_error_iff.mpr (.inr ⟨resolved, hname,
            bind_error_iff.mpr (.inl (checkEffort_eq_typeError_iff.mpr heffort))⟩)
      · rename_i hother
        exact iff_of_false nofun (by rintro ⟨fields, _, _, rfl, -⟩; exact hother fields rfl)

end Resolution

namespace RequestHandlers

variable {H : RequestHandlers} {endpoint : Endpoint} {contentType : Str} {body : Bytes}

theorem unresolved_eq_typeError_iff {e : PublicRequestError} :
    unresolved endpoint e = .typeError ↔ e = .typeError := by
  cases e <;> simp [unresolved]

/-- There is no payload for want of a hash, or the handler has an answer. -/
theorem payload_eq_typeError_iff :
    H.payload endpoint body = .error .typeError ↔
      ∃ fields generation resolved, loadBody H.platform body = .ok (.obj fields) ∧
        H.generation = some generation ∧ namePublicModel fields generation = .ok resolved ∧
        (Json.field resolved "reasoning_effort").hashable = false := by
  unfold payload
  cases hload : loadBody H.platform body with
  | error e => cases e <;> exact iff_of_false nofun (by rintro ⟨_, _, _, ⟨⟩, -⟩)
  | ok value =>
      simp only [Except.ok.injEq]
      rw [← resolvePublicRequest_eq_typeError_iff]
      cases hresolve : resolvePublicRequest value H.generation with
      | error e => simp only [Except.error.injEq, unresolved_eq_typeError_iff]
      | ok resolved =>
          refine iff_of_false ?_ nofun
          cases endpoint with
          | responses => nofun
          | chatCompletions =>
              simp only
              split <;> nofun

/-- A completion is made of every body that the decoder can open. -/
theorem chatResponseFromResponses_raises_iff {P : Platform} {createdAt : Int} {data : Bytes}
    {model : Str} : (∃ made, chatResponseFromResponses P createdAt data model = .ok made) ↔
      loadBody P data ≠ .error .recursion := by
  unfold chatResponseFromResponses
  cases loadBody P data with
  | error e =>
      cases e with
      | recursion => exact iff_of_false (by rintro ⟨_, ⟨⟩⟩) (not_not_intro rfl)
      | decode | intTooLong => exact iff_of_true ⟨_, rfl⟩ nofun
  | ok value =>
      refine iff_of_true ?_ nofun
      cases value with
      | obj fields =>
          simp only
          split <;> exact ⟨_, rfl⟩
      | null | bool _ | int _ | float _ | str _ | arr _ => exact ⟨_, rfl⟩

theorem reply_iff {payload : Entries Str Json} {result : GatewayResult} :
    (∃ reply, H.reply endpoint payload result = .ok reply) ↔ ¬ H.NestedAnswer endpoint result := by
  unfold reply
  split
  · rename_i response hstatus hresponse
    split
    · rename_i hstreaming
      refine iff_of_true ⟨_, rfl⟩ ?_
      rintro ⟨-, -, other, hother, hwhole, -⟩
      cases hresponse.symm.trans hother
      rw [hstreaming] at hwhole
      cases hwhole
    · rename_i hwhole
      cases endpoint with
      | responses => exact iff_of_true ⟨_, rfl⟩ (by rintro ⟨⟨⟩, -⟩)
      | chatCompletions =>
          have hmade := @chatResponseFromResponses_raises_iff H.platform H.createdAt response.body
            (Receipts.textOf H.platform (Json.field payload "model"))
          have hnested : ¬ H.NestedAnswer .chatCompletions result ↔
              loadBody H.platform response.body ≠ .error .recursion := by
            refine not_congr ⟨?_, fun h => ⟨rfl, hstatus, response, hresponse, ?_, h⟩⟩
            · rintro ⟨-, -, other, hother, -, h⟩
              cases hresponse.symm.trans hother
              exact h
            · exact Bool.eq_false_iff.mpr hwhole
          rw [hnested, ← hmade]
          simp only
          cases chatResponseFromResponses H.platform H.createdAt response.body
              (Receipts.textOf H.platform (Json.field payload "model")) with
          | error e => exact iff_of_false (by rintro ⟨_, ⟨⟩⟩) (by rintro ⟨_, ⟨⟩⟩)
          | ok made => cases made <;> exact iff_of_true ⟨_, rfl⟩ ⟨_, rfl⟩
  · rename_i hother
    refine iff_of_true (by split <;> exact ⟨_, rfl⟩) ?_
    rintro ⟨-, hstatus, response, hresponse, -⟩
    exact hother response hstatus hresponse

/-- The turn of a payload is answered exactly when it ends with a result that can be sent. -/
theorem serve_replies_iff {payload : Entries Str Json} {generation : GatewayGeneration}
    {subject : DataPlaneSubject} (hgeneration : H.generation = some generation)
    (hsubject : H.subject = some subject) :
    (∃ reply, H.serve endpoint payload = .ok reply) ↔
      ∃ result, ((H.turnInput generation subject payload).invokeWithin H.room
        generation.transaction gatewayApi subject H.store).1 = .returned result ∧
          ¬ H.NestedAnswer endpoint result := by
  rw [serve, hgeneration, hsubject]
  simp only
  cases ((H.turnInput generation subject payload).invokeWithin H.room generation.transaction
      gatewayApi subject H.store).1 with
  | returned result =>
      refine reply_iff.trans ⟨fun h => ⟨result, rfl, h⟩, ?_⟩
      rintro ⟨_, ⟨⟩, h⟩
      exact h
  | pipeline e => exact iff_of_false (by rintro ⟨_, ⟨⟩⟩) (by rintro ⟨_, ⟨⟩, -⟩)
  | state e => exact iff_of_false (by rintro ⟨_, ⟨⟩⟩) (by rintro ⟨_, ⟨⟩, -⟩)

/-- A payload is answered exactly when no check of its turn fails. -/
theorem serve_replies_iff_not_escapes {payload : Entries Str Json}
    (hclock : |H.gateSignedAt| < 2 ^ 1024)
    (hgate : ∀ generation, H.generation = some generation →
      generation.transaction.gate.backends.Declared ∧
        1 ≤ generation.transaction.gate.platform.jsonDepth)
    (hread : H.Reads contentType body) (hpayload : H.payload endpoint body = .ok payload)
    (heffort : ¬ ∃ fields generation resolved, loadBody H.platform body = .ok (.obj fields) ∧
      H.generation = some generation ∧ namePublicModel fields generation = .ok resolved ∧
      (Json.field resolved "reasoning_effort").hashable = false) :
    (∃ reply, H.serve endpoint payload = .ok reply) ↔ ¬ H.Escapes endpoint contentType body := by
  cases hgeneration : H.generation with
  | none =>
      refine iff_of_true ⟨_, by rw [serve, hgeneration]⟩ fun hescapes => ?_
      cases hescapes with
      | effort _ _ hother =>
          rw [hgeneration] at hother
          cases hother
      | turn _ _ hother | answer _ _ hother =>
          rw [hgeneration] at hother
          cases hother
  | some generation =>
      cases hsubject : H.subject with
      | none =>
          refine iff_of_true ⟨_, by rw [serve, hgeneration, hsubject]⟩ fun hescapes => ?_
          cases hescapes with
          | effort _ hload hother hname hhash =>
              exact heffort ⟨_, _, _, hload, hother, hname, hhash⟩
          | turn _ _ _ hother | answer _ _ _ hother =>
              rw [hsubject] at hother
              cases hother
      | some subject =>
          obtain ⟨hbackends, hdepth⟩ := hgate generation hgeneration
          have hturn : (H.turnInput generation subject payload).payload = .obj payload := rfl
          have hsigned : |(H.turnInput generation subject payload).gateSignedAt| < 2 ^ 1024 :=
            hclock
          have hprovider : (H.turnInput generation subject payload).provider =
            H.providerEnd.invoke generation.transaction generation.downstream := rfl
          have hreturned : ((H.turnInput generation subject payload).invokeWithin H.room
              generation.transaction gatewayApi subject H.store).1.IsReturned ↔ _ :=
            invokeWithin_isReturned_iff hbackends hsigned hdepth hturn hprovider
          rw [serve_replies_iff hgeneration hsubject]
          constructor
          · rintro ⟨result, hresult, hsent⟩ hescapes
            cases hescapes with
            | effort _ hload hother hname hhash =>
                exact heffort ⟨_, _, _, hload, hother, hname, hhash⟩
            | turn _ hpayload' hgeneration' hsubject' hbegun hfails =>
                cases hpayload.symm.trans hpayload'
                cases hgeneration.symm.trans hgeneration'
                cases hsubject.symm.trans hsubject'
                exact hreturned.mp (by rw [hresult]; trivial) ⟨_, hbegun, hfails⟩
            | answer _ hpayload' hgeneration' hsubject' hresult' hnested =>
                cases hpayload.symm.trans hpayload'
                cases hgeneration.symm.trans hgeneration'
                cases hsubject.symm.trans hsubject'
                cases hresult.symm.trans hresult'
                exact hsent hnested
          · intro hno
            have hends := hreturned.mpr fun ⟨_, hbegun, hfails⟩ =>
              hno (.turn hread hpayload hgeneration hsubject hbegun hfails)
            cases hresult : ((H.turnInput generation subject payload).invokeWithin H.room
                generation.transaction gatewayApi subject H.store).1 with
            | returned result =>
                exact ⟨result, rfl, fun hnested =>
                  hno (.answer hread hpayload hgeneration hsubject hresult hnested)⟩
            | pipeline e | state e =>
                rw [hresult] at hends
                exact hends.elim

section Sample

theorem selector_handlersSubject : responseIdPattern (lit "key-1") = true := by decide

theorem tenant_handlersSubject : tenantIdPattern (lit "tenant") = true := by decide

theorem scopes_handlersSubject : [lit "responses:invoke"] ≠ [] ∧
    ∀ scope ∈ [lit "responses:invoke"], scopePattern scope = true := by decide

def sampleSubject : DataPlaneSubject where
  credentialSelector := lit "key-1"
  tenantId := lit "tenant"
  scopes := [lit "responses:invoke"]
  selector_valid := selector_handlersSubject
  tenant_valid := tenant_handlersSubject
  scopes_valid := scopes_handlersSubject

theorem length_samplePepper : 32 ≤ (List.replicate 32 (1 : Byte)).length := by decide

theorem ttl_range_sampleHandlers : 1 ≤ 1800 ∧ 1800 ≤ 86400 := by decide

theorem entries_range_sampleHandlers : 1 ≤ 1000 ∧ 1000 ≤ 100000 := by decide

/-- A generation with one text model, and no provider for it. -/
def sampleGeneration : GatewayGeneration where
  version := 1
  snapshotId := lit "snapshot"
  snapshotDigest := lit "digest"
  gate := PreRequestGate.sampleGate
  downstream := ⟨[], .sample⟩
  credentialVerifier := ⟨[], List.replicate 32 1, length_samplePepper, List.nodup_nil⟩
  transaction := SealedTurn.sampleTransaction
  models := [lit "text-model"]
  autoModel := none

def sampleHandlers : RequestHandlers where
  unicode := .ascii id
  platform := .sample
  generation := some sampleGeneration
  subject := some sampleSubject
  store := { ttl_range := ttl_range_sampleHandlers, entries_range := entries_range_sampleHandlers }
  maxBodyBytes := 65536
  room := 900
  budget := 900
  resolvedAt := 0
  checkedAt := 0
  gatedAt := 0
  gateSignedAt := 0
  verifiedAt := 0
  signedAt := 0
  recordedAt := 0
  entropy := SealedTurn.sampleEntropy
  providerEnd := ⟨id, none, 900, 0, 10, [], fun _ => .error ([], [], 502)⟩
  createdAt := 0

def asciiBody (text : String) : Bytes := (lit text).map fun c => Utf8.byte c.val

def greeting : Bytes := asciiBody "\x7b\"model\":\"text-model\",\"input\":\"hello\"\x7d"

/-- A request whose effort is an empty list. -/
def listedEffort : Bytes :=
  asciiBody "\x7b\"model\":\"text-model\",\"input\":\"hello\",\"reasoning_effort\":[]\x7d"

theorem sampleHandlers_ready : ∀ generation, sampleHandlers.generation = some generation →
    generation.transaction.gate.backends.Declared ∧
      1 ≤ generation.transaction.gate.platform.jsonDepth := by
  rintro _ ⟨⟩
  exact ⟨PreRequestGate.declared_sampleBackends, by decide⟩

end Sample

end RequestHandlers

end MediaBridge.Gateway
