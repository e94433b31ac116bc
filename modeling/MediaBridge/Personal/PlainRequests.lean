import MediaBridge.Core.GateReturns
import MediaBridge.Foundation.JsonSize
import MediaBridge.Gateway.SealedTurn
import MediaBridge.Personal.ConfigRoute
import MediaBridge.Personal.SolarResponses

/-!
# Plain requests

A request for `auto` that is a text: the runtime sends it exactly while its model is fresh, has the
form of a registry identifier, and does not start like a data URL.

## Implementation notes

`Timely` says what the clocks of a turn do and how much of the stack is left.
-/

namespace MediaBridge.Personal

open Foundation MediaBridge.Core Gateway

section Payloads

variable {U : UnicodeData} {payload : Entries Str Json} {model text : Str}

/-- A payload with a text for a model, and perhaps with the wish for a stream. -/
structure TextPayload (payload : Entries Str Json) (model text : Str) : Prop where
  model_eq : Entries.get? payload (lit "model") = some (.str model)
  input_eq : Entries.get? payload (lit "input") = some (.str text)
  entries : ∀ e ∈ payload, e = (lit "model", .str model) ∨ e = (lit "input", .str text) ∨
    ∃ b, e = (lit "stream", .bool b)

/-- A text that the contract of a request accepts, and that is no data URL. -/
structure PlainText (U : UnicodeData) (text : Str) : Prop where
  filled : text.strip ≠ []
  encodable : text.encodable = true
  length_le : text.length ≤ 200000
  clean : MediaReference.startsAsData U text = false

/-- A text for `auto`. -/
structure PlainRequest (U : UnicodeData) (fields : Entries Str Json) (text : Str) : Prop where
  payload : TextPayload fields (lit "auto") text
  nodup : (Entries.keys fields).Nodup
  plain : PlainText U text

/-- A model that the contract of a request accepts, and that is no data URL. -/
structure ModelAccepted (U : UnicodeData) (model : Str) : Prop where
  pattern : registryIdPattern model = true
  clean : MediaReference.startsAsData U model = false

theorem TextPayload.get?_eq_none (h : TextPayload payload model text) {key : Str}
    (hkey : key ∉ [lit "model", lit "input", lit "stream"]) : Entries.get? payload key = none := by
  simp only [List.mem_cons, List.not_mem_nil, or_false, not_or] at hkey
  rw [Entries.get?_eq_none_iff]
  intro hmem
  obtain ⟨e, he, rfl⟩ := List.mem_map.mp hmem
  rcases h.entries e he with rfl | rfl | ⟨b, rfl⟩
  · exact hkey.1 rfl
  · exact hkey.2.1 rfl
  · exact hkey.2.2 rfl

theorem TextPayload.field_eq_null (h : TextPayload payload model text) {key : String}
    (hkey : lit key ∉ [lit "model", lit "input", lit "stream"]) :
    Json.field payload key = .null := by
  rw [Json.field, h.get?_eq_none hkey]
  rfl

/-- The model that `auto` stands for is put into the payload. -/
theorem TextPayload.resolved {auto : Str} (h : TextPayload payload auto text)
    (hnodup : (Entries.keys payload).Nodup) :
    TextPayload (Entries.set payload (lit "model") (.str model)) model text := by
  have hself := Entries.get?_set_self payload (lit "model") (.str model)
  refine ⟨hself, ?_, fun e he => ?_⟩
  · rw [Entries.get?_set_of_ne _ _ (by decide)]
    exact h.input_eq
  · rcases Entries.mem_set he with rfl | hold
    · exact .inl rfl
    · rcases h.entries e hold with rfl | rfl | ⟨b, rfl⟩
      · have hauto := (Entries.get?_eq_some_iff (Entries.nodup_set hnodup _ _)).mpr he
        rw [hself, Option.some.injEq] at hauto
        exact .inl (by rw [hauto])
      · exact .inr (.inl rfl)
      · exact .inr (.inr ⟨b, rfl⟩)

theorem isAscii_of_registryHeadChar {c : CodePoint} (h : registryHeadChar c = true) :
    c.isAscii = true := by
  simp only [registryHeadChar, CodePoint.isAsciiLower, CodePoint.isAsciiDigit, Bool.or_eq_true,
    Bool.and_eq_true, decide_eq_true_eq] at h
  simp only [CodePoint.isAscii, decide_eq_true_eq]
  omega

theorem isAscii_of_registryChar {c : CodePoint} (h : registryChar c = true) :
    c.isAscii = true := by
  simp only [registryChar, Bool.or_eq_true, beq_iff_eq] at h
  rcases h with ((((h | rfl) | rfl) | rfl) | rfl) | rfl
  · exact isAscii_of_registryHeadChar h
  all_goals decide

theorem ModelAccepted.ascii (h : ModelAccepted U model) : ∀ c ∈ model, c.isAscii = true := by
  have hpattern := h.pattern
  cases model with
  | nil => cases hpattern
  | cons c rest =>
      rw [registryIdPattern, Bool.and_eq_true, Bool.and_eq_true, List.all_eq_true] at hpattern
      exact List.forall_mem_cons.mpr ⟨isAscii_of_registryHeadChar hpattern.1.1,
        fun d hd => isAscii_of_registryChar (hpattern.2 d hd)⟩

theorem ModelAccepted.valid (h : ModelAccepted U model) :
    Constrained.Valid 128 registryIdPattern model := by
  refine ⟨Str.encodable_of_ascii h.ascii, ?_, h.pattern⟩
  have hpattern := h.pattern
  cases model with
  | nil => exact Nat.zero_le _
  | cons c rest =>
      rw [registryIdPattern, Bool.and_eq_true, Bool.and_eq_true, decide_eq_true_eq] at hpattern
      exact Nat.succ_le_succ hpattern.1.2

theorem TextPayload.writable (h : TextPayload payload model text) (hmodel : model.encodable = true)
    (htext : text.encodable = true) : JsonText.Writable (.obj payload) := by
  refine .obj (fun e he => ?_) fun e he => ?_
  · rcases h.entries e he with rfl | rfl | ⟨b, rfl⟩
    · exact (by decide : (lit "model").encodable = true)
    · exact (by decide : (lit "input").encodable = true)
    · exact (by decide : (lit "stream").encodable = true)
  · rcases h.entries e he with rfl | rfl | ⟨b, rfl⟩
    · exact .str hmodel
    · exact .str htext
    · exact .bool b

end Payloads

section Normalization

variable {U : UnicodeData} {payload : Entries Str Json} {model text : Str} {budget : Nat}

/-- The other entries of a text payload hold no reference to a medium. -/
theorem TextPayload.scanValues_eq_clean (h : TextPayload payload model text)
    (hmodel : MediaReference.startsAsData U model = false) (hbudget : 0 < budget) :
    MediaReference.scanValues U budget (OpenaiResponses.otherEntries payload) = .clean := by
  obtain ⟨n, rfl⟩ : ∃ n, budget = n + 1 := ⟨budget - 1, by omega⟩
  rw [MediaReference.scanValues_eq_clean_iff]
  intro e he
  obtain ⟨hmem, hinput⟩ := List.mem_filter.mp he
  rcases h.entries e hmem with rfl | rfl | ⟨b, rfl⟩
  · exact MediaReference.containsMediaReference_str_eq_clean_iff.mpr hmodel
  · exact absurd rfl (of_decide_eq_true hinput)
  · rfl

/-- A model in an accepted payload is accepted. -/
theorem TextPayload.modelAccepted_of_ok (h : TextPayload payload model text)
    {n : NormalizedResponsesRequest}
    (hok : OpenaiResponses.normalizeResponsesRequest U budget (.obj payload) none = .ok n) :
    ModelAccepted U model := by
  obtain ⟨fields, input, selected, parts, ⟨⟩, hfrom⟩ := OpenaiResponses.normalizedFrom_of_ok hok
  have hid : Json.str model = .str n.request.target.registryId.value := by
    rw [← hfrom.model, Json.field, h.model_eq]
    rfl
  injection hid with hid
  refine ⟨hid ▸ n.request.target.registryId.accepted, ?_⟩
  have hmem : (lit "model", Json.str model) ∈ OpenaiResponses.otherEntries payload :=
    List.mem_filter.mpr ⟨Entries.mem_of_get? h.model_eq,
      decide_eq_true (by decide : lit "model" ≠ lit "input")⟩
  have hclean := MediaReference.scanValues_eq_clean_iff.mp hfrom.othersClean _ hmem
  cases budget with
  | zero => cases hclean
  | succ m => exact MediaReference.containsMediaReference_str_eq_clean_iff.mp hclean

/-- What a text is normalized to. -/
structure NormalizedText (model text : Str) (n : NormalizedResponsesRequest) : Prop where
  target : n.request.target.registryId.value = model
  content : ∃ part : TextPart, part.text.value = text ∧ n.request.content = [.text part]
  noMedia : n.inputHadMedia = false
  noState : n.previousState = none

theorem buildRequest_text {part : TextPart}
    (hmodel : Constrained.Valid 128 registryIdPattern model) :
    ∃ request, OpenaiResponses.buildRequest (.str model) none [.text part] = .ok request ∧
      request.target.registryId.value = model ∧ request.content = [.text part] := by
  unfold OpenaiResponses.buildRequest
  simp only [Json.str?, Constrained.validate_of_valid hmodel, OpenaiResponses.stateParts,
    Option.bind_eq_bind, Option.bind_some, List.nil_append, PrepareForModelRequest.validate]
  exact ⟨_, rfl, rfl, rfl⟩

theorem currentContent_text (htext : PlainText U text) :
    ∃ part : TextPart, part.text.value = text ∧
      OpenaiResponses.currentContent U (.str text) = .ok ([.text part], text) := by
  have hvalid : Constrained.Valid 200000 anyText text := ⟨htext.encodable, htext.length_le, rfl⟩
  refine ⟨⟨⟨text, hvalid.1, hvalid.2.1, hvalid.2.2⟩⟩, rfl, ?_⟩
  cases text with
  | nil => exact absurd rfl htext.filled
  | cons c rest =>
      have hpart : OpenaiResponses.newTextPart (c :: rest) = 
          .ok (.text ⟨⟨_, hvalid.1, hvalid.2.1, hvalid.2.2⟩⟩) := by
        rw [OpenaiResponses.newTextPart, textPart, Constrained.validate_of_valid hvalid]
        rfl
      exact bind_eq_ok_iff.mpr ⟨_, hpart, rfl⟩

theorem TextPayload.exists_normalized (h : TextPayload payload model text)
    (htext : PlainText U text) (hmodel : ModelAccepted U model) (hbudget : 0 < budget) :
    ∃ n, OpenaiResponses.normalizeResponsesRequest U budget (.obj payload) none = .ok n ∧
      NormalizedText model text n := by
  have hmodelField : Json.field payload "model" = .str model := by
    rw [Json.field, h.model_eq]
    rfl
  obtain ⟨part, hpart, hcontent⟩ := currentContent_text htext
  obtain ⟨request, hrequest, htarget, hparts⟩ :
      ∃ request, OpenaiResponses.buildRequest (.str model) none [.text part] = .ok request ∧
        request.target.registryId.value = model ∧ request.content = [.text part] :=
    buildRequest_text hmodel.valid
  refine ⟨⟨request, text, false, none⟩, ?_, htarget, ⟨part, hpart, hparts⟩, rfl, rfl⟩
  simp only [OpenaiResponses.normalizeResponsesRequest,
    h.field_eq_null (by decide : lit "conversation" ∉ _),
    h.field_eq_null (by decide : lit "previous_response_id" ∉ _), h.input_eq, hmodelField]
  refine bind_eq_ok_iff.mpr ⟨(), ?_, ?_⟩
  · exact OpenaiResponses.refuseReference_eq_ok_iff.mpr
      (h.scanValues_eq_clean hmodel.clean hbudget)
  · refine bind_eq_ok_iff.mpr ⟨.str text, rfl, bind_eq_ok_iff.mpr ⟨_, hcontent, ?_⟩⟩
    exact bind_eq_ok_iff.mpr ⟨request, hrequest, rfl⟩

end Normalization

section Gate

variable {gate : PreRequestGate} {signedAt : ℚ} {request : PrepareForModelRequest}
  {content : List ContentPart} {level : CapabilityState} {action : GateAction} {text : Str}
  {removed : Bool} {outcome : GateOutcome}

/-- What the gate hands on, with a receipt of the time at which it was signed. -/
structure HandedOn (gate : PreRequestGate) (signedAt : ℚ) (request : PrepareForModelRequest)
    (level : CapabilityState) (action : GateAction) (prepared : DownstreamPayload) : Prop where
  targetId : prepared.targetId = request.target.registryId.value
  capability : prepared.capability = level.value
  action : prepared.action = action.value
  encodable : Receipts.Encodable prepared.binding
  receipt : Receipts.sign gate.platform gate.signer signedAt prepared.binding 30 =
    some prepared.receipt

theorem encodable_of_canonicalDigest {P : Platform} {v : Json} {digest : Str}
    (h : Gate.canonicalDigest P v = some digest) : digest.encodable = true := by
  obtain ⟨text, -, h⟩ := Option.bind_eq_some_iff.mp h
  obtain ⟨data, -, h⟩ := Option.bind_eq_some_iff.mp h
  cases h
  exact Str.encodable_of_ascii (hexText_ascii _)

theorem handedOn_of_ready
    (h : gate.ready signedAt request content level action text removed = .ok outcome) :
    ∃ prepared, outcome.prepared = some prepared ∧
      HandedOn gate signedAt request level action prepared := by
  obtain ⟨inputDigest, hinput, h⟩ := ok_of_bind h
  obtain ⟨outputDigest, houtput, h⟩ := ok_of_bind h
  obtain ⟨receipt, hreceipt, h⟩ := ok_of_bind h
  obtain ⟨text, -, h⟩ := ok_of_bind h
  cases h
  have hlevel : level.value.encodable = true := by cases level <;> decide
  have haction : action.value.encodable = true := by cases action <;> decide
  refine ⟨_, rfl, rfl, rfl, rfl, ⟨?_, ?_, ?_, ?_, ?_⟩, Gate.required_eq_ok.mp hreceipt⟩
  · exact request.target.registryId.encodable
  · exact hlevel
  · exact encodable_of_canonicalDigest (Gate.required_eq_ok.mp hinput)
  · exact encodable_of_canonicalDigest (Gate.required_eq_ok.mp houtput)
  · exact haction

end Gate

section Registry

variable {runtime : PersonalRuntime} {now : Instant}

theorem isStale_capability : runtime.capability.isStale now = decide (modelExpiry ≤ now) := rfl

/-- The only model of a runtime takes no media. -/
theorem resolve_modelRegistry (h : now < modelExpiry) :
    runtime.modelRegistry.resolve runtime.model now = ⟨.nonVision, some runtime.capability⟩ := by
  have hlookup : runtime.modelRegistry.lookup runtime.model = some runtime.capability := by
    unfold CapabilityRegistry.lookup
    exact List.find?_cons_of_pos (decide_eq_true rfl)
  have hfresh : runtime.capability.isStale now = false := by
    rw [isStale_capability, decide_eq_false_iff_not]
    exact not_le.mpr h
  have htext : runtime.capability.takesMedia = false := by
    change decide (lit "image" ∈ ({lit "text"} : Finset Str) ∨
      lit "pdf" ∈ ({lit "text"} : Finset Str)) = false
    decide
  rw [CapabilityRegistry.resolve, hlookup]
  simp only [hfresh, htext, Bool.false_eq_true, if_false]

/-- `auto` stands for the model of the runtime until the model expires. -/
theorem resolveAuto_auto {fields : Entries Str Json}
    (h : Entries.get? fields (lit "model") = some (.str (lit "auto"))) :
    runtime.resolveAuto now (.obj fields) =
      if now < modelExpiry then
        .ok (.obj (Entries.set fields (lit "model") (.str runtime.model)))
      else .error .modelUnavailable := by
  have hauto : (Json.field fields "model").isLit "auto" = true := by
    rw [Json.field, h]
    rfl
  have havailable : runtime.available now =
      if now < modelExpiry then [runtime.capability] else [] := by
    change [runtime.capability].filter (fun c => !c.isStale now) = _
    rw [List.filter_singleton, isStale_capability]
    by_cases hnow : now < modelExpiry
    · simp [hnow, not_le.mpr hnow]
    · simp [hnow, not_lt.mp hnow]
  unfold PersonalRuntime.resolveAuto
  simp only [hauto, if_true, havailable]
  by_cases hnow : now < modelExpiry
  · rw [if_pos hnow, if_pos hnow]
    rfl
  · rw [if_neg hnow, if_neg hnow]

end Registry

section Sealing

variable {H : RuntimeHost} {runtime : PersonalRuntime} {setting : RequestSetting}
  {payload : Entries Str Json} {text : Str} {n : NormalizedResponsesRequest}

/-- The clocks of a turn stay within the lifetimes of its receipts, and there is stack left. -/
structure Timely (setting : RequestSetting) : Prop where
  gateClock : |setting.gateSignedAt| < 2 ^ 1024
  sealClock : |setting.signedAt| < 2 ^ 1024
  gate_le : truncate setting.gateSignedAt ≤ truncate setting.verifiedAt
  gate_lifetime : truncate setting.verifiedAt ≤ truncate setting.gateSignedAt + 30
  seal_le : truncate setting.signedAt ≤ truncate setting.guardedAt
  seal_lifetime : truncate setting.guardedAt ≤ truncate setting.signedAt + 30
  budget : 0 < setting.budget
  stack : 2 ≤ setting.stack

/-- A turn without earlier state reaches the gate with what the normalizer makes of its payload. -/
theorem beginTurn_text {tx : GatewayTransaction} {model : Str}
    (h : TextPayload payload model text) {budget : Nat} {store : GatewayStateStore} {now : ℚ}
    {gateNow : Instant} {admission : Admission} :
    (tx.beginTurn budget store now gateNow (.obj payload) personalSubject).2 = .ok admission ↔
      OpenaiResponses.normalizeResponsesRequest tx.gate.unicode budget (.obj payload) none =
        .ok admission.normalized ∧ admission.previous = none := by
  have hfound : GatewayTransaction.findState store now (.obj payload) personalSubject =
      (store, .ok none) := by
    unfold GatewayTransaction.findState
    simp only [Json.obj?, h.field_eq_null (by decide : lit "previous_response_id" ∉ _), Json.str?]
  unfold GatewayTransaction.beginTurn
  rw [if_neg (by decide), hfound]
  simp only [GatewayTransaction.normalizeAndCheck, Option.map_none]
  constructor
  · intro hok
    split at hok
    · cases hok
    · cases hok
    · next normalized hnormalized =>
        split at hok
        · cases hok
        · cases hok
          exact ⟨hnormalized, rfl⟩
  · rintro ⟨hnormalized, hprevious⟩
    obtain ⟨fields, input, current, parts, -, hfrom⟩ :=
      OpenaiResponses.normalizedFrom_of_ok hnormalized
    rw [hnormalized]
    simp only [GatewayTransaction.checkStateCapability, hfrom.previousState]
    rw [← hprevious]

/-- The gate hands a text on. -/
theorem exists_prepared (hn : NormalizedText runtime.model text n) (htext : text.length ≤ 200000)
    (hnow : setting.gateNow < modelExpiry) (htimely : Timely setting) :
    ∃ outcome prepared,
      (runtime.transaction H setting).gate.prepareForModel setting.gateNow setting.gateSignedAt
        personalSubject.tenantId n.request = .ok outcome ∧ outcome.prepared = some prepared ∧
      HandedOn (runtime.transaction H setting).gate setting.gateSignedAt n.request .nonVision
        .passthrough prepared := by
  obtain ⟨part, rfl, hcontent⟩ := hn.content
  have hresolve : runtime.modelRegistry.resolve runtime.model setting.gateNow =
      ⟨.nonVision, some runtime.capability⟩ := resolve_modelRegistry hnow
  have hroute : (runtime.transaction H setting).gate.route setting.gateNow n.request =
      .textOnly .nonVision := by
    unfold PreRequestGate.route
    simp only [PersonalRuntime.transaction, hn.target, hcontent, hresolve]
    rfl
  have hjoined : Gate.joinText n.request.content = part.text.value.strip := by
    rw [hcontent]
    rfl
  have hvalid : Constrained.Valid 200000 anyText (Gate.joinText n.request.content) := by
    rw [PreRequestGate.valid_joinText_iff, hjoined]
    exact (Str.strip_isInfix _).length_le.trans htext
  obtain ⟨outcome, hready, -⟩ := (PreRequestGate.returns_ready_iff htimely.gateClock
    (by decide : GateAction.passthrough ≠ .blocked)).mpr hvalid
  obtain ⟨prepared, hprepared, hhanded⟩ := handedOn_of_ready hready
  refine ⟨outcome, prepared, ?_, hprepared, hhanded⟩
  rw [PreRequestGate.prepareForModel_eq, hroute]
  exact hready

/-- What is sealed for a text. -/
structure SealedText (P : Platform) (runtime : PersonalRuntime) (payload : Entries Str Json)
    (signedAt : ℚ) (request : SealedGatewayRequest) : Prop where
  payload_eq : request.payload = payload
  targetId : request.targetId = runtime.model
  capability : request.capability = lit "non_vision"
  action : request.action = lit "passthrough"
  digest : sealedDigest P request.payload request.requestNonce = some request.outputDigest
  encodable : Receipts.Encodable request.binding
  receipt : Receipts.sign P runtime.signer signedAt request.binding 30 = some request.receipt

/-- Nothing of a text payload names an earlier turn. -/
theorem TextPayload.erase_eq {model : Str} (h : TextPayload payload model text) {key : Str}
    (hkey : key ∉ [lit "model", lit "input", lit "stream"]) :
    Entries.erase payload key = payload := by
  apply List.filter_eq_self.mpr
  intro e he
  apply decide_eq_true
  rintro rfl
  exact Entries.get?_eq_none_iff.mp (h.get?_eq_none hkey) (List.mem_map.mpr ⟨e, he, rfl⟩)

/-- A text payload is forwarded as it is. -/
theorem buildDownstreamPayload_text {model : Str} (h : TextPayload payload model text)
    (hn : NormalizedText model text n) {prepared : DownstreamPayload}
    (htarget : prepared.targetId = model) :
    GatewayTransaction.buildDownstreamPayload payload n prepared = some payload := by
  have hwhole : GatewayTransaction.passesWhole n = true := by
    rw [GatewayTransaction.passesWhole, hn.noMedia, hn.noState]
    rfl
  rw [GatewayTransaction.buildDownstreamPayload, if_pos hwhole, h.erase_eq (by decide),
    h.erase_eq (by decide), htarget]
  exact congrArg some (Entries.set_of_get? h.model_eq)

theorem exists_digest (P : Platform) {v : Json} (h : JsonText.Writable v) :
    ∃ digest, digestGatewayPayload P v = some digest ∧ digest.encodable = true := by
  obtain ⟨text, data, htext, hdata⟩ := h.exists_encoded P.float canonicalStyle
  have hdigest : digestGatewayPayload P v = some (P.sha256Hex data) := by
    rw [digestGatewayPayload, htext, Option.bind_eq_bind, Option.bind_some, hdata]
    rfl
  exact ⟨_, hdigest, GatewayTransaction.encodable_of_digest hdigest⟩

theorem encodable_requestNonce (entropy : { data : Bytes // data.length = 18 }) :
    (GatewayTransaction.requestNonce entropy).encodable = true :=
  Str.encodable_of_ascii (Base64.forall_mem_encodeUrl (by decide) entropy.val)

/-- What the gate hands on for a text is sealed. -/
theorem exists_sealed (h : TextPayload payload runtime.model text)
    (hn : NormalizedText runtime.model text n) (hmodel : runtime.model.encodable = true)
    (htext : text.encodable = true) (htimely : Timely setting) {prepared : DownstreamPayload}
    (hprepared : HandedOn (runtime.transaction H setting).gate setting.gateSignedAt n.request
      .nonVision .passthrough prepared) :
    ∃ request, (runtime.transaction H setting).sealRequest setting.verifiedAt setting.signedAt
      setting.entropy payload n prepared = .ok request ∧
      SealedText H.interpreter.platform runtime payload setting.signedAt request := by
  have hdepth : 1 ≤ H.interpreter.platform.jsonDepth := le_trans (by decide) H.depth
  have hwritable := h.writable hmodel htext
  have htarget : prepared.targetId = runtime.model := hprepared.targetId.trans hn.target
  have hverified : (runtime.transaction H setting).verifyPrepared setting.verifiedAt prepared =
      .ok () := by
    obtain ⟨verified, hverify⟩ : ∃ verified, Receipts.verify
        (runtime.transaction H setting).gate.platform (runtime.transaction H setting).signer
        setting.verifiedAt prepared.receipt prepared.binding = .ok verified :=
      Receipts.verify_sign hprepared.encodable hdepth hprepared.receipt htimely.gate_le
        htimely.gate_lifetime
    rw [GatewayTransaction.verifyPrepared, hverify]
  obtain ⟨inputDigest, hinput, hinputText⟩ := exists_digest H.interpreter.platform hwritable
  have hwrapped : JsonText.Writable (.obj [(lit "payload", .obj payload), (lit "request_nonce",
      .str (GatewayTransaction.requestNonce setting.entropy))]) := by
    apply JsonText.Writable.cons (by decide) hwritable
    exact .cons (by decide) (.str (encodable_requestNonce _)) .empty
  obtain ⟨outputDigest, houtput, houtputText⟩ := exists_digest H.interpreter.platform hwrapped
  have hbinding : Receipts.Encodable ⟨prepared.targetId, prepared.capability, inputDigest,
      outputDigest, prepared.action⟩ :=
    ⟨hprepared.encodable.targetId, hprepared.encodable.capability, hinputText, houtputText,
      hprepared.encodable.action⟩
  obtain ⟨receipt, hreceipt⟩ := PreRequestGate.exists_sign H.interpreter.platform runtime.signer
    hbinding htimely.sealClock
  refine ⟨_, bind_eq_ok_iff.mpr ⟨(), hverified, bind_eq_ok_iff.mpr ⟨payload, ?_,
    bind_eq_ok_iff.mpr ⟨inputDigest, ?_, bind_eq_ok_iff.mpr ⟨outputDigest, ?_,
      bind_eq_ok_iff.mpr ⟨receipt, ?_, rfl⟩⟩⟩⟩⟩, ?_⟩
  · exact GatewayTransaction.sealing_eq_ok.mpr (buildDownstreamPayload_text h hn htarget)
  · exact GatewayTransaction.sealing_eq_ok.mpr hinput
  · exact GatewayTransaction.sealing_eq_ok.mpr houtput
  · exact GatewayTransaction.sealing_eq_ok.mpr hreceipt
  · exact ⟨rfl, htarget, hprepared.capability, hprepared.action, houtput, hbinding, hreceipt⟩

end Sealing

section Guard

variable {U : UnicodeData} {payload : Entries Str Json} {model text : Str}

theorem anyValue_eq_false {n : Nat} {fields : List (Str × Json)}
    (h : ∀ e ∈ fields, containsMedia U n e.2 = .ok false) : anyValue U n fields = .ok false := by
  induction fields with
  | nil => rfl
  | cons e rest ih =>
      obtain ⟨he, hrest⟩ := List.forall_mem_cons.mp h
      rw [anyValue, he]
      exact ih hrest

/-- The runtime finds no media in a text payload. -/
theorem TextPayload.containsMedia_eq_false (h : TextPayload payload model text)
    (hmodel : MediaReference.startsAsData U model = false)
    (htext : MediaReference.startsAsData U text = false) {stack : Nat} (hstack : 2 ≤ stack) :
    containsMedia U stack (.obj payload) = .ok false := by
  obtain ⟨n, rfl⟩ : ∃ n, stack = n + 2 := ⟨stack - 2, by omega⟩
  have hvalues : anyValue U (n + 1) payload = .ok false := by
    apply anyValue_eq_false
    intro e he
    rcases h.entries e he with rfl | rfl | ⟨b, rfl⟩
    · exact congrArg Except.ok hmodel
    · exact congrArg Except.ok htext
    · rfl
  rw [containsMedia, h.field_eq_null (by decide)]
  exact hvalues

/-- The seal of a text is accepted. -/
theorem verifySeal_text {P : Platform} {runtime : PersonalRuntime}
    (h : TextPayload payload runtime.model text) (hmodel : ModelAccepted U runtime.model)
    (htext : PlainText U text) (hdownstream : runtime.downstream.model = runtime.model)
    (hdepth : 1 ≤ P.jsonDepth) {setting : RequestSetting} (htimely : Timely setting)
    {request : SealedGatewayRequest}
    (hsealed : SealedText P runtime payload setting.signedAt request) :
    runtime.downstream.verifySeal U P setting.stack runtime.signer setting.guardedAt request =
      .ok () := by
  obtain ⟨verified, hverify⟩ := Receipts.verify_sign hsealed.encodable hdepth hsealed.receipt
    htimely.seal_le htimely.seal_lifetime
  have hfield : (Json.field request.payload "model").str? = some request.targetId := by
    rw [hsealed.payload_eq, hsealed.targetId, Json.field, h.model_eq]
    rfl
  unfold SolarResponsesDownstream.verifySeal
  simp only [hsealed.digest, ne_eq, not_true_eq_false, if_false]
  refine bind_eq_ok_iff.mpr ⟨verified, mapError_eq_ok_iff.mpr hverify, ?_⟩
  rw [if_neg (not_not_intro ⟨hsealed.capability, .inl hsealed.action⟩),
    if_neg (not_not_intro ⟨hfield, hsealed.targetId.trans hdownstream.symm⟩)]
  refine bind_eq_ok_iff.mpr ⟨false, ?_, rfl⟩
  rw [hsealed.payload_eq]
  exact h.containsMedia_eq_false hmodel.clean htext.clean htimely.stack

/-- A text is one message of the user. -/
theorem chatMessages_text (h : TextPayload payload model text) (htext : text.strip ≠ []) :
    chatMessages payload = .ok [(lit "user", text.strip)] := by
  have hinput : Json.field payload "input" = .str text := by
    rw [Json.field, h.input_eq]
    rfl
  have hmessages : inputMessages (.str text) = .ok [(lit "user", text.strip)] := by
    rw [inputMessages, textContent, if_neg htext]
    rfl
  unfold chatMessages
  rw [instructionMessages, h.field_eq_null (by decide), hinput, hmessages]
  rfl

theorem chatTools_text (h : TextPayload payload model text) : chatTools payload = .ok none := by
  rw [chatTools, h.field_eq_null (by decide)]

end Guard

section Efforts

open LlmBackends

variable {casefold : Str → Str} {catalogId protocol modelId effort : Str}
  {capability : ReasoningCapability}

/-- A value of a parameter that takes little space. -/
def smallValue : WireValue → Bool
  | .text value => value.encodable && decide (value.length ≤ 16)
  | .number value => decide (value.natAbs < 10 ^ 6)

theorem mem_of_rowOf {α : Type} {table : List (String × α)} {model : Str} {a : α}
    (h : rowOf table model = some a) : ∃ row ∈ table, row.2 = a := by
  obtain ⟨row, hrow, rfl⟩ := Option.map_eq_some_iff.mp h
  exact ⟨row, List.mem_of_find?_eq_some hrow, rfl⟩

theorem small_of_named {table : List (String × List String)} {model : Str} {wire : String}
    (htable : ∀ row ∈ table, ∀ effort ∈ row.2, smallValue (.text (lit effort)) = true)
    (h : (rowOf table model).map (.named wire) = some capability) :
    ∀ e ∈ capability.wireValues, smallValue e.2 = true := by
  obtain ⟨efforts, hefforts, rfl⟩ := Option.map_eq_some_iff.mp h
  obtain ⟨row, hrow, rfl⟩ := mem_of_rowOf hefforts
  intro e he
  obtain ⟨effort, heffort, rfl⟩ := List.mem_map.mp he
  exact htable row hrow effort heffort

theorem small_of_budgets {table : List (String × List (String × Int))} {model : Str}
    (htable : ∀ row ∈ table, ∀ effort ∈ row.2, smallValue (.number effort.2) = true)
    {budgets : List (String × Int)} (h : rowOf table model = some budgets) :
    ∀ e ∈ (ReasoningCapability.budgets budgets).wireValues, smallValue e.2 = true := by
  obtain ⟨row, hrow, rfl⟩ := mem_of_rowOf h
  intro e he
  obtain ⟨effort, heffort, rfl⟩ := List.mem_map.mp he
  exact htable row hrow effort heffort

theorem smallValue_of_reasoningCapability
    (h : reasoningCapability casefold catalogId protocol modelId = some capability) :
    ∀ e ∈ capability.wireValues, smallValue e.2 = true := by
  unfold reasoningCapability at h
  split at h
  · cases h
  · simp only at h
    split at h
    · exact small_of_named (by decide) h
    split at h
    · exact small_of_named (by decide) h
    split at h
    · exact small_of_named (by decide) h
    split at h
    · split at h
      · next budgets hbudgets =>
          cases h
          exact small_of_budgets (by decide) hbudgets
      · exact small_of_named (by decide) h
    split at h
    · exact small_of_named (by decide) h
    · cases h

/-- A parameter of a request, if it has one. -/
inductive EffortFields : Entries Str Json → Prop
  | none : EffortFields []
  | text {value : Str} : smallValue (.text value) = true →
      EffortFields [(lit "reasoning_effort", .str value)]
  | number {value : Int} : smallValue (.number value) = true →
      EffortFields [(lit "reasoning_effort", .int value)]

/-- A supported effort is sent in at most one field. -/
theorem exists_reasoningPayloadFields {I : Interpreter}
    (h : effortSupported I protocol modelId effort = true) :
    ∃ fields, reasoningPayloadFields (reasoningCapability I.casefold (lit "upstage-solar") protocol
      modelId) effort = .ok fields ∧ EffortFields fields := by
  unfold effortSupported at h
  unfold reasoningPayloadFields
  cases hcapability : reasoningCapability I.casefold (lit "upstage-solar") protocol modelId with
  | none => exact ⟨_, rfl, .none⟩
  | some capability =>
      rw [hcapability, Option.any_some, Bool.or_eq_true, decide_eq_true_eq, decide_eq_true_eq] at h
      by_cases hdefault : effort = lit "provider_default"
      · exact ⟨_, if_pos hdefault, .none⟩
      · have hmem : effort ∈ Entries.keys capability.wireValues := h.resolve_left hdefault
        obtain ⟨value, hvalue⟩ := Option.isSome_iff_exists.mp (Entries.has_iff.mpr hmem)
        have hsmall := smallValue_of_reasoningCapability hcapability _ (Entries.mem_of_get? hvalue)
        simp only [hdefault, if_false, hvalue]
        cases value with
        | text value => exact ⟨_, rfl, .text hsmall⟩
        | number value => exact ⟨_, rfl, .number hsmall⟩

end Efforts

section Posting

variable {H : RuntimeHost} {downstream : SolarResponsesDownstream} {payload : Entries Str Json}
  {model text : Str}

/-- What is posted for a text. -/
structure PostedText (F : FloatText) (downstream : SolarResponsesDownstream) (message : Str)
    (built : Entries Str Json) : Prop where
  model : Json.field built "model" = .str downstream.model
  writable : JsonText.Writable (.obj built)
  weight_le : JsonText.weight F (.obj built) ≤
    6 * downstream.model.length + 6 * message.length + 600

/-- A parameter is small, and can be written. -/
theorem EffortFields.posted {fields : Entries Str Json} (h : EffortFields fields) (F : FloatText) :
    JsonText.Writable (.obj fields) ∧ JsonText.weightFields F fields ≤ 300 := by
  cases h with
  | none => exact ⟨.empty, Nat.zero_le _⟩
  | @text value hsmall =>
      obtain ⟨hgood, hlength⟩ := Bool.and_eq_true_iff.mp hsmall
      refine ⟨.cons (by decide) (.str hgood) .empty, ?_⟩
      have hle : value.length ≤ 16 := of_decide_eq_true hlength
      have hkey : (lit "reasoning_effort").length = 16 := by decide
      simp only [JsonText.weightFields, JsonText.weight, hkey]
      omega
  | @number value hsmall =>
      have hlt : value.natAbs < 10 ^ 6 := of_decide_eq_true hsmall
      have hshort : JsonText.tooLong value.natAbs = false :=
        JsonText.tooLong_eq_false (hlt.trans (Nat.pow_lt_pow_right (by decide) (by decide)))
      refine ⟨.cons (by decide) (.int hshort) .empty, ?_⟩
      have hle := JsonText.size_intText_le (by decide) hlt
      have hkey : (lit "reasoning_effort").length = 16 := by decide
      simp only [JsonText.weightFields, JsonText.weight, hkey]
      omega

/-- The payload of a text has the model of the settings. -/
theorem exists_solarPayload (h : TextPayload payload model text)
    (heffort : effortSupported H.interpreter downstream.protocol downstream.model
      downstream.effort = true) (hmodel : downstream.model.encodable = true) {message : Str}
    (hmessage : message.encodable = true) :
    ∃ built, solarPayload H downstream payload [(lit "user", message)] none = .ok built ∧
      PostedText H.interpreter.platform.float downstream message built := by
  unfold solarPayload
  have hnone (key : String) (hkey : lit key ∉ [lit "model", lit "input", lit "stream"]) :
      copiedEntry payload key = [] := by
    rw [copiedEntry, h.get?_eq_none hkey]
    rfl
  split
  · obtain ⟨fields, hfields, hkind⟩ := exists_reasoningPayloadFields heffort
    refine ⟨_, bind_eq_ok_iff.mpr ⟨fields, hfields, rfl⟩, ?_⟩
    rw [hnone "tool_choice" (by decide)]
    obtain ⟨hwritable, hweight⟩ := hkind.posted H.interpreter.platform.float
    simp only [Option.map_none, Option.toList_none, List.append_nil, List.cons_append,
      List.nil_append, List.map_cons, List.map_nil, chatMessage]
    refine ⟨Json.field_cons_self _ _ _, ?_, ?_⟩
    · apply JsonText.Writable.cons (by decide) (.str hmodel)
      apply JsonText.Writable.cons (by decide)
      · refine .arr (List.forall_mem_singleton.mpr ?_)
        apply JsonText.Writable.cons (by decide) (.str (by decide))
        exact .cons (by decide) (.str hmessage) .empty
      · exact .cons (by decide) (.bool false) hwritable
    · have hkeys : (lit "model").length + (lit "messages").length + (lit "role").length +
          (lit "user").length + (lit "content").length + (lit "stream").length = 34 := by decide
      simp only [JsonText.weightFields, JsonText.weightItems, JsonText.weight]
      omega
  · refine ⟨_, rfl, ?_⟩
    rw [hnone "tools" (by decide), hnone "tool_choice" (by decide)]
    simp only [List.append_nil, List.map_cons, List.map_nil, responsesMessage]
    refine ⟨Json.field_cons_self _ _ _, ?_, ?_⟩
    · apply JsonText.Writable.cons (by decide) (.str hmodel)
      apply JsonText.Writable.cons (by decide)
      · refine .arr (List.forall_mem_singleton.mpr ?_)
        apply JsonText.Writable.cons (by decide) (.str (by decide))
        apply JsonText.Writable.cons (by decide) (.str (by decide))
        refine .cons (by decide) (.arr (List.forall_mem_singleton.mpr ?_)) .empty
        apply JsonText.Writable.cons (by decide) (.str (by decide))
        exact .cons (by decide) (.str hmessage) .empty
      · exact .cons (by decide) (.bool false) .empty
    · have hkeys : (lit "model").length + (lit "input").length + 2 * (lit "type").length +
          (lit "message").length + (lit "role").length + (lit "user").length +
          (lit "content").length + (lit "input_text").length + (lit "text").length +
          (lit "stream").length = 60 := by decide
      simp only [JsonText.weightFields, JsonText.weightItems, JsonText.weight]
      omega

/-- Within the limits of a text and of a model, the body fits. -/
theorem PostedText.exists_encoded {message : Str} {built : Entries Str Json}
    (h : PostedText H.interpreter.platform.float downstream message built)
    (hmodel : downstream.model.length ≤ 128) (hmessage : message.length ≤ 200000) :
    ∃ content, encodedPayload H built = .ok content ∧ content.length ≤ maxRequestBytes := by
  obtain ⟨body, content, hbody, hcontent⟩ :=
    h.writable.exists_encoded H.interpreter.platform.float bodyStyle
  refine ⟨content, ?_, ?_⟩
  · rw [encodedPayload, hbody]
    simp only [hcontent]
  · have hweight := h.weight_le
    calc
      content.length = Utf8.size body := Utf8.size_of_encode hcontent
      _ ≤ JsonText.weight H.interpreter.platform.float (.obj built) :=
        JsonText.size_dumps_le rfl rfl _ body hbody
      _ ≤ 6 * 128 + 6 * 200000 + 600 := by omega
      _ ≤ maxRequestBytes := by decide

end Posting

section Requests

variable {H : RuntimeHost} {runtime : PersonalRuntime} {setting : RequestSetting}
  {credentials : PathContent} {fields payload : Entries Str Json} {text secret : Str}

/-- A text for an accepted model gets through the transaction. -/
theorem exists_sealedTurn (hpayload : TextPayload payload runtime.model text)
    (htext : PlainText H.interpreter.unicode text)
    (hmodel : ModelAccepted H.interpreter.unicode runtime.model)
    (hnow : setting.gateNow < modelExpiry) (htimely : Timely setting) :
    ∃ request, sealedTurn setting (runtime.transaction H setting) (.obj payload) = .ok request ∧
      SealedText H.interpreter.platform runtime payload setting.signedAt request := by
  obtain ⟨n, hnormalized, hn⟩ := hpayload.exists_normalized htext hmodel htimely.budget
  obtain ⟨outcome, prepared, houtcome, hprepared, hhanded⟩ :
      ∃ outcome prepared, (runtime.transaction H setting).gate.prepareForModel setting.gateNow
        setting.gateSignedAt personalSubject.tenantId n.request = .ok outcome ∧
          outcome.prepared = some prepared ∧
          HandedOn (runtime.transaction H setting).gate setting.gateSignedAt n.request .nonVision
            .passthrough prepared :=
    exists_prepared hn htext.length_le hnow htimely
  obtain ⟨request, hrequest, hsealed⟩ :=
    exists_sealed hpayload hn hmodel.valid.1 htext.encodable htimely hhanded
  have hbegin : ((runtime.transaction H setting).beginTurn setting.budget setting.store
      setting.storeNow setting.gateNow (.obj payload) personalSubject).2 = .ok ⟨n, none⟩ :=
    (beginTurn_text hpayload).mpr ⟨hnormalized, rfl⟩
  refine ⟨request, ?_, hsealed⟩
  unfold sealedTurn
  refine bind_eq_ok_iff.mpr ⟨_, mapError_eq_ok_iff.mpr hbegin, ?_⟩
  refine bind_eq_ok_iff.mpr ⟨_, mapError_eq_ok_iff.mpr houtcome, ?_⟩
  simp only [hprepared]
  exact mapError_eq_ok_iff.mpr hrequest

/-- A sealed text is posted to the endpoint of the settings. -/
theorem exists_posted (hpayload : TextPayload payload runtime.model text)
    (htext : PlainText H.interpreter.unicode text)
    (hmodel : ModelAccepted H.interpreter.unicode runtime.model)
    (hdownstream : runtime.downstream.model = runtime.model)
    (heffort : effortSupported H.interpreter runtime.downstream.protocol runtime.downstream.model
      runtime.downstream.effort = true) (htimely : Timely setting)
    (hsecret : resolveCredential H credentials runtime.downstream.credentialRef = .ok secret)
    {request : SealedGatewayRequest}
    (hsealed : SealedText H.interpreter.platform runtime payload setting.signedAt request) :
    ∃ posted, runtime.downstream.request H credentials runtime.signer setting.stack
      setting.guardedAt request = .ok posted ∧ posted.endpoint = runtime.downstream.endpoint ∧
      Json.field posted.payload "model" = .str runtime.downstream.model := by
  have hdepth : 1 ≤ H.interpreter.platform.jsonDepth := le_trans (by decide) H.depth
  have hvalid := hmodel.valid
  rw [← hdownstream] at hvalid
  have hstripped : text.strip.encodable = true :=
    Str.encodable_of_isInfix (Str.strip_isInfix _) htext.encodable
  obtain ⟨built, hbuilt, hposted⟩ := exists_solarPayload hpayload heffort hvalid.1 hstripped
  obtain ⟨content, hcontent, hlength⟩ := hposted.exists_encoded hvalid.2.1
    ((Str.strip_isInfix text).length_le.trans htext.length_le)
  have hloaded : loadSecret H runtime.downstream credentials = .ok secret := by
    rw [loadSecret, hsecret]
  refine ⟨⟨runtime.downstream.endpoint, secret, built, content⟩, ?_, rfl, hposted.model⟩
  unfold SolarResponsesDownstream.request
  refine bind_eq_ok_iff.mpr
    ⟨(), verifySeal_text hpayload hmodel htext hdownstream hdepth htimely hsealed, ?_⟩
  rw [hsealed.payload_eq]
  refine bind_eq_ok_iff.mpr ⟨_, chatMessages_text hpayload htext.filled, ?_⟩
  refine bind_eq_ok_iff.mpr ⟨none, chatTools_text hpayload, ?_⟩
  refine bind_eq_ok_iff.mpr ⟨built, hbuilt, bind_eq_ok_iff.mpr ⟨content, hcontent, ?_⟩⟩
  rw [if_neg (not_lt.mpr hlength)]
  exact bind_eq_ok_iff.mpr ⟨secret, hloaded, rfl⟩

/-- A request for `auto` is sent exactly with an accepted model that has not expired. -/
theorem request_auto_iff (hplain : PlainRequest H.interpreter.unicode fields text)
    (hdownstream : runtime.downstream.model = runtime.model)
    (heffort : effortSupported H.interpreter runtime.downstream.protocol runtime.downstream.model
      runtime.downstream.effort = true) (htimely : Timely setting)
    (hsecret : resolveCredential H credentials runtime.downstream.credentialRef = .ok secret) :
    (∃ request, runtime.request H setting credentials (.obj fields) = .ok request ∧
      request.endpoint = runtime.downstream.endpoint ∧
      Json.field request.payload "model" = .str runtime.downstream.model) ↔
      ModelAccepted H.interpreter.unicode runtime.model ∧ setting.gateNow < modelExpiry := by
  have hpayload : TextPayload (Entries.set fields (lit "model") (.str runtime.model))
      runtime.model text := hplain.payload.resolved hplain.nodup
  have hauto : runtime.resolveAuto setting.gateNow (.obj fields) =
      if setting.gateNow < modelExpiry then
        .ok (.obj (Entries.set fields (lit "model") (.str runtime.model)))
      else .error .modelUnavailable := resolveAuto_auto hplain.payload.model_eq
  constructor
  · rintro ⟨request, hrequest, -⟩
    obtain ⟨resolved, hresolved, hrequest⟩ := ok_of_bind hrequest
    rw [hauto] at hresolved
    split at hresolved
    · next hnow =>
        cases hresolved
        obtain ⟨sealed_, hsealed, -⟩ := ok_of_bind hrequest
        obtain ⟨admission, hadmission, -⟩ := ok_of_bind hsealed
        exact ⟨hpayload.modelAccepted_of_ok ((beginTurn_text hpayload).mp
          (mapError_eq_ok_iff.mp hadmission)).1, hnow⟩
    · cases hresolved
  · rintro ⟨hmodel, hnow⟩
    obtain ⟨sealed_, hsealing, hsealed⟩ :=
      exists_sealedTurn hpayload hplain.plain hmodel hnow htimely
    obtain ⟨posted, hposted, hfields⟩ :=
      exists_posted hpayload hplain.plain hmodel hdownstream heffort htimely hsecret hsealed
    refine ⟨posted, bind_eq_ok_iff.mpr ⟨_, ?_, bind_eq_ok_iff.mpr ⟨sealed_, hsealing, hposted⟩⟩,
      hfields⟩
    rw [hauto, if_pos hnow]

end Requests

end MediaBridge.Personal
