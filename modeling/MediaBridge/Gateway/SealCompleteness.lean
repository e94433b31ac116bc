import MediaBridge.Gateway.SealedTurn

/-!
# When the guard accepts a seal

The guard at the provider boundary looks for media in the whole payload of a
request that was prepared as `non_vision`, the user's own text included. These
results say which turns pass.

## Implementation notes

The search of the guard starts with `stack` nested calls left. A rebuilt payload
needs six of them.
-/

namespace MediaBridge.Gateway

open Foundation MediaBridge.Core

/-- The gate sends the request on as it is, to a target that takes media. -/
def TakenAsVision (gate : PreRequestGate) (now : Instant) (request : PrepareForModelRequest) :
    Prop :=
  ∃ capability, gate.registry.ResolvesToVision request.target.registryId.value now capability ∧
    ((detectMedia request.content).mediaCount = 0 ∨
      ((detectMedia request.content).modalities = {.pdf} ∧
        capability.pdfPassthroughVerified = true))

/-- The search of the guard finds nothing in what a turn forwards: the payload
without the references to earlier turns when it passes whole, and otherwise the
entries that are copied, the target, and the texts of the request. -/
def LooksClean (U : UnicodeData) (stack : Nat) (payload : Entries Str Json)
    (normalized : NormalizedResponsesRequest) : Prop :=
  if GatewayTransaction.passesWhole normalized then
    MediaReference.containsMediaReference U stack
      (.obj (GatewayTransaction.withoutServerState payload)) = .clean
  else
    MediaReference.containsMediaReference U stack
        (.obj (GatewayTransaction.copiedEntries payload)) = .clean ∧
      MediaReference.startsAsData U normalized.request.target.registryId.value = false ∧
      (normalized.inputHadMedia = false →
        ∀ text ∈ normalized.request.content.filterMap ContentPart.text?,
          MediaReference.startsAsData U text = false)

/-- Sealed evidence names one of the two capabilities, with the action that belongs
to it. -/
structure Bounded (level decision : Str) : Prop where
  capability : level = lit "non_vision" ∨ level = lit "vision"
  action : decision = lit "passthrough" ∨ decision = lit "converted"
  converted : decision = lit "converted" → level = lit "non_vision"

/-- For bounded evidence and a forwarded payload, only the search for media is left. -/
theorem verifyBoundary_eq {U : UnicodeData} {stack : Nat} {request : SealedGatewayRequest}
    (hbounded : Bounded request.capability request.action)
    (hforwarded : GatewayTransaction.Forwarded request.payload request.targetId) :
    verifyBoundary U stack request =
      if request.capability = lit "non_vision" then
        match MediaReference.containsMediaReference U stack (.obj request.payload) with
        | .clean => .ok ()
        | .found => .error (.rejected "non-vision downstream payload contains media")
        | .tooDeep => .error .recursionError
      else .ok () := by
  unfold verifyBoundary
  rewrite [if_neg (not_not.mpr hbounded.capability), if_neg (not_not.mpr hbounded.action), if_neg,
    if_neg, if_neg, if_neg]
  · rfl
  · simp [hforwarded.noConversation]
  · simp [hforwarded.noPrevious]
  · simp [hforwarded.model, Json.str?]
  · rintro ⟨haction, hno⟩
    exact hno (hbounded.converted haction)

/-- Only media can be in the way. -/
theorem verifyBoundary_eq_ok_iff {U : UnicodeData} {stack : Nat}
    {request : SealedGatewayRequest} (hbounded : Bounded request.capability request.action)
    (hforwarded : GatewayTransaction.Forwarded request.payload request.targetId) :
    verifyBoundary U stack request = .ok () ↔
      request.capability = lit "vision" ∨
        MediaReference.containsMediaReference U stack (.obj request.payload) = .clean := by
  rw [verifyBoundary_eq hbounded hforwarded]
  split
  · rename_i hnonVision
    have hne : request.capability ≠ lit "vision" := by
      rw [hnonVision]
      decide
    cases MediaReference.containsMediaReference U stack (.obj request.payload) <;>
      simp [hne]
  · rename_i hother
    simp [hbounded.capability.resolve_left hother]

namespace GatewayTransaction

variable {U : UnicodeData}

/-- A text, as the provider reads it. -/
def textItem (text : Str) : Json :=
  .obj [(lit "type", .str (lit "input_text")), (lit "text", .str text)]

/-- Content without media is rebuilt from its texts. -/
theorem mapM_rebuiltPart {content : List ContentPart} (h : mediaParts content = []) :
    content.mapM rebuiltPart = some ((content.filterMap ContentPart.text?).map textItem) := by
  induction content with
  | nil => rfl
  | cons part rest ih =>
      cases part with
      | text part =>
          rw [List.mapM_cons, ih h]
          rfl
      | media part => cases h

theorem startsAsData_lit : ∀ s ∈ ["input_text", "message", "user"],
    MediaReference.startsAsData U (lit s) = false := by
  intro s hs
  have hascii : ∀ s ∈ ["input_text", "message", "user"],
      ¬ lit "data:image/" <+: Str.asciiLower (lit s) ∧
        ¬ lit "data:application/pdf" <+: Str.asciiLower (lit s) := by
    decide
  exact MediaReference.startsAsData_eq_false (hascii s hs).1 (hascii s hs).2

theorem textItem_clean_iff {n : Nat} {text : Str} :
    MediaReference.containsMediaReference U (n + 2) (textItem text) = .clean ↔
      MediaReference.startsAsData U text = false := by
  have htype := startsAsData_lit (U := U) "input_text" (by simp)
  rw [textItem, MediaReference.containsMediaReference_obj_eq_clean_iff, List.forall_mem_cons,
    List.forall_mem_singleton, MediaReference.containsMediaReference_str_eq_clean_iff,
    MediaReference.containsMediaReference_str_eq_clean_iff]
  have hmarked : (MediaReference.markedByType [(lit "type", Json.str (lit "input_text")),
      (lit "text", .str text)] || MediaReference.namesLocator
        [(lit "type", Json.str (lit "input_text")), (lit "text", .str text)]) = false := by
    rfl
  simp [hmarked, htype]

/-- A user message with a list of items. -/
def userMessage (items : List Json) : Json :=
  .arr [.obj [(lit "type", .str (lit "message")), (lit "role", .str (lit "user")),
    (lit "content", .arr items)]]

/-- Of rebuilt text, the search sees the texts. -/
theorem userMessage_clean_iff {n : Nat} (hn : 5 ≤ n) {texts : List Str} :
    MediaReference.containsMediaReference U n (userMessage (texts.map textItem)) = .clean ↔
      ∀ text ∈ texts, MediaReference.startsAsData U text = false := by
  obtain ⟨n, rfl⟩ : ∃ m, n = m + 5 := ⟨n - 5, by omega⟩
  have htype := startsAsData_lit (U := U) "message" (by simp)
  have hrole := startsAsData_lit (U := U) "user" (by simp)
  have hmarked (content : Json) : (MediaReference.markedByType
      [(lit "type", Json.str (lit "message")), (lit "role", .str (lit "user")),
        (lit "content", content)] || MediaReference.namesLocator
        [(lit "type", Json.str (lit "message")), (lit "role", .str (lit "user")),
          (lit "content", content)]) = false := by
    rfl
  rw [userMessage, MediaReference.containsMediaReference_arr_eq_clean_iff,
    List.forall_mem_singleton, MediaReference.containsMediaReference_obj_eq_clean_iff,
    List.forall_mem_cons, List.forall_mem_cons, List.forall_mem_singleton,
    MediaReference.containsMediaReference_str_eq_clean_iff,
    MediaReference.containsMediaReference_str_eq_clean_iff,
    MediaReference.containsMediaReference_arr_eq_clean_iff, List.forall_mem_map]
  simp only [hmarked, htype, hrole, textItem_clean_iff, true_and]

/-- Content without media is rebuilt as one message with its texts. -/
theorem rebuiltInput_eq_some {content : List ContentPart} {input : Json}
    (hcontent : mediaParts content = []) (h : rebuiltInput content = some input) :
    input = userMessage ((content.filterMap ContentPart.text?).map textItem) := by
  rw [rebuiltInput, mapM_rebuiltPart hcontent] at h
  simp only [Option.bind_eq_bind, Option.bind_some] at h
  split at h
  · cases h
  · cases h
    rfl

/-- Of a rebuilt payload, the search sees the copied entries, the target and the
input. -/
theorem rebuilt_clean_iff {n : Nat} {payload : Entries Str Json} {targetId : Str}
    {input : Json} :
    MediaReference.containsMediaReference U (n + 2) (.obj (copiedEntries payload ++
        [(lit "model", .str targetId), (lit "input", input)])) = .clean ↔
      MediaReference.containsMediaReference U (n + 2) (.obj (copiedEntries payload)) = .clean ∧
        MediaReference.startsAsData U targetId = false ∧
        MediaReference.containsMediaReference U (n + 1) input = .clean := by
  have hmarked : (MediaReference.markedByType (copiedEntries payload ++
        [(lit "model", .str targetId), (lit "input", input)]) ||
      MediaReference.namesLocator (copiedEntries payload ++
        [(lit "model", .str targetId), (lit "input", input)])) =
      (MediaReference.markedByType (copiedEntries payload) ||
        MediaReference.namesLocator (copiedEntries payload)) := by
    refine MediaReference.marked_eq_of_get? fun key hkey => ?_
    have hkeys : ∀ key ∈ "type" :: MediaReference.locatorKeys,
        lit "model" ≠ lit key ∧ lit "input" ≠ lit key := by
      decide
    rw [Entries.get?_append, Entries.get?_cons, if_neg (hkeys key hkey).1, Entries.get?_cons,
      if_neg (hkeys key hkey).2, Entries.get?_nil, Option.or_none]
  rw [MediaReference.containsMediaReference_obj_eq_clean_iff,
    MediaReference.containsMediaReference_obj_eq_clean_iff, hmarked, List.forall_mem_append,
    List.forall_mem_cons, List.forall_mem_singleton,
    MediaReference.containsMediaReference_str_eq_clean_iff]
  tauto

end GatewayTransaction

namespace SealedTurn

variable {tx : GatewayTransaction} (t : SealedTurn tx)

/-- The capability that is sealed says whether the gate took the target for vision. -/
theorem capability_cases :
    (t.prepared.capability = lit "vision" ∧ TakenAsVision tx.gate t.now t.normalized.request) ∨
      (t.prepared.capability = lit "non_vision" ∧
        ¬ TakenAsVision tx.gate t.now t.normalized.request) := by
  obtain ⟨hprepared, hunknown, hstale⟩ :=
    PreRequestGate.prepared_of_prepareForModel t.outcome_eq t.prepared_eq
  cases hprepared with
  | pdfs htarget _ hpdf hverified _ hready =>
      exact .inl ⟨hready.capability, _, htarget, .inr ⟨hpdf, hverified⟩⟩
  | converted hmedia hother _ _ hready =>
      refine .inr ⟨hready.capability, ?_⟩
      rintro ⟨c, hc, hnone | hpdf⟩
      · exact hmedia hnone
      · exact hother c hc hpdf
  | @textOnly level hnone hlevel hready =>
      cases level with
      | vision =>
          refine .inl ⟨hready.capability, ?_⟩
          have hresolve : tx.gate.registry.resolve
              t.normalized.request.target.registryId.value t.now =
              ⟨.vision, (tx.gate.registry.resolve
                t.normalized.request.target.registryId.value t.now).capability⟩ := by
            rw [← hlevel]
          obtain ⟨c, -, hc⟩ := CapabilityRegistry.resolve_vision_iff.mp hresolve
          exact ⟨c, hc, .inl hnone⟩
      | nonVision =>
          refine .inr ⟨hready.capability, ?_⟩
          rintro ⟨c, hc, -⟩
          rw [CapabilityRegistry.resolve_vision_iff.mpr ⟨c, rfl, hc⟩] at hlevel
          cases hlevel
      | unknown => exact absurd hlevel hunknown
      | stale => exact absurd hlevel hstale

theorem bounded : Bounded t.prepared.capability t.prepared.action := by
  refine ⟨?_, ?_, ?_⟩
  · rcases t.capability_cases with ⟨h, -⟩ | ⟨h, -⟩
    · exact .inr h
    · exact .inl h
  · cases t.preparedBy with
    | pdfs _ _ _ _ _ hready => exact .inl hready.action
    | converted _ _ _ _ hready => exact .inr hready.action
    | textOnly _ _ hready => exact .inl hready.action
  · intro haction
    cases t.preparedBy with
    | pdfs _ _ _ _ _ hready =>
        rw [hready.action] at haction
        exact absurd haction (by decide)
    | converted _ _ _ _ hready => exact hready.capability
    | textOnly _ _ hready =>
        rw [hready.action] at haction
        exact absurd haction (by decide)

theorem encodable_binding : Receipts.Encodable t.sealedRequest.binding := by
  have hsealed := t.sealedFrom
  have hliteral : ∀ s ∈ ["vision", "non_vision", "passthrough", "converted"],
      Str.encodable (lit s) = true := by
    decide
  obtain ⟨value, hinput⟩ := hsealed.inputDigest
  refine ⟨?_, ?_, GatewayTransaction.encodable_of_digest hinput,
    GatewayTransaction.encodable_of_digest hsealed.outputDigest, ?_⟩
  · change Str.encodable t.sealedRequest.targetId = true
    rw [hsealed.targetId, t.targetId_eq]
    exact t.normalized.request.target.registryId.encodable
  · change Str.encodable t.sealedRequest.capability = true
    rw [hsealed.capability]
    rcases t.bounded.capability with h | h <;> rw [h] <;> exact hliteral _ (by simp)
  · change Str.encodable t.sealedRequest.action = true
    rw [hsealed.action]
    rcases t.bounded.action with h | h <;> rw [h] <;> exact hliteral _ (by simp)

/-- The evidence of a seal is bounded, and its payload is a forwarded one. -/
theorem bounded_sealedRequest : Bounded t.sealedRequest.capability t.sealedRequest.action := by
  rw [t.sealedFrom.capability, t.sealedFrom.action]
  exact t.bounded

theorem forwarded_sealedRequest :
    GatewayTransaction.Forwarded t.sealedRequest.payload t.sealedRequest.targetId := by
  rw [t.sealedFrom.targetId]
  exact GatewayTransaction.forwarded_of_build t.model_eq t.sealedFrom.payload

/-- The seal itself is in order: its receipt and the search for media are left. -/
theorem verifySeal_eq (stack : Nat) (signer : GateReceiptSigner) (guardAt : ℚ) :
    verifySeal tx.gate.unicode tx.gate.platform stack signer guardAt t.sealedRequest =
      match Receipts.verify tx.gate.platform signer guardAt t.sealedRequest.receipt
          t.sealedRequest.binding with
      | .error e => .error (.ofVerify e)
      | .ok _ => verifyBoundary tx.gate.unicode stack t.sealedRequest := by
  have hnonce : noncePattern t.sealedRequest.requestNonce = true := by
    rw [t.sealedFrom.nonce]
    exact GatewayTransaction.noncePattern_requestNonce t.entropy
  unfold verifySeal
  rewrite [if_neg (by rw [hnonce]; decide), t.sealedFrom.outputDigest]
  exact if_neg (not_not_intro rfl)

/-- Within the lifetime of its receipt, only the search for media can fail. -/
theorem verifySeal_iff {stack : Nat} {guardAt : ℚ} (hdepth : 1 ≤ tx.gate.platform.jsonDepth)
    (hlow : truncate t.signedAt ≤ truncate guardAt)
    (hhigh : truncate guardAt ≤ truncate t.signedAt + 30) :
    verifySeal tx.gate.unicode tx.gate.platform stack tx.signer guardAt t.sealedRequest =
        .ok () ↔
      TakenAsVision tx.gate t.now t.normalized.request ∨
        MediaReference.containsMediaReference tx.gate.unicode stack
          (.obj t.sealedRequest.payload) = .clean := by
  obtain ⟨verified, hverified⟩ :=
    Receipts.verify_sign t.encodable_binding hdepth t.sealedFrom.receipt hlow hhigh
  rw [t.verifySeal_eq, hverified]
  simp only
  rw [verifyBoundary_eq_ok_iff t.bounded_sealedRequest t.forwarded_sealedRequest,
    t.sealedFrom.capability]
  rcases t.capability_cases with ⟨hvision, htaken⟩ | ⟨hnonVision, hnot⟩
  · simp [hvision, htaken]
  · have hne : t.prepared.capability ≠ lit "vision" := by
      rw [hnonVision]
      decide
    simp [hne, hnot]

/-- Unless the gate took the target for vision, what is rebuilt are texts: one safe
text where the input had media, and the texts of the request otherwise. -/
theorem rebuilt_texts {input : Json}
    (hnot : ¬ TakenAsVision tx.gate t.now t.normalized.request)
    (hinput : GatewayTransaction.rebuiltInput t.prepared.content = some input) :
    ∃ texts : List Str, input = GatewayTransaction.userMessage
        (texts.map GatewayTransaction.textItem) ∧
      ((∀ text ∈ texts, MediaReference.startsAsData tx.gate.unicode text = false) ↔
        (t.normalized.inputHadMedia = false →
          ∀ text ∈ t.normalized.request.content.filterMap ContentPart.text?,
            MediaReference.startsAsData tx.gate.unicode text = false)) := by
  obtain ⟨inputValue, current, parts, hfrom⟩ := t.normalizedFrom
  have hmedia := hfrom.mediaCount_eq_zero_iff
  cases t.preparedBy with
  | pdfs htarget _ hpdf hverified _ _ =>
      exact absurd ⟨_, htarget, .inr ⟨hpdf, hverified⟩⟩ hnot
  | converted hcount _ hcontext htext hready =>
      obtain ⟨part, hpart, rfl⟩ := textPart_eq_some_iff.mp htext
      obtain ⟨locators, hsafe, -⟩ := PreRequestGate.safe_of_extractContext hcontext
      rw [hready.content] at hinput
      refine ⟨_, GatewayTransaction.rebuiltInput_eq_some rfl hinput, ?_⟩
      have hclean : MediaReference.startsAsData tx.gate.unicode part.value = false := by
        rw [MediaReference.startsAsData_eq_false_iff, hpart]
        exact hsafe.not_startsWith_data
      have hhad : t.normalized.inputHadMedia ≠ false := fun h => hcount (hmedia.mpr h)
      simp [ContentPart.text?, hclean, hhad]
  | textOnly hcount _ hready =>
      rw [hready.content] at hinput
      have hnone : mediaParts t.normalized.request.content = [] :=
        List.length_eq_zero_iff.mp hcount
      refine ⟨_, GatewayTransaction.rebuiltInput_eq_some hnone hinput, ?_⟩
      simp [hmedia.mp hcount]

/-- For a target that was not taken for vision, the search of the guard over the sealed
payload finds nothing exactly when what the turn forwards looks clean. -/
theorem payload_clean_iff {stack : Nat} (hstack : 6 ≤ stack)
    (hnot : ¬ TakenAsVision tx.gate t.now t.normalized.request) :
    MediaReference.containsMediaReference tx.gate.unicode stack
        (.obj t.sealedRequest.payload) = .clean ↔
      LooksClean tx.gate.unicode stack t.payload t.normalized := by
  obtain ⟨n, rfl⟩ : ∃ m, stack = m + 2 := ⟨stack - 2, by omega⟩
  rcases GatewayTransaction.buildDownstreamPayload_eq_some t.model_eq t.sealedFrom.payload with
    ⟨hwhole, hbuilt⟩ | ⟨hrebuilt, input, hinput, hbuilt⟩
  · rw [hbuilt, LooksClean, if_pos hwhole]
  · obtain ⟨texts, rfl, htexts⟩ := t.rebuilt_texts hnot hinput
    rw [hbuilt, LooksClean, if_neg (by simp [hrebuilt]), GatewayTransaction.rebuilt_clean_iff,
      GatewayTransaction.userMessage_clean_iff (by omega), htexts, t.targetId_eq]

/-- Within the lifetime of its receipt, the guard accepts a seal exactly when the
request was taken for vision or what it forwards looks clean. -/
theorem verifySeal_eq_ok_iff {stack : Nat} {guardAt : ℚ}
    (hdepth : 1 ≤ tx.gate.platform.jsonDepth) (hstack : 6 ≤ stack)
    (hlow : truncate t.signedAt ≤ truncate guardAt)
    (hhigh : truncate guardAt ≤ truncate t.signedAt + 30) :
    verifySeal tx.gate.unicode tx.gate.platform stack tx.signer guardAt t.sealedRequest =
        .ok () ↔
      TakenAsVision tx.gate t.now t.normalized.request ∨
        LooksClean tx.gate.unicode stack t.payload t.normalized := by
  rw [t.verifySeal_iff hdepth hlow hhigh]
  by_cases htaken : TakenAsVision tx.gate t.now t.normalized.request
  · simp [htaken]
  · simp [htaken, t.payload_clean_iff hstack htaken]

section Sample

/-- A turn with a text as its whole input, sent to a text model. -/
def textTurn (text : String) : Option (SealedTurn sampleTransaction) :=
  SealedTurn.run sampleTransaction 900
    [(lit "model", .str (lit "text-model")), (lit "input", .str (lit text))] none
    (lit "tenant") sampleEntropy

/-- What the guard says to a turn. -/
def guardAccepts (turn : SealedTurn sampleTransaction) : Bool :=
  match verifySeal sampleTransaction.gate.unicode sampleTransaction.gate.platform 900
      sampleTransaction.signer 0 turn.sealedRequest with
  | .ok _ => true
  | .error _ => false

/-- The guard accepts a greeting, which looks clean. -/
theorem verifySeal_eq_ok_iff_hello :
    ∃ t : SealedTurn sampleTransaction, guardAccepts t = true ∧
      (verifySeal sampleTransaction.gate.unicode sampleTransaction.gate.platform 900
          sampleTransaction.signer 0 t.sealedRequest = .ok () ↔
        TakenAsVision sampleTransaction.gate t.now t.normalized.request ∨
          LooksClean sampleTransaction.gate.unicode 900 t.payload t.normalized) := by
  have haccepted : (textTurn "hello").any (fun t => guardAccepts t &&
      decide (t.signedAt = 0)) = true := by
    decide +kernel
  obtain ⟨t, -, ht⟩ := (Option.any_eq_true _ _).mp haccepted
  obtain ⟨haccepts, htime⟩ := Bool.and_eq_true_iff.mp ht
  have hzero : t.signedAt = 0 := by simpa using htime
  refine ⟨t, haccepts, t.verifySeal_eq_ok_iff (by decide) (by decide) ?_ ?_⟩
  · rw [hzero]
  · rw [hzero]
    omega

/-- A text that explains how a data URL starts is sealed, and the guard rejects it. -/
theorem guard_rejects_user_text :
    ¬ ∀ (tx : GatewayTransaction) (t : SealedTurn tx) (stack : Nat) (guardAt : ℚ),
      1 ≤ tx.gate.platform.jsonDepth → 6 ≤ stack → truncate t.signedAt ≤ truncate guardAt →
      truncate guardAt ≤ truncate t.signedAt + 30 →
      verifySeal tx.gate.unicode tx.gate.platform stack tx.signer guardAt t.sealedRequest =
        .ok () := by
  intro h
  have hrejected : (textTurn "data:image/png;base64 is how a data URL starts").any
      (fun t => !guardAccepts t && decide (t.signedAt = 0)) = true := by
    decide +kernel
  obtain ⟨t, -, ht⟩ := (Option.any_eq_true _ _).mp hrejected
  obtain ⟨hrejects, htime⟩ := Bool.and_eq_true_iff.mp ht
  have hzero : t.signedAt = 0 := by simpa using htime
  have hok := h sampleTransaction t 900 0 (by decide) (by decide) (by rw [hzero])
    (by rw [hzero]; omega)
  simp [guardAccepts, hok] at hrejects

end Sample

end SealedTurn

end MediaBridge.Gateway
