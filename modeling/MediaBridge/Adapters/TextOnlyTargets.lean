import MediaBridge.Adapters.PreUpstream
import MediaBridge.Foundation.Raise

/-!
# Bodies for text-only targets

What `PreUpstreamService.prepare` forwards to a target without vision: by either scan no media
reference, and the fields of the original body but for the current message.

## Implementation notes

The rewritten body of a conversion is not scanned again. What the scan would find is in the
prepared text, in the name of the target or in the marks of the body itself.
-/

namespace MediaBridge.Adapters

open Foundation MediaBridge.Core Gateway

section Bodies

variable {U J : UnicodeData} {request : PreUpstreamRequest} {text : Str}

/-- The keys that a decision takes out or replaces. -/
def serverKeys : List Str := [lit "model", lit "previous_response_id", lit "conversation"]

theorem get?_retargeted {key : Str} (h : key ∉ serverKeys) :
    Entries.get? (retargeted request) key = Entries.get? request.body key := by
  simp only [serverKeys, List.mem_cons, List.not_mem_nil, or_false, not_or] at h
  unfold retargeted
  rw [Entries.get?_set_of_ne _ _ h.1, Entries.get?_erase_of_ne _ h.2.2,
    Entries.get?_erase_of_ne _ h.2.1]

theorem nodup_retargeted (request : PreUpstreamRequest) :
    (Entries.keys (retargeted request)).Nodup :=
  Entries.nodup_set (Entries.nodup_erase (Entries.nodup_erase request.wellFormed.1 _) _) _ _

theorem get?_retargeted_model (request : PreUpstreamRequest) :
    Entries.get? (retargeted request) (lit "model") = some (.str request.targetModel.value) :=
  Entries.get?_set_self _ _ _

/-- The keys that the scans look at. -/
theorem marks_congr {fields fields' : Entries Str Json}
    (h : ∀ key ∈ "type" :: locatorKeys, Json.field fields key = Json.field fields' key) :
    MediaReference.markedByType fields = MediaReference.markedByType fields' ∧
      namesAny locatorKeys fields = namesAny locatorKeys fields' := by
  constructor
  · unfold MediaReference.markedByType
    rw [h "type" List.mem_cons_self]
  · unfold namesAny
    rw [Bool.eq_iff_iff, List.any_eq_true, List.any_eq_true]
    apply exists_congr
    intro key
    apply and_congr_right
    intro hkey
    rw [h key (List.mem_cons_of_mem _ hkey)]

/-- What the scan of a request body has found clean. -/
theorem hasMedia_of_checked (h : anyValue U (request.body.filter fun e => e.1 ≠ lit "input") =
    .ok false) {key : Str} (hkey : key ≠ lit "input") {v : Json}
    (hv : Entries.get? request.body key = some v) : hasMedia J v = false := by
  have hclean := anyValue_ok (J := J) h fun e _ b => hasMedia_of_mediaReference
  rw [List.any_eq_false] at hclean
  have hmem : (key, v) ∈ request.body.filter fun e => e.1 ≠ lit "input" :=
    List.mem_filter.mpr ⟨Entries.mem_of_get? hv, decide_eq_true hkey⟩
  exact Bool.eq_false_iff.mpr (hclean _ hmem)

/-- The message with a prepared text refers to media exactly if the text does. -/
theorem hasMedia_userMessage (J : UnicodeData) (text : Str) :
    hasMedia J (userMessage text) = MediaReference.startsAsData J text := by
  have hconstant : MediaReference.startsAsData J (lit "message") = false ∧
      MediaReference.startsAsData J (lit "user") = false ∧
        MediaReference.startsAsData J (lit "input_text") = false := by
    refine ⟨?_, ?_, ?_⟩
    all_goals exact MediaReference.startsAsData_eq_false (by decide) (by decide)
  have hpart : MediaReference.markedByType [(lit "type", .str (lit "input_text")),
        (lit "text", .str text)] = false ∧
      namesAny mediaKeys [(lit "type", .str (lit "input_text")), (lit "text", .str text)] =
        false := ⟨rfl, rfl⟩
  have hwhole : ∀ content, MediaReference.markedByType [(lit "type", .str (lit "message")),
        (lit "role", .str (lit "user")), (lit "content", content)] = false ∧
      namesAny mediaKeys [(lit "type", .str (lit "message")), (lit "role", .str (lit "user")),
        (lit "content", content)] = false := fun _ => ⟨rfl, rfl⟩
  unfold userMessage
  simp only [hasMedia, someItem, someValue, hconstant, hpart, hwhole, Bool.false_or,
    Bool.or_false]

end Bodies

section Current

variable {U J : UnicodeData} {request : PreUpstreamRequest} {text : Str}

/-- The last message of the user. -/
structure IsCurrent (items : List Json) (index : Nat) : Prop where
  user : items[index]?.any isUser = true
  last : ∀ later, index < later → items[later]?.any isUser = false

/-- The last number below a bound that has a property. -/
theorem last_of_find? {p : Nat → Bool} {n i : Nat}
    (h : (List.range n).reverse.find? p = some i) :
    p i = true ∧ ∀ j, i < j → j < n → p j = false := by
  induction n with
  | zero => cases h
  | succ n ih =>
      rw [List.range_succ, List.reverse_append, List.reverse_singleton, List.singleton_append,
        List.find?_cons] at h
      cases hn : p n with
      | true =>
          rw [hn] at h
          cases h
          exact ⟨hn, fun j hlt hle => absurd hlt (Nat.not_lt.mpr (Nat.le_of_lt_succ hle))⟩
      | false =>
          rw [hn] at h
          obtain ⟨hi, hlast⟩ := ih h
          refine ⟨hi, ?_⟩
          intro j hlt hle
          rcases Nat.lt_succ_iff_lt_or_eq.mp hle with hbelow | rfl
          · exact hlast j hlt hbelow
          · exact hn

theorem isCurrent_of_currentIndex {items : List Json} {index : Nat}
    (h : currentIndex items = some index) : IsCurrent items index := by
  obtain ⟨huser, hlast⟩ := last_of_find? h
  refine ⟨huser, ?_⟩
  intro later hlater
  by_cases hlength : later < items.length
  · exact hlast later hlater hlength
  · rw [List.getElem?_eq_none (Nat.not_lt.mp hlength)]
    rfl

/-- The current message of a body is replaced by a prepared text. -/
inductive CurrentReplaced (body : Entries Str Json) (text : Str) : Json → Prop
  | text {s : Str} : Json.field body "input" = .str s → CurrentReplaced body text (.str text)
  | message {items : List Json} {index : Nat} : Json.field body "input" = .arr items →
      IsCurrent items index →
      CurrentReplaced body text (.arr (items.set index (userMessage text)))

/-- The items of a list with one replaced are that one and the others. -/
theorem mem_set_iff {items : List Json} {index : Nat} {new v : Json} (h : index < items.length) :
    v ∈ items.set index new ↔ v = new ∨ v ∈ items.eraseIdx index := by
  induction items generalizing index with
  | nil => cases h
  | cons w rest ih =>
      cases index with
      | zero => exact List.mem_cons
      | succ index =>
          rw [List.set_cons_succ, List.eraseIdx_cons_succ, List.mem_cons, List.mem_cons,
            ih (Nat.lt_of_succ_lt_succ h)]
          exact or_left_comm

/-- Beside items without media, the message decides. -/
theorem any_set_userMessage {items : List Json} {index : Nat} (h : index < items.length)
    (hothers : (items.eraseIdx index).any (hasMedia J) = false) :
    (items.set index (userMessage text)).any (hasMedia J) =
      MediaReference.startsAsData J text := by
  rw [List.any_eq_false] at hothers
  rw [← hasMedia_userMessage J text, Bool.eq_iff_iff, List.any_eq_true]
  constructor
  · rintro ⟨v, hv, hmedia⟩
    rcases (mem_set_iff h).mp hv with rfl | hother
    · exact hmedia
    · exact absurd hmedia (hothers v hother)
  · exact fun hmedia => ⟨_, (mem_set_iff h).mpr (.inl rfl), hmedia⟩

/-- A normalized request has its other fields clean, and a current message to replace. -/
theorem rewritten_of_prepared {payload : PreparePayload} {index : Option Nat}
    (h : preparePayload U request = .ok (payload, index)) (text : Str) :
    anyValue U (request.body.filter fun e => e.1 ≠ lit "input") = .ok false ∧
      ∃ input, rewrittenBody request text index =
          .ok (Entries.set (retargeted request) (lit "input") input) ∧
        CurrentReplaced request.body text input ∧
          ∀ J, hasMedia J input = MediaReference.startsAsData J text := by
  unfold preparePayload at h
  split at h
  · cases h
  · cases h
  · next hrest =>
      refine ⟨hrest, ?_⟩
      have hsame : Json.field (retargeted request) "input" = Json.field request.body "input" := by
        unfold Json.field
        rw [get?_retargeted (by decide)]
      cases hcurrent : currentMessage U request.body with
      | error e =>
          rw [hcurrent] at h
          cases h
      | ok found =>
          obtain ⟨parts, found⟩ := found
          rw [hcurrent] at h
          cases h
          unfold currentMessage at hcurrent
          split at hcurrent
          · next s hinput =>
              split at hcurrent
              · cases hcurrent
              · cases hcurrent
                exact ⟨.str text, rfl, .text hinput, fun _ => rfl⟩
          · next items hinput =>
              split at hcurrent
              · cases hcurrent
              · next current hindex =>
                  split at hcurrent
                  · cases hcurrent
                  · cases hcurrent
                  · next hothers =>
                      split at hcurrent
                      · next message hmessage =>
                          split at hcurrent
                          · next raws _ =>
                              obtain rfl : index = some current := by
                                cases hparts : raws.mapM (contentPart U) with
                                | error e =>
                                    rw [hparts] at hcurrent
                                    cases hcurrent
                                | ok parts =>
                                    rw [hparts] at hcurrent
                                    cases hcurrent
                                    rfl
                              have hlength : current < items.length :=
                                (List.getElem?_eq_some_iff.mp hmessage).1
                              refine ⟨.arr (items.set current (userMessage text)), ?_,
                                .message hinput (isCurrent_of_currentIndex hindex), ?_⟩
                              · simp only [rewrittenBody, hsame, hinput, hmessage]
                              · intro J
                                rw [hasMedia, someItem_eq]
                                exact any_set_userMessage hlength
                                  (anyItem_ok hothers fun v _ b => hasMedia_of_mediaReference)
                          · cases hcurrent
                      · cases hcurrent
          · cases hcurrent

end Current

section Rewritten

variable {U J : UnicodeData} {request : PreUpstreamRequest} {text : Str} {input : Json}

/-- The body with a new input. -/
abbrev withInput (request : PreUpstreamRequest) (input : Json) : Entries Str Json :=
  Entries.set (retargeted request) (lit "input") input

/-- A media reference that a conversion leaves in the body or brings into it. -/
def carriesMedia (U : UnicodeData) (request : PreUpstreamRequest) (text : Str) : Bool :=
  MediaReference.markedByType request.body || namesAny locatorKeys request.body ||
    (MediaReference.startsAsData U request.targetModel.value ||
      MediaReference.startsAsData U text)

theorem get?_withInput {key : Str} (hkey : key ∉ serverKeys) (hinput : key ≠ lit "input") :
    Entries.get? (withInput request input) key = Entries.get? request.body key := by
  rw [withInput, Entries.get?_set_of_ne _ _ hinput, get?_retargeted hkey]

theorem get?_withInput_model (request : PreUpstreamRequest) (input : Json) :
    Entries.get? (withInput request input) (lit "model") =
      some (.str request.targetModel.value) := by
  rw [withInput, Entries.get?_set_of_ne _ _ (by decide), get?_retargeted_model]

/-- What the scans find in a rewritten body. -/
theorem hasMedia_withInput
    (hrest : anyValue U (request.body.filter fun e => e.1 ≠ lit "input") = .ok false)
    (hinput : hasMedia J input = MediaReference.startsAsData J text) :
    hasMedia J (.obj (withInput request input)) = carriesMedia J request text := by
  have hmarks := @marks_congr (withInput request input) request.body (by
    intro key hkey
    have hout : ∀ key ∈ "type" :: locatorKeys, lit key ∉ serverKeys ∧ lit key ≠ lit "input" := by
      decide
    unfold Json.field
    rw [get?_withInput (hout key hkey).1 (hout key hkey).2])
  have hnodup : (Entries.keys (withInput request input)).Nodup :=
    Entries.nodup_set (nodup_retargeted request) _ _
  have hmodel : hasMedia J (.str request.targetModel.value) =
      MediaReference.startsAsData J request.targetModel.value := rfl
  have hvalues : someValue J (withInput request input) =
      (MediaReference.startsAsData J request.targetModel.value ||
        MediaReference.startsAsData J text) := by
    rw [someValue_eq, Bool.eq_iff_iff, Entries.any_iff hnodup, Bool.or_eq_true, ← hmodel, ← hinput]
    constructor
    · rintro ⟨key, v, hget, hmedia⟩
      by_cases hkey : key = lit "input"
      · rw [hkey, withInput, Entries.get?_set_self] at hget
        cases hget
        exact .inr hmedia
      · by_cases hserver : key ∈ serverKeys
        · rw [withInput, Entries.get?_set_of_ne _ _ hkey] at hget
          simp only [serverKeys, List.mem_cons, List.not_mem_nil, or_false] at hserver
          rcases hserver with rfl | rfl | rfl
          · rw [get?_retargeted_model] at hget
            cases hget
            exact .inl hmedia
          · rw [retargeted, Entries.get?_set_of_ne _ _ (by decide),
              Entries.get?_erase_of_ne _ (by decide), Entries.get?_erase_self] at hget
            cases hget
          · rw [retargeted, Entries.get?_set_of_ne _ _ (by decide),
              Entries.get?_erase_self] at hget
            cases hget
        · rw [get?_withInput hserver hkey] at hget
          rw [hasMedia_of_checked hrest hkey hget] at hmedia
          cases hmedia
    · rintro (hmedia | hmedia)
      · exact ⟨_, _, get?_withInput_model request input, hmedia⟩
      · exact ⟨_, _, Entries.get?_set_self _ _ _, hmedia⟩
  rw [hasMedia, namesAny_mediaKeys, hmarks.1, hmarks.2, hvalues]
  rfl

theorem carriesMedia_congr (U J : UnicodeData) (request : PreUpstreamRequest) (text : Str) :
    carriesMedia U request text = carriesMedia J request text := by
  unfold carriesMedia
  rw [startsAsData_congr U J, startsAsData_congr U J]

end Rewritten

section Encodings

variable {F : FloatText} {request : PreUpstreamRequest} {text : Str} {input : Json}

theorem encoded_userMessage :
    JsonText.Encoded F digestStyle (userMessage text) ↔ text.encodable = true := by
  have hconstant : (lit "type").encodable = true ∧ (lit "message").encodable = true ∧
      (lit "role").encodable = true ∧ (lit "user").encodable = true ∧
      (lit "content").encodable = true ∧ (lit "input_text").encodable = true ∧
      (lit "text").encodable = true := by
    decide
  unfold userMessage
  simp [@JsonText.encoded_obj_iff F digestStyle rfl, JsonText.encoded_arr_iff,
    @JsonText.encoded_str_iff F digestStyle rfl, hconstant]

/-- A new input can be encoded exactly if its text can, beside an input that can. -/
theorem encoded_replaced (hbody : JsonText.Encoded F digestStyle (.obj request.body))
    (h : CurrentReplaced request.body text input) :
    JsonText.Encoded F digestStyle input ↔ text.encodable = true := by
  cases h with
  | text _ => exact JsonText.encoded_str_iff rfl
  | @message items index hinput hcurrent =>
      have hlength : index < items.length := by
        by_contra hnot
        have huser := hcurrent.user
        rw [List.getElem?_eq_none (Nat.not_lt.mp hnot)] at huser
        cases huser
      have hitems : JsonText.Encoded F digestStyle (.arr items) :=
        ((JsonText.encoded_obj_iff rfl).mp hbody _
          (Entries.mem_of_get? (Json.get?_of_field hinput (by simp)))).2
      rw [JsonText.encoded_arr_iff] at hitems ⊢
      rw [← encoded_userMessage (F := F)]
      constructor
      · exact fun h => h _ ((mem_set_iff hlength).mpr (.inl rfl))
      · intro h v hv
        rcases (mem_set_iff hlength).mp hv with rfl | hother
        · exact h
        · exact hitems v (List.mem_of_mem_eraseIdx hother)

/-- A rewritten body can be encoded exactly if its text can. -/
theorem encoded_withInput (hbody : JsonText.Encoded F digestStyle (.obj request.body))
    (h : CurrentReplaced request.body text input) :
    JsonText.Encoded F digestStyle (.obj (withInput request input)) ↔ text.encodable = true := by
  rw [← encoded_replaced hbody h]
  rw [JsonText.encoded_obj_iff rfl] at hbody ⊢
  constructor
  · exact fun h => (h _ (Entries.mem_of_get? (Entries.get?_set_self _ _ _))).2
  · intro hinput e he
    have hkeys : (lit "input").encodable = true ∧ (lit "model").encodable = true := by decide
    rcases Entries.mem_set he with rfl | he
    · exact ⟨hkeys.1, hinput⟩
    · rcases Entries.mem_set he with rfl | he
      · exact ⟨hkeys.2, (JsonText.encoded_str_iff rfl).mpr request.targetModel.encodable⟩
      · exact hbody e (Entries.mem_erase.mp (Entries.mem_erase.mp he).1).1

end Encodings

section Decisions

variable {S : PreUpstreamService} {request : PreUpstreamRequest} {draft : Draft}
  {gateway : PreparePayload → Except GatewayFailure GatewayPrepareResponse}
  {result : PreUpstreamResult}

namespace PreUpstreamService

theorem digest_ok_iff {v : Json} : (∃ text, S.digest v = .ok text) ↔
    JsonText.Encoded S.platform.float digestStyle v := by
  unfold digest JsonText.Encoded
  cases hdumps : JsonText.dumps S.platform.float digestStyle v with
  | none => simp
  | some text =>
      cases hencodable : text.encodable with
      | true => simp [Utf8.encode, hencodable]
      | false => simp [Utf8.encode, hencodable]

/-- A signed decision says what its draft says. -/
theorem signed_ok (h : S.signed request draft = .ok result) :
    result.status = draft.status ∧ result.capability = some draft.capability ∧
      result.body = some draft.body ∧
      JsonText.Encoded S.platform.float digestStyle (.obj request.body) ∧
      JsonText.Encoded S.platform.float digestStyle (.obj draft.body) := by
  unfold signed at h
  split at h
  · next inputDigest outputDigest hinput houtput =>
      have hencoded := digest_ok_iff.mp ⟨inputDigest, hinput⟩
      have hencoded' := digest_ok_iff.mp ⟨outputDigest, houtput⟩
      split at h
      · cases h
      · unfold PreUpstreamResult.validated at h
        split at h
        · cases h
          exact ⟨rfl, rfl, rfl, hencoded, hencoded'⟩
        · cases h
  · cases h

theorem digestPattern_hexText {data : Bytes} (h : data.length = 32) :
    digestPattern (hexText data) = true := by
  have hletter : ∀ n < 16, digestChar (JsonText.hexLetter n) = true := by decide
  unfold digestPattern hexText
  rw [Bool.and_eq_true, decide_eq_true_eq, List.all_eq_true]
  constructor
  · rw [List.length_flatMap]
    simp [h]
  · intro c hc
    obtain ⟨b, -, hb⟩ := List.mem_flatMap.mp hc
    have hb' := b.isLt
    simp only [List.mem_cons, List.not_mem_nil, or_false] at hb
    rcases hb with rfl | rfl
    · exact hletter _ (by omega)
    · exact hletter _ (Nat.mod_lt _ (by decide))

theorem tokenPattern_encodeUrl {data : Bytes} (h : data.length = 32) :
    tokenPattern (Base64.encodeUrl data) = true := by
  unfold tokenPattern
  rw [Bool.and_eq_true, decide_eq_true_eq, List.all_eq_true]
  constructor
  · have hlength := Base64.encodeUrl_length data
    rw [h] at hlength
    exact Nat.add_right_cancel hlength
  · exact Base64.forall_mem_encodeUrl (p := fun c => urlSafeChar c = true) (by decide) data

/-- A digest is one that a decision may carry. -/
theorem digest_ok {v : Json} {text : Str} (h : S.digest v = .ok text) :
    text.encodable = true ∧ digestPattern text = true := by
  unfold digest at h
  split at h
  · cases h
  · cases h
    exact ⟨Str.encodable_of_ascii (hexText_ascii _), digestPattern_hexText (S.sha256_length _)⟩

/-- What is signed has an encoding. -/
theorem encodable_signedText {inputDigest outputDigest : Str}
    (hinput : inputDigest.encodable = true) (houtput : outputDigest.encodable = true) :
    (signedText request draft inputDigest outputDigest).encodable = true := by
  apply Str.encodable_join (by decide)
  intro text htext
  simp only [List.mem_cons, List.not_mem_nil, or_false] at htext
  rcases htext with rfl | rfl | rfl | rfl | rfl | rfl | rfl
  · exact request.provider.encodable
  · exact request.targetModel.encodable
  · cases draft.capability <;> decide
  · cases draft.status <;> decide
  · exact hinput
  · exact houtput
  · cases draft.removed <;> decide

/-- A draft that is not refused is signed. -/
theorem exists_signed (hinput : JsonText.Encoded S.platform.float digestStyle (.obj request.body))
    (houtput : JsonText.Encoded S.platform.float digestStyle (.obj draft.body))
    (hstatus : draft.status ≠ .blocked) (hremoved : draft.removed = true) :
    ∃ result, S.signed request draft = .ok result := by
  obtain ⟨inputDigest, hin⟩ := digest_ok_iff.mpr hinput
  obtain ⟨outputDigest, hout⟩ := digest_ok_iff.mpr houtput
  obtain ⟨hinEncodable, hinPattern⟩ := digest_ok hin
  obtain ⟨houtEncodable, houtPattern⟩ := digest_ok hout
  unfold signed
  rw [hin, hout]
  simp only [Utf8.encode, encodable_signedText hinEncodable houtEncodable, if_true]
  unfold PreUpstreamResult.validated
  refine ⟨_, if_pos ?_⟩
  simp [PreUpstreamResult.accepted, PreUpstreamResult.shapeAccepted, PreUpstreamResult.complete,
    hinPattern, houtPattern, hstatus, hremoved, tokenPattern_encodeUrl (S.hmac_length _ _),
    request.provider.accepted, request.targetModel.accepted]

/-- The two kinds of a draft. -/
theorem draft_cases {payload : PreparePayload} {index : Option Nat}
    {answer : GatewayPrepareResponse}
    (hpayload : preparePayload S.unicode request = .ok (payload, index))
    (h : S.draft request index answer = .ok draft) :
    (answer.action = .converted ∧ ∃ text input, answer.sanitizedText = some text ∧ text ≠ [] ∧
      answer.originalImageRemoved = true ∧ CurrentReplaced request.body text input ∧
      (∀ J, hasMedia J (.obj (withInput request input)) = carriesMedia J request text) ∧
      draft = ⟨.prepared, .nonVision, withInput request input, true⟩) ∨
    (draft.status = .unchanged ∧ draft.body = retargeted request ∧
      (draft.capability = .nonVision →
        mediaReference S.unicode (.obj (retargeted request)) = .ok false)) := by
  unfold PreUpstreamService.draft at h
  split at h
  · next hconverted =>
      split at h
      · cases h
      · next text htext =>
          split at h
          · cases h
          · next hgood =>
              obtain ⟨hne, hremoved⟩ := not_or.mp hgood
              obtain ⟨hrest, input, hrewritten, hreplaced, hmedia⟩ :=
                rewritten_of_prepared hpayload text
              rw [hrewritten] at h
              cases h
              exact .inl ⟨hconverted, text, input, htext, hne, not_not.mp hremoved, hreplaced,
                fun J => hasMedia_withInput hrest (hmedia J), rfl⟩
  · split at h
    · cases h
      refine .inr ⟨rfl, rfl, ?_⟩
      rintro ⟨⟩
    · split at h
      · cases h
      · cases h
      · next hclean =>
          cases h
          exact .inr ⟨rfl, rfl, fun _ => hclean⟩

/-- What a result that is not blocked comes from. -/
theorem prepare_allowed (h : S.prepare request gateway = result) (hstatus : result.status ≠ .blocked) :
    ∃ payload index answer draft, preparePayload S.unicode request = .ok (payload, index) ∧
      gateway payload = .ok answer ∧ answer.targetModel = request.targetModel.value ∧
      answer.targetSupportsVision ≠ none ∧ S.draft request index answer = .ok draft ∧
      S.signed request draft = .ok result := by
  unfold prepare at h
  split at h
  · exact absurd (congrArg PreUpstreamResult.status h).symm hstatus
  · exact absurd (congrArg PreUpstreamResult.status h).symm hstatus
  · next payload index hpayload =>
      split at h
      · exact absurd (congrArg PreUpstreamResult.status h).symm hstatus
      · exact absurd (congrArg PreUpstreamResult.status h).symm hstatus
      · next answer hanswer =>
          split at h
          · exact absurd (congrArg PreUpstreamResult.status h).symm hstatus
          · next htarget =>
              split at h
              · exact absurd (congrArg PreUpstreamResult.status h).symm hstatus
              · next hknown =>
                  split at h
                  · exact absurd (congrArg PreUpstreamResult.status h).symm hstatus
                  · next decided hdecided =>
                      obtain rfl : decided = result := h
                      obtain ⟨draft, hdraft, hsigned⟩ := bind_eq_ok_iff.mp hdecided
                      exact ⟨payload, index, answer, draft, hpayload, hanswer, not_not.mp htarget,
                        fun hnone => hknown (.inr hnone), hdraft, hsigned⟩

end PreUpstreamService

end Decisions

section Results

variable (S : PreUpstreamService) (J : UnicodeData) (request : PreUpstreamRequest)
  (gateway : PreparePayload → Except GatewayFailure GatewayPrepareResponse)

/-- Neither scan finds a media reference in the body. -/
structure TextOnly (body : Entries Str Json) : Prop where
  python : mediaReference S.unicode (.obj body) ≠ .ok true
  plugin : hasMedia J (.obj body) = false

/-- The body names the target and has the other fields of the original one, but for the current
message of a prepared one. -/
structure Agrees (status : DecisionStatus) (body : Entries Str Json) : Prop where
  model : Entries.get? body (lit "model") = some (.str request.targetModel.value)
  others : ∀ key, key ∉ serverKeys → key ≠ lit "input" →
    Entries.get? body key = Entries.get? request.body key
  unchanged : status = .unchanged →
    Entries.get? body (lit "input") = Entries.get? request.body (lit "input")
  prepared : status = .prepared → ∃ text input,
    Entries.get? body (lit "input") = some input ∧ CurrentReplaced request.body text input

/-- A result that allows the call of a target without vision keeps media away from it. -/
def KeepsMediaAway : Prop :=
  ∀ result, S.prepare request gateway = result → result.status ≠ .blocked →
    result.capability = some .nonVision →
      ∃ body, result.body = some body ∧ TextOnly S J body ∧ Agrees request result.status body

/-- The gateway converts the request to a text, and the request and the text can be encoded. -/
structure Converts (text : Str) : Prop where
  answered : ∃ payload index answer, preparePayload S.unicode request = .ok (payload, index) ∧
    gateway payload = .ok answer ∧ answer.targetModel = request.targetModel.value ∧
    answer.action = .converted ∧ answer.targetSupportsVision ≠ none ∧
    answer.sanitizedText = some text ∧ answer.originalImageRemoved = true
  nonempty : text ≠ []
  request : JsonText.Encoded S.platform.float digestStyle (.obj request.body)
  text : text.encodable = true

variable {S J request gateway}

theorem agrees_retargeted : Agrees request .unchanged (retargeted request) := by
  refine ⟨get?_retargeted_model request, fun key hkey _ => get?_retargeted hkey, ?_, ?_⟩
  · exact fun _ => get?_retargeted (by decide)
  · rintro ⟨⟩

theorem agrees_withInput {text : Str} {input : Json}
    (h : CurrentReplaced request.body text input) :
    Agrees request .prepared (withInput request input) := by
  refine ⟨get?_withInput_model request input, fun key hkey hne => get?_withInput hkey hne, ?_, ?_⟩
  · rintro ⟨⟩
  · exact fun _ => ⟨text, input, Entries.get?_set_self _ _ _, h⟩

/-- Where the plugin finds nothing, the Python scan does not either. -/
theorem not_found_of_hasMedia {v : Json} (h : hasMedia S.unicode v = false) :
    mediaReference S.unicode v ≠ .ok true := by
  intro hfound
  rw [hasMedia_of_mediaReference hfound] at h
  cases h

/-- Media is kept away from targets without vision exactly if no conversion leaves or brings a
reference. -/
theorem keepsMediaAway_iff (S : PreUpstreamService) (J : UnicodeData) (request : PreUpstreamRequest)
    (gateway : PreparePayload → Except GatewayFailure GatewayPrepareResponse) :
    KeepsMediaAway S J request gateway ↔
      ∀ text, Converts S request gateway text → carriesMedia S.unicode request text = false := by
  constructor
  · rintro h text ⟨⟨payload, index, answer, hpayload, hanswer, htarget, hconverted, hknown, htext,
      hremoved⟩, hne, hbody, hencodable⟩
    obtain ⟨hrest, input, hrewritten, hreplaced, hmedia⟩ := rewritten_of_prepared hpayload text
    have hdraft : S.draft request index answer =
        .ok ⟨.prepared, .nonVision, withInput request input, true⟩ := by
      unfold PreUpstreamService.draft
      rw [if_pos hconverted, htext]
      simp only [hrewritten, hne, hremoved, not_true_eq_false, or_self, if_false]
      rfl
    obtain ⟨result, hsigned⟩ := @PreUpstreamService.exists_signed S request
      ⟨.prepared, .nonVision, withInput request input, true⟩ hbody
      ((encoded_withInput hbody hreplaced).mpr hencodable) (by rintro ⟨⟩) rfl
    have hprepare : S.prepare request gateway = result := by
      have hblocked : ¬ (answer.action = .blocked ∨ answer.targetSupportsVision = none) := by
        rw [hconverted]
        exact not_or.mpr ⟨by decide, hknown⟩
      unfold PreUpstreamService.prepare
      rw [hpayload]
      simp only [hanswer]
      rw [if_neg (not_not.mpr htarget), if_neg hblocked, hdraft]
      have hbind : (Except.ok ⟨.prepared, .nonVision, withInput request input, true⟩).bind
          (S.signed request) = .ok result := hsigned
      rw [hbind]
    obtain ⟨hstatus, hcapability, hresult, -⟩ := PreUpstreamService.signed_ok hsigned
    obtain ⟨body, hsome, hclean, -⟩ := h result hprepare (by rw [hstatus]; rintro ⟨⟩) hcapability
    rw [hresult] at hsome
    cases hsome
    rw [carriesMedia_congr S.unicode J, ← hasMedia_withInput hrest (hmedia J)]
    exact hclean.plugin
  · intro h result hresult hstatus hcapability
    obtain ⟨payload, index, answer, draft, hpayload, hanswer, htarget, hknown, hdraft, hsigned⟩ :=
      PreUpstreamService.prepare_allowed hresult hstatus
    obtain ⟨hsame, hkind, hbody, hencoded, hencoded'⟩ := PreUpstreamService.signed_ok hsigned
    rw [hcapability, Option.some.injEq] at hkind
    refine ⟨draft.body, hbody, ?_⟩
    rcases PreUpstreamService.draft_cases hpayload hdraft with
      ⟨hconverted, text, input, htext, hne, hremoved, hreplaced, hmedia, rfl⟩ |
      ⟨hunchanged, hretargeted, hclean⟩
    · have hconverts : Converts S request gateway text :=
        ⟨⟨payload, index, answer, hpayload, hanswer, htarget, hconverted, hknown, htext, hremoved⟩,
          hne, hencoded, (encoded_withInput hencoded hreplaced).mp hencoded'⟩
      have hnone := h text hconverts
      rw [hsame]
      refine ⟨⟨?_, ?_⟩, agrees_withInput hreplaced⟩
      · apply not_found_of_hasMedia
        rw [hmedia, hnone]
      · rw [hmedia, carriesMedia_congr J S.unicode, hnone]
    · have hclean := hclean hkind.symm
      rw [hsame, hunchanged, hretargeted]
      exact ⟨⟨by rw [hclean]; simp, hasMedia_of_mediaReference hclean⟩, agrees_retargeted⟩

def sampleService : PreUpstreamService where
  platform := .sample
  unicode := .ascii id
  decisionSecret := List.replicate 32 1
  secret_length := le_refl 32
  sha256_length _ := length_numberBytes 32 _
  hmac_length _ _ := length_numberBytes 32 _

theorem valid_sampleId : Constrained.Valid 128 adapterIdPattern (lit "chat") := by decide

def sampleId : Identifier := ⟨lit "chat", valid_sampleId.1, valid_sampleId.2.1, valid_sampleId.2.2⟩

/-- A message with an image, in a body that has a locator of its own. -/
def sampleBody : Entries Str Json :=
  [(lit "input", .arr [.obj [(lit "role", .str (lit "user")), (lit "content", .arr [.obj
      [(lit "type", .str (lit "input_image")),
        (lit "image_url", .str (lit "https://example.org/a.png"))]])]]),
    (lit "image_url", .str (lit "https://example.org/b.png"))]

theorem wellFormed_sampleBody : Json.WellFormed (.obj sampleBody) := by
  refine ⟨by decide, ⟨⟨by decide, trivial, ⟨⟨by decide, trivial, trivial, trivial⟩, trivial⟩,
    trivial⟩, trivial⟩, trivial, trivial⟩

def sampleRequest : PreUpstreamRequest := ⟨sampleId, sampleId, sampleId, sampleBody,
  wellFormed_sampleBody⟩

/-- A conversion of any request for the target. -/
def sampleAnswer : GatewayPrepareResponse where
  action := .converted
  targetModel := lit "chat"
  containsMedia := true
  containsImage := true
  containsPdf := false
  targetSupportsVision := some false
  sanitizedText := some (lit "A cat.")
  originalImageRemoved := true
  error := none

/-- A locator beside the messages is forwarded to a target without vision. -/
theorem media_forwarded : ¬ ∀ (S : PreUpstreamService) (J : UnicodeData)
    (request : PreUpstreamRequest)
    (gateway : PreparePayload → Except GatewayFailure GatewayPrepareResponse),
      KeepsMediaAway S J request gateway := by
  intro h
  have hbody : (sampleService.prepare sampleRequest fun _ => .ok sampleAnswer).body.any
      (fun body => hasMedia (.ascii id) (.obj body)) = true := by
    decide +kernel
  obtain ⟨body, hresult, hclean, -⟩ := h sampleService (.ascii id) sampleRequest
    (fun _ => .ok sampleAnswer) _ rfl (by decide +kernel) (by decide +kernel)
  rw [hresult, Option.any_some, hclean.plugin] at hbody
  cases hbody

end Results

end MediaBridge.Adapters
