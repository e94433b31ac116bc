import MediaBridge.Core.OpenaiResponses
import MediaBridge.Foundation.Raise

/-!
# What a normalized request says about its payload

The inversion of `normalizeResponsesRequest`: every check that an accepted
payload has passed, as one structure that later results take apart.
-/

namespace MediaBridge.Core.OpenaiResponses

open Foundation

variable {U : UnicodeData}

/-- The checks an accepted payload has passed. -/
structure NormalizedFrom (U : UnicodeData) (budget : Nat) (fields : Entries Str Json)
    (state : Option ResponsesStateRecord) (n : NormalizedResponsesRequest)
    (inputValue current : Json) (currentParts : List ContentPart) : Prop where
  noConversation : Json.field fields "conversation" = .null
  agrees : stateAgrees (Json.field fields "previous_response_id") state = .ok ()
  othersClean : MediaReference.scanValues U budget (otherEntries fields) = .clean
  input : Entries.get? fields (lit "input") = some inputValue
  selected : selectCurrentInput U budget inputValue = .ok current
  parts : ∃ text, currentContent U current = .ok (currentParts, text)
  model : Json.field fields "model" = .str n.request.target.registryId.value
  content : ∃ kept, stateParts state = some kept ∧ n.request.content = kept ++ currentParts
  hadMedia : n.inputHadMedia = !(mediaParts currentParts).isEmpty
  previousState : n.previousState = state

theorem refuseReference_eq_ok_iff {scan : Scan} {code message : String} :
    refuseReference scan code message = .ok () ↔ scan = .clean := by
  cases scan <;> simp [refuseReference, refuse]

/-- The request is built from the model identifier, the kept text and the parts. -/
theorem buildRequest_eq_ok {model : Json} {state : Option ResponsesStateRecord}
    {parts : List ContentPart} {request : PrepareForModelRequest}
    (h : buildRequest model state parts = .ok request) :
    model = .str request.target.registryId.value ∧
      ∃ kept, stateParts state = some kept ∧ request.content = kept ++ parts := by
  unfold buildRequest at h
  split at h
  · cases h
  rename_i modelId hmodel
  simp only at h
  split at h
  · rename_i request' hrequest
    cases h
    obtain ⟨registryId, hid, hrequest⟩ := Option.bind_eq_some_iff.mp hrequest
    obtain ⟨kept, hkept, hrequest⟩ := Option.bind_eq_some_iff.mp hrequest
    unfold PrepareForModelRequest.validate at hrequest
    split at hrequest
    · cases hrequest
      refine ⟨?_, kept, hkept, rfl⟩
      rw [Constrained.value_of_validate hid]
      cases model with
      | str s =>
          cases hmodel
          rfl
      | null | bool _ | int _ | float _ | arr _ | obj _ => cases hmodel
    · cases hrequest
  · cases h

/-- What follows from acceptance. -/
theorem normalizedFrom_of_ok {budget : Nat} {payload : Json}
    {state : Option ResponsesStateRecord} {n : NormalizedResponsesRequest}
    (h : normalizeResponsesRequest U budget payload state = .ok n) :
    ∃ fields input selected parts, payload = .obj fields ∧
      NormalizedFrom U budget fields state n input selected parts := by
  unfold normalizeResponsesRequest at h
  split at h
  · rename_i fields
    split at h
    · cases h
    rename_i hconversation
    obtain ⟨⟨⟩, hagrees, h⟩ := ok_of_bind h
    obtain ⟨⟨⟩, hclean, h⟩ := ok_of_bind h
    split at h
    · cases h
    rename_i input hinput
    obtain ⟨selected, hselected, h⟩ := ok_of_bind h
    obtain ⟨⟨parts, text⟩, hparts, h⟩ := ok_of_bind h
    obtain ⟨request, hrequest, h⟩ := ok_of_bind h
    cases h
    obtain ⟨hmodel, hcontent⟩ := buildRequest_eq_ok hrequest
    refine ⟨fields, input, selected, parts, rfl, ?_⟩
    refine ⟨?_, hagrees, refuseReference_eq_ok_iff.mp hclean, hinput, hselected, ⟨text, hparts⟩,
      hmodel, hcontent, rfl, rfl⟩
    exact (Json.isNull_iff _).mp (by simpa using hconversation)
  · cases h

/-- The text that is kept from an earlier turn is no medium. -/
theorem mediaParts_stateParts {state : Option ResponsesStateRecord} {kept : List ContentPart}
    (h : stateParts state = some kept) : mediaParts kept = [] := by
  unfold stateParts at h
  split at h
  · cases h
    rfl
  · split at h
    · cases h
      rfl
    · obtain ⟨part, hpart, rfl⟩ := Option.map_eq_some_iff.mp h
      obtain ⟨text, -, rfl⟩ := textPart_eq_some_iff.mp hpart
      rfl

/-- The request holds media exactly when the current input does. -/
theorem NormalizedFrom.mediaCount_eq_zero_iff {budget : Nat} {fields : Entries Str Json}
    {state : Option ResponsesStateRecord} {n : NormalizedResponsesRequest}
    {inputValue current : Json} {parts : List ContentPart}
    (h : NormalizedFrom U budget fields state n inputValue current parts) :
    (detectMedia n.request.content).mediaCount = 0 ↔ n.inputHadMedia = false := by
  obtain ⟨kept, hkept, hcontent⟩ := h.content
  have hparts : mediaParts n.request.content = mediaParts parts := by
    rw [hcontent, mediaParts, List.filterMap_append]
    change mediaParts kept ++ mediaParts parts = _
    rw [mediaParts_stateParts hkept, List.nil_append]
  rw [h.hadMedia, detectMedia, hparts]
  simp [List.isEmpty_iff]

/-- The payload names the response of the state, or neither is there. -/
theorem stateAgrees_eq_ok_iff {previousId : Json} {state : Option ResponsesStateRecord} :
    stateAgrees previousId state = .ok () ↔ (previousId = .null ∧ state = none) ∨
      ∃ s record, previousId = .str s ∧ state = some record ∧ record.responseId = s := by
  unfold stateAgrees
  split
  · simp
  · simp [refuse]
  · split
    · simp [*]
    · rename_i hne
      simpa [refuse] using Ne.symm hne
  · simp [refuse]
  · rename_i h1 h2 h3 h4
    simp only [refuse, reduceCtorEq, false_iff, not_or, not_and, not_exists]
    constructor
    · intro hp hs
      exact h1 hp hs
    · intro s record hp hs
      exact absurd hs (h3 s record hp)

theorem stateAgrees_none {previousId : Json}
    (h : stateAgrees previousId none = .ok ()) : previousId = .null := by
  rcases stateAgrees_eq_ok_iff.mp h with ⟨hnull, -⟩ | ⟨s, record, -, hnone, -⟩
  · exact hnull
  · cases hnone

theorem stateAgrees_some {previousId : Json} {record : ResponsesStateRecord}
    (h : stateAgrees previousId (some record) = .ok ()) : previousId = .str record.responseId := by
  rcases stateAgrees_eq_ok_iff.mp h with ⟨-, hnone⟩ | ⟨s, record', hs, hrecord, hid⟩
  · cases hnone
  · cases hrecord
    rw [hs, hid]

/-- The items of a list input around the current one, which are clean. -/
theorem selectCurrentInput_eq_ok {budget : Nat} {value selected : Json}
    (h : selectCurrentInput U budget value = .ok selected) :
    (∃ s, value = .str s ∧ selected = .str s) ∨
      ∃ items before current after, value = .arr items ∧
        splitAtLastUser items = some (before, current, after) ∧
        MediaReference.scanItems U budget (before ++ after) = .clean ∧
        currentMessage current = .ok selected := by
  unfold selectCurrentInput at h
  split at h
  · rename_i s
    cases h
    exact .inl ⟨s, rfl, rfl⟩
  · rename_i items
    split at h
    · cases h
    · rename_i before current after hsplit
      obtain ⟨⟨⟩, hclean, h⟩ := ok_of_bind h
      exact .inr ⟨items, before, current, after, rfl, hsplit,
        refuseReference_eq_ok_iff.mp hclean, h⟩
  · cases h

theorem splitAtLastUser_eq_none_iff {items : List Json} :
    splitAtLastUser items = none ↔ ∀ v ∈ items, isUserItem v = false := by
  induction items with
  | nil => simp [splitAtLastUser]
  | cons v rest ih =>
      rw [splitAtLastUser, List.forall_mem_cons, ← ih]
      cases hrest : splitAtLastUser rest with
      | some split => simp
      | none => cases huser : isUserItem v <;> simp

theorem exists_of_isUserItem {v : Json} (h : isUserItem v = true) :
    ∃ fields, v = .obj fields ∧ (Json.field fields "role").isLit "user" = true := by
  cases v with
  | obj fields => exact ⟨fields, rfl, h⟩
  | null | bool _ | int _ | float _ | str _ | arr _ => cases h

/-- The list is the items before, the current item, and the items after. -/
theorem eq_of_splitAtLastUser {items before after : List Json} {current : Json}
    (h : splitAtLastUser items = some (before, current, after)) :
    items = before ++ current :: after ∧ isUserItem current = true ∧
      ∀ v ∈ after, isUserItem v = false := by
  induction items generalizing before with
  | nil => cases h
  | cons v rest ih =>
      rw [splitAtLastUser] at h
      split at h
      · rename_i before' current' after' hrest
        cases h
        obtain ⟨heq, huser, hafter⟩ := ih hrest
        exact ⟨by rw [heq, List.cons_append], huser, hafter⟩
      · rename_i hrest
        split at h
        · rename_i huser
          cases h
          exact ⟨rfl, huser, splitAtLastUser_eq_none_iff.mp hrest⟩
        · cases h

end MediaBridge.Core.OpenaiResponses
