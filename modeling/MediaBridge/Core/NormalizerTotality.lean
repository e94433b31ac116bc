import MediaBridge.Core.NormalizedRequest
import MediaBridge.Core.NormalizerErrors

/-!
# When the normalizer answers

The characterizations of the content parts are composed along the path of
`normalize_responses_request`: the envelope, the entries beside the input, the
history, the current message, and its content in order.

## Implementation notes

`Hazard` names the first failing check as a property of the payload and of the
follow-up state. Its premises are the checks that come before it, so that a
payload which is refused earlier is not hazardous.
-/

namespace MediaBridge.Core

open Foundation

namespace OpenaiResponses

/-- A text item with exactly its two keys. -/
structure TextItem (part : Entries Str Json) (text : Str) : Prop where
  kind : (Json.field part "type").isLit "input_text" = true
  keys : textKeysExact part = true
  text : Json.field part "text" = .str text

/-- An image item that reaches its locator. -/
structure ImageItem (item : Entries Str Json) : Prop where
  kind : (Json.field item "type").isLit "input_image" = true
  plain : PlainItem item imageKeys

/-- A file item that reaches its locator. -/
structure FileItem (item : Entries Str Json) : Prop where
  kind : (Json.field item "type").isLit "input_file" = true
  plain : PlainItem item fileKeys

/-- The content items the normalizer turns into a part. -/
inductive AcceptedPart (U : UnicodeData) : Json → Prop
  | text {part : Entries Str Json} {text : Str} : TextItem part text →
      Constrained.Valid 200000 anyText text → AcceptedPart U (.obj part)
  | image {item : Entries Str Json} : ImageItem item →
      NoneOrOneOf (Json.field item "detail") detailValues → AcceptedImage U item →
      AcceptedPart U (.obj item)
  | file {item : Entries Str Json} : FileItem item → AcceptedFile item →
      NameReadable item → NameWithinLimits item → AcceptedPart U (.obj item)

/-- The content items an exception escapes from. -/
inductive PartHazard (U : UnicodeData) : Json → Prop
  | text {part : Entries Str Json} {text : Str} : TextItem part text →
      ¬ Constrained.Valid 200000 anyText text → PartHazard U (.obj part)
  | detail {item : Entries Str Json} : ImageItem item →
      ¬ Testable (Json.field item "detail") → PartHazard U (.obj item)
  | url {item : Entries Str Json} : ImageItem item →
      NoneOrOneOf (Json.field item "detail") detailValues → UrlHazard U item →
      PartHazard U (.obj item)
  | fileName {item : Entries Str Json} : FileItem item → AcceptedFile item →
      ¬ NameWithinLimits item → PartHazard U (.obj item)

variable (U : UnicodeData)

theorem contained_newTextPart_iff (s : Str) :
    Contained (newTextPart s) ↔ Constrained.Valid 200000 anyText s := by
  rw [newTextPart, contained_validated_iff, ne_eq, textPart_eq_none_iff, not_not]

theorem newTextPart_eq_ok_iff {s : Str} :
    (∃ part, newTextPart s = .ok part) ↔ Constrained.Valid 200000 anyText s := by
  rw [newTextPart]
  cases h : textPart s with
  | none => simpa [validated] using textPart_eq_none_iff.mp h
  | some part =>
      have hv : Constrained.Valid 200000 anyText s := by
        by_contra hno
        rw [textPart_eq_none_iff.mpr hno] at h
        cases h
      simp [validated, hv]

/-- A value carries one type name at most. -/
theorem isLit_unique {v : Json} {a b : String} (ha : v.isLit a = true) (hb : v.isLit b = true) :
    lit a = lit b := by
  rw [Json.isLit_iff] at ha hb
  rw [ha] at hb
  injection hb

theorem text_ne_image : lit "input_text" ≠ lit "input_image" := by decide

theorem text_ne_file : lit "input_text" ≠ lit "input_file" := by decide

theorem image_ne_file : lit "input_image" ≠ lit "input_file" := by decide

/-- `_current_content` gives a part for exactly the items of the grammar. -/
theorem currentPart_eq_ok_iff {v : Json} :
    (∃ part, currentPart U v = .ok part) ↔ AcceptedPart U v := by
  constructor
  · rintro ⟨part, h⟩
    cases v with
    | obj item =>
        rw [currentPart] at h
        split at h
        · rename_i hkind
          split at h
          · rename_i text hkeys htext
            exact .text ⟨hkind, hkeys, field_eq_str_iff.mp htext⟩
              (newTextPart_eq_ok_iff.mp ⟨part, h⟩)
          · cases h
        split at h
        · rename_i hkind
          cases himage : imagePart U item with
          | error e => rw [himage] at h; cases h
          | ok media =>
              obtain ⟨hplain, hdetail, haccepted⟩ := (imagePart_eq_ok_iff U).mp ⟨media, himage⟩
              exact .image ⟨hkind, hplain⟩ hdetail haccepted
        split at h
        · rename_i hkind
          cases hfile : pdfPart item with
          | error e => rw [hfile] at h; cases h
          | ok media =>
              obtain ⟨hplain, haccepted, hname⟩ := pdfPart_eq_ok_iff.mp ⟨media, hfile⟩
              exact .file ⟨hkind, hplain⟩ haccepted hname.1 hname.2
        · cases h
    | _ => cases h
  · intro h
    cases h with
    | text hitem hv =>
        simpa [currentPart, hitem.kind, hitem.keys, hitem.text, Json.str?] using
          newTextPart_eq_ok_iff.mpr hv
    | @image item hitem hdetail haccepted =>
        obtain ⟨media, hmedia⟩ := (imagePart_eq_ok_iff U).mpr ⟨hitem.plain, hdetail, haccepted⟩
        have hnot : (Json.field item "type").isLit "input_text" = false := by
          by_contra ht
          exact text_ne_image (isLit_unique (by simpa using ht) hitem.kind)
        exact ⟨.media media, by
          rw [currentPart, hmedia, hnot, if_neg (by decide), if_pos hitem.kind]
          rfl⟩
    | @file item hitem haccepted hread hlimit =>
        obtain ⟨media, hmedia⟩ := pdfPart_eq_ok_iff.mpr ⟨hitem.plain, haccepted, hread, hlimit⟩
        have hnot : (Json.field item "type").isLit "input_text" = false := by
          by_contra ht
          exact text_ne_file (isLit_unique (by simpa using ht) hitem.kind)
        have hnot' : (Json.field item "type").isLit "input_image" = false := by
          by_contra ht
          exact image_ne_file (isLit_unique (by simpa using ht) hitem.kind)
        exact ⟨.media media, by
          rw [currentPart, hmedia, hnot, hnot', if_neg (by decide), if_neg (by decide),
            if_pos hitem.kind]
          rfl⟩

/-- One content item lets an exception through exactly at the listed places. -/
theorem contained_currentPart_iff (v : Json) :
    Contained (currentPart U v) ↔ ¬ PartHazard U v := by
  cases v with
  | obj item =>
      rw [currentPart]
      split
      · rename_i hkind
        have himage {P : Prop} (h : ImageItem item) : P :=
          absurd (isLit_unique hkind h.kind) text_ne_image
        have hfile {P : Prop} (h : FileItem item) : P :=
          absurd (isLit_unique hkind h.kind) text_ne_file
        split
        · rename_i text hkeys htext
          have htext := field_eq_str_iff.mp htext
          rw [contained_newTextPart_iff]
          constructor
          · intro hv h
            cases h with
            | text hitem hno =>
                have heq := hitem.text.symm.trans htext
                injection heq with heq
                exact hno (heq ▸ hv)
            | detail hitem => exact himage hitem
            | url hitem => exact himage hitem
            | fileName hitem => exact hfile hitem
          · intro h
            by_contra hno
            exact h (.text ⟨hkind, hkeys, htext⟩ hno)
        · rename_i hno
          refine iff_of_true (contained_refuse _ _) fun h => ?_
          cases h with
          | text hitem => exact hno _ hitem.keys (field_eq_str_iff.mpr hitem.text)
          | detail hitem => exact himage hitem
          | url hitem => exact himage hitem
          | fileName hitem => exact hfile hitem
      rename_i hnotText
      split
      · rename_i hkind
        rw [contained_map_iff, contained_imagePart_iff]
        constructor
        · intro himage h
          cases h with
          | text hitem => exact hnotText hitem.kind
          | detail hitem hno => exact hno (himage hitem.plain).1
          | url hitem hdetail hurl => exact (himage hitem.plain).2 hdetail hurl
          | fileName hitem => exact image_ne_file (isLit_unique hkind hitem.kind)
        · intro h hplain
          refine ⟨?_, fun hdetail hurl => h (.url ⟨hkind, hplain⟩ hdetail hurl)⟩
          by_contra hno
          exact h (.detail ⟨hkind, hplain⟩ hno)
      rename_i hnotImage
      split
      · rename_i hkind
        rw [contained_map_iff, contained_pdfPart_iff]
        constructor
        · intro hpdf h
          cases h with
          | text hitem => exact hnotText hitem.kind
          | detail hitem => exact hnotImage hitem.kind
          | url hitem => exact hnotImage hitem.kind
          | fileName hitem haccepted hno => exact hno (hpdf hitem.plain haccepted)
        · intro h hplain haccepted
          by_contra hno
          exact h (.fileName ⟨hkind, hplain⟩ haccepted hno)
      · rename_i hnotFile
        refine iff_of_true (contained_refuse _ _) fun h => ?_
        cases h with
        | text hitem => exact hnotText hitem.kind
        | detail hitem => exact hnotImage hitem.kind
        | url hitem => exact hnotImage hitem.kind
        | fileName hitem => exact hnotFile hitem.kind
  | _ => exact iff_of_true (contained_refuse _ _) fun h => by cases h

/-- The loop stops at the first item that is not accepted. -/
theorem contained_currentParts_iff (items : List Json) :
    Contained (currentParts U items) ↔
      ∀ before v after, items = before ++ v :: after →
        (∀ w ∈ before, AcceptedPart U w) → ¬ PartHazard U v := by
  induction items with
  | nil => simp [currentParts]
  | cons raw rest ih =>
      have hstep : Contained (currentParts U (raw :: rest)) ↔
          ¬ PartHazard U raw ∧ (AcceptedPart U raw → Contained (currentParts U rest)) := by
        rw [currentParts, contained_bind_iff, contained_currentPart_iff,
          ← currentPart_eq_ok_iff]
        simp only [contained_bind_iff, contained_pure, implies_true, and_true,
          forall_exists_index]
      rw [hstep, ih]
      constructor
      · rintro ⟨hraw, hrest⟩ before v after heq hbefore
        cases before with
        | nil =>
            obtain ⟨rfl, -⟩ := List.cons.inj heq
            exact hraw
        | cons w before =>
            obtain ⟨rfl, htail⟩ := List.cons.inj heq
            exact hrest (hbefore raw List.mem_cons_self) before v after htail
              fun x hx => hbefore x (List.mem_cons_of_mem _ hx)
      · intro h
        refine ⟨h [] raw rest rfl (by simp), fun hraw before v after heq hbefore => ?_⟩
        exact h (raw :: before) v after (by rw [heq]; rfl)
          (List.forall_mem_cons.mpr ⟨hraw, hbefore⟩)

/-- A content value an exception escapes from: a text beyond the limits, or a
list whose first item that is not accepted is hazardous. -/
inductive ContentHazard (U : UnicodeData) : Json → Prop
  | text {s : Str} : s ≠ [] → ¬ Constrained.Valid 200000 anyText s → ContentHazard U (.str s)
  | part {before : List Json} {v : Json} {after : List Json} :
      (∀ w ∈ before, AcceptedPart U w) → PartHazard U v →
      ContentHazard U (.arr (before ++ v :: after))

theorem contained_currentContent_iff (value : Json) :
    Contained (currentContent U value) ↔ ¬ ContentHazard U value := by
  unfold currentContent
  split
  · rename_i s
    split
    · rename_i hempty
      refine iff_of_true (contained_refuse _ _) fun h => ?_
      cases h with
      | text hne => exact hne (by simpa using hempty)
    · rename_i hne
      simp only [bind_pure_comp, contained_map_iff, contained_newTextPart_iff]
      constructor
      · intro hv h
        cases h with
        | text _ hno => exact hno hv
      · intro h
        by_contra hno
        exact h (.text (by simpa using hne) hno)
  · rename_i raw rest
    simp only [bind_pure_comp, contained_map_iff, contained_currentParts_iff]
    constructor
    · intro hparts h
      generalize heq : Json.arr (raw :: rest) = value at h
      cases h with
      | text => cases heq
      | part hbefore hv =>
          injection heq with heq
          exact hparts _ _ _ heq hbefore hv
    · intro h before v after heq hbefore hv
      rw [heq] at h
      exact h (.part hbefore hv)
  · rename_i hstr harr
    refine iff_of_true (contained_refuse _ _) fun h => ?_
    cases h with
    | text => exact hstr _ rfl
    | @part before v after =>
        cases before with
        | nil => exact harr _ _ rfl
        | cons w before => exact harr _ _ rfl

/-- The values of `type` and `status` of the current message. -/
def typeValues : List String := ["message"]

def statusValues : List String := ["in_progress", "completed"]

/-- The identifier of the current message is absent or a string. -/
def IdReadable (current : Entries Str Json) : Prop :=
  Json.field current "id" = .null ∨ ∃ s, Json.field current "id" = .str s

/-- The current message passes its checks and has the given content. -/
structure AcceptedMessage (current : Entries Str Json) (content : Json) : Prop where
  keys : Json.keysWithin current messageKeys = true
  type : NoneOrOneOf (Json.field current "type") typeValues
  id : IdReadable current
  status : NoneOrOneOf (Json.field current "status") statusValues
  content : Entries.get? current (lit "content") = some content

/-- The current message raises: a membership test meets a value without hash. -/
inductive MessageHazard (current : Entries Str Json) : Prop
  | type : Json.keysWithin current messageKeys = true →
      ¬ Testable (Json.field current "type") → MessageHazard current
  | status : Json.keysWithin current messageKeys = true →
      NoneOrOneOf (Json.field current "type") typeValues → IdReadable current →
      ¬ Testable (Json.field current "status") → MessageHazard current

theorem idReadable_iff {current : Entries Str Json} :
    (!(Json.field current "id").isNull && (Json.field current "id").str?.isNone) = false ↔
      IdReadable current := by
  unfold IdReadable
  cases Json.field current "id" <;> simp [Json.isNull, Json.str?]

theorem contained_currentMessageContent_iff (current : Entries Str Json) :
    Contained (currentMessageContent current) ↔
      (IdReadable current → Testable (Json.field current "status")) := by
  unfold currentMessageContent
  split
  · rename_i hid
    refine iff_of_true (contained_refuse _ _) fun h => ?_
    rw [idReadable_iff.mpr h] at hid
    cases hid
  · rename_i hid
    have hid : IdReadable current := idReadable_iff.mp (Bool.eq_false_iff.mpr hid)
    rw [contained_guarded_iff]
    simp only [hid, true_imp_iff, and_iff_left_iff_imp]
    intro _ _
    split <;> simp

theorem currentMessageContent_eq_ok_iff {current : Entries Str Json} {content : Json} :
    currentMessageContent current = .ok content ↔ IdReadable current ∧
      NoneOrOneOf (Json.field current "status") statusValues ∧
        Entries.get? current (lit "content") = some content := by
  unfold currentMessageContent
  split
  · rename_i hid
    simp only [refuse, reduceCtorEq, false_iff, not_and]
    intro h
    rw [idReadable_iff.mpr h] at hid
    cases hid
  · rename_i hid
    have hid : IdReadable current := idReadable_iff.mp (Bool.eq_false_iff.mpr hid)
    rw [guarded_eq_ok_iff]
    simp only [hid, true_and]
    refine and_congr_right fun _ => ?_
    cases Entries.get? current (lit "content") <;> simp [refuse]

theorem contained_currentMessage_iff (current : Entries Str Json) :
    Contained (currentMessage (.obj current)) ↔ ¬ MessageHazard current := by
  rw [currentMessage]
  split
  · rename_i hkeys
    have hno : Json.keysWithin current messageKeys = false := by simpa using hkeys
    refine iff_of_true (contained_refuse _ _) fun h => ?_
    cases h with
    | type hk => rw [hk] at hno; cases hno
    | status hk => rw [hk] at hno; cases hno
  · rename_i hkeys
    have hkeys : Json.keysWithin current messageKeys = true := by simpa using hkeys
    rw [contained_guarded_iff, contained_currentMessageContent_iff]
    constructor
    · rintro ⟨htype, hstatus⟩ h
      cases h with
      | type _ hno => exact hno htype
      | status _ ht hid hno => exact hno (hstatus ht hid)
    · intro h
      constructor
      · by_contra hno
        exact h (.type hkeys hno)
      · intro ht hid
        by_contra hno
        exact h (.status hkeys ht hid hno)

theorem currentMessage_eq_ok_iff {current : Entries Str Json} {content : Json} :
    currentMessage (.obj current) = .ok content ↔ AcceptedMessage current content := by
  rw [currentMessage]
  split
  · rename_i hkeys
    have hno : Json.keysWithin current messageKeys = false := by simpa using hkeys
    simp only [refuse, reduceCtorEq, false_iff]
    intro h
    rw [h.keys] at hno
    cases hno
  · rename_i hkeys
    have hkeys : Json.keysWithin current messageKeys = true := by simpa using hkeys
    rw [guarded_eq_ok_iff, currentMessageContent_eq_ok_iff]
    constructor
    · rintro ⟨htype, hid, hstatus, hcontent⟩
      exact ⟨hkeys, htype, hid, hstatus, hcontent⟩
    · intro h
      exact ⟨h.type, h.id, h.status, h.content⟩

/-- The payload's envelope is in order, and the state is the one it names. -/
structure Ready (fields : Entries Str Json) (state : Option ResponsesStateRecord) : Prop where
  noConversation : Json.field fields "conversation" = .null
  state : (Json.field fields "previous_response_id" = .null ∧ state = none) ∨
    ∃ s record, Json.field fields "previous_response_id" = .str s ∧ state = some record ∧
      record.responseId = s

/-- The item list of the input, cut at its last user message. -/
structure CurrentMessage (fields : Entries Str Json) (before : List Json)
    (current : Entries Str Json) (after : List Json) : Prop where
  input : ∃ items, Entries.get? fields (lit "input") = some (.arr items) ∧
    splitAtLastUser items = some (before, .obj current, after)

/-- The traversal of the entries beside the input, and of the history. -/
def othersScan (budget : Nat) (fields : Entries Str Json) : Scan :=
  MediaReference.scanValues U budget (otherEntries fields)

def historyScan (budget : Nat) (before after : List Json) : Scan :=
  MediaReference.scanItems U budget (before ++ after)

/-- The first check that fails is one whose failure is not a refusal. -/
inductive Hazard (budget : Nat) (fields : Entries Str Json)
    (state : Option ResponsesStateRecord) : Prop
  | others : Ready fields state → othersScan U budget fields = .tooDeep →
      Hazard budget fields state
  | text {s : Str} : Ready fields state → othersScan U budget fields = .clean →
      Entries.get? fields (lit "input") = some (.str s) → ContentHazard U (.str s) →
      Hazard budget fields state
  | history {before : List Json} {current : Entries Str Json} {after : List Json} :
      Ready fields state → othersScan U budget fields = .clean →
      CurrentMessage fields before current after →
      historyScan U budget before after = .tooDeep → Hazard budget fields state
  | message {before : List Json} {current : Entries Str Json} {after : List Json} :
      Ready fields state → othersScan U budget fields = .clean →
      CurrentMessage fields before current after →
      historyScan U budget before after = .clean → MessageHazard current →
      Hazard budget fields state
  | content {before : List Json} {current : Entries Str Json} {after : List Json}
      {content : Json} : Ready fields state → othersScan U budget fields = .clean →
      CurrentMessage fields before current after →
      historyScan U budget before after = .clean → AcceptedMessage current content →
      ContentHazard U content → Hazard budget fields state

theorem contained_stateAgrees (previousId : Json) (state : Option ResponsesStateRecord) :
    Contained (stateAgrees previousId state) := by
  unfold stateAgrees
  split <;> try simp
  split <;> simp

theorem contained_refuseReference_iff (scan : Scan) (code message : String) :
    Contained (refuseReference scan code message) ↔ scan ≠ .tooDeep := by
  cases scan <;> simp [refuseReference]

theorem isUserItem_of_split {items : List Json} {before : List Json} {current : Json}
    {after : List Json} (h : splitAtLastUser items = some (before, current, after)) :
    ∃ fields, current = .obj fields := by
  obtain ⟨-, huser, -⟩ := eq_of_splitAtLastUser h
  obtain ⟨fields, heq, -⟩ := exists_of_isUserItem huser
  exact ⟨fields, heq⟩

theorem contained_buildRequest (model : Json) (state : Option ResponsesStateRecord)
    (parts : List ContentPart) : Contained (buildRequest model state parts) := by
  unfold buildRequest
  split
  · simp
  · simp only
    split <;> simp

theorem contained_selectCurrentInput_iff (budget : Nat) (input : Json) :
    Contained (selectCurrentInput U budget input) ↔
      ∀ items before current after, input = .arr items →
        splitAtLastUser items = some (before, .obj current, after) →
          historyScan U budget before after ≠ .tooDeep ∧
            (historyScan U budget before after = .clean → ¬ MessageHazard current) := by
  unfold selectCurrentInput
  split
  · simp
  · rename_i items
    cases hsplit : splitAtLastUser items with
    | none =>
        refine iff_of_true (contained_refuse _ _) fun items' _ _ _ heq hs => ?_
        cases heq
        rw [hsplit] at hs
        cases hs
    | some r =>
        obtain ⟨before, current, after⟩ := r
        obtain ⟨fields, rfl⟩ := isUserItem_of_split hsplit
        simp only [contained_check_iff, contained_refuseReference_iff,
          refuseReference_eq_ok_iff, contained_currentMessage_iff, historyScan]
        constructor
        · rintro h items' b c a heq hs
          cases heq
          rw [hsplit] at hs
          cases hs
          exact h
        · intro h
          exact h items before fields after rfl hsplit
  · rename_i hstr harr
    refine iff_of_true (contained_refuse _ _) fun items _ _ _ heq _ => ?_
    exact absurd heq (harr items)

/-- A list input selects the content of its accepted current message. -/
theorem selectCurrentInput_arr_eq_ok {budget : Nat} {items before after : List Json}
    {current : Entries Str Json} {content : Json}
    (hsplit : splitAtLastUser items = some (before, .obj current, after))
    (hclean : historyScan U budget before after = .clean) :
    selectCurrentInput U budget (.arr items) = .ok content ↔
      AcceptedMessage current content := by
  rw [historyScan] at hclean
  simp only [selectCurrentInput, hsplit, hclean, refuseReference]
  exact currentMessage_eq_ok_iff

theorem contained_afterSelection_iff (budget : Nat) (fields : Entries Str Json)
    (state : Option ResponsesStateRecord) (input : Json) :
    Contained (do
        let selected ← selectCurrentInput U budget input
        let (parts, text) ← currentContent U selected
        let request ← buildRequest (Json.field fields "model") state parts
        return (⟨request, text, !(mediaParts parts).isEmpty, state⟩ :
          NormalizedResponsesRequest)) ↔
      Contained (selectCurrentInput U budget input) ∧
        ∀ selected, selectCurrentInput U budget input = .ok selected →
          ¬ ContentHazard U selected := by
  simp only [contained_bind_iff, contained_currentContent_iff, contained_buildRequest,
    contained_pure, implies_true, and_true]

/-- An exception of its own leaves the normalizer exactly when a reached check fails so. -/
theorem hazard_iff_not_contained (budget : Nat) (fields : Entries Str Json)
    (state : Option ResponsesStateRecord) :
    Hazard U budget fields state ↔
      ¬ Contained (normalizeResponsesRequest U budget (.obj fields) state) := by
  rw [iff_not_comm, normalizeResponsesRequest]
  split
  · rename_i hconv
    refine iff_of_true (contained_refuse _ _) fun h => ?_
    have hno {P : Prop} (hr : Ready fields state) : P := by simp [hr.noConversation] at hconv
    cases h with
    | others hr => exact hno hr
    | text hr => exact hno hr
    | history hr => exact hno hr
    | message hr => exact hno hr
    | content hr => exact hno hr
  rename_i hconv
  have hconv : Json.field fields "conversation" = .null := by
    simpa [Json.isNull_iff] using hconv
  rw [contained_check_iff, contained_check_iff, contained_refuseReference_iff,
    stateAgrees_eq_ok_iff, refuseReference_eq_ok_iff]
  simp only [contained_stateAgrees, true_and]
  constructor
  · intro h hz
    have hready (hr : Ready fields state) := h hr.state
    cases hz with
    | others hr hdeep => exact (hready hr).1 hdeep
    | @text s hr hclean hin hbad =>
        have hrest := (hready hr).2 hclean
        simp only [hin] at hrest
        exact ((contained_afterSelection_iff ..).mp hrest).2 (.str s) rfl hbad
    | history hr hclean hcur hdeep =>
        obtain ⟨items, hin, hsplit⟩ := hcur.input
        have hrest := (hready hr).2 hclean
        simp only [hin] at hrest
        have hsel := ((contained_afterSelection_iff ..).mp hrest).1
        exact ((contained_selectCurrentInput_iff ..).mp hsel _ _ _ _ rfl hsplit).1 hdeep
    | message hr hclean hcur hhist hbad =>
        obtain ⟨items, hin, hsplit⟩ := hcur.input
        have hrest := (hready hr).2 hclean
        simp only [hin] at hrest
        have hsel := ((contained_afterSelection_iff ..).mp hrest).1
        exact ((contained_selectCurrentInput_iff ..).mp hsel _ _ _ _ rfl hsplit).2 hhist hbad
    | content hr hclean hcur hhist hacc hbad =>
        obtain ⟨items, hin, hsplit⟩ := hcur.input
        have hrest := (hready hr).2 hclean
        simp only [hin] at hrest
        exact ((contained_afterSelection_iff ..).mp hrest).2 _
          ((selectCurrentInput_arr_eq_ok U hsplit hhist).mpr hacc) hbad
  · intro hz hstate
    have hr : Ready fields state := ⟨hconv, hstate⟩
    refine ⟨fun hdeep => hz (.others hr hdeep), fun hclean => ?_⟩
    cases hin : Entries.get? fields (lit "input") with
    | none => simp
    | some input =>
        simp only
        rw [contained_afterSelection_iff]
        have hsel : Contained (selectCurrentInput U budget input) := by
          rw [contained_selectCurrentInput_iff]
          rintro items before current after rfl hsplit
          have hcur : CurrentMessage fields before current after := ⟨items, hin, hsplit⟩
          exact ⟨fun hdeep => hz (.history hr hclean hcur hdeep),
            fun hhist hbad => hz (.message hr hclean hcur hhist hbad)⟩
        refine ⟨hsel, fun selected hok hbad => ?_⟩
        cases input with
        | str s =>
            cases hok
            exact hz (.text hr hclean hin hbad)
        | arr items =>
            rw [selectCurrentInput] at hok
            split at hok
            · cases hok
            · rename_i before current after hsplit
              obtain ⟨current, rfl⟩ := isUserItem_of_split hsplit
              have hcur : CurrentMessage fields before current after := ⟨items, hin, hsplit⟩
              cases hhist : historyScan U budget before after with
              | clean =>
                  have hacc := (selectCurrentInput_arr_eq_ok U hsplit hhist).mp
                    (by simpa only [selectCurrentInput, hsplit] using hok)
                  exact hz (.content hr hclean hcur hhist hacc hbad)
              | found =>
                  rw [historyScan] at hhist
                  rw [hhist] at hok
                  cases hok
              | tooDeep =>
                  rw [historyScan] at hhist
                  rw [hhist] at hok
                  cases hok
        | _ => cases hok

/-- The normalizer answers a payload exactly when no check on its way fails with
an exception of its own: every JSON object, every follow-up state. -/
theorem normalizeResponsesRequest_contained_iff (budget : Nat) (fields : Entries Str Json)
    (state : Option ResponsesStateRecord) :
    Contained (normalizeResponsesRequest U budget (.obj fields) state) ↔
      ¬ Hazard U budget fields state :=
  iff_not_comm.mp (hazard_iff_not_contained U budget fields state)

/-- A message whose `type` is a list: the membership test has nothing to hash. -/
def unhashableType : Entries Str Json :=
  [(lit "model", .str (lit "text-model")),
    (lit "input", .arr [.obj [(lit "role", .str (lit "user")), (lit "type", .arr []),
      (lit "content", .str (lit "hello"))]])]

/-- Some JSON object is not answered: the exception is a `TypeError`. -/
theorem normalizeResponsesRequest_not_total :
    ¬ ∀ (U : UnicodeData) (budget : Nat) (fields : Entries Str Json)
      (state : Option ResponsesStateRecord),
      Contained (normalizeResponsesRequest U budget (.obj fields) state) := by
  intro h
  have hraise : normalizeResponsesRequest (.ascii id) 1000 (.obj unhashableType) none =
      .error .typeError := by rfl
  have hcontained := h (.ascii id) 1000 unhashableType none
  rw [hraise] at hcontained
  exact not_contained_typeError hcontained

end OpenaiResponses

end MediaBridge.Core
