import MediaBridge.Core.NormalizerTotality
import MediaBridge.Gateway.SealedTurn

/-!
# The media that reach the provider

What a sealed payload gives the provider to look at: the image and file items in
its input. They are the media of the content that the gate prepared.
-/

namespace MediaBridge.Gateway

open Foundation MediaBridge.Core

/-- The medium an item of the input stands for. -/
def itemMedium (fields : Entries Str Json) : List MediaType :=
  if (Json.field fields "type").isLit "input_image" then [.image]
  else if (Json.field fields "type").isLit "input_file" then [.pdf]
  else []

mutual

/-- The media items anywhere in a value. -/
def mediaItems : Json → List MediaType
  | .obj fields => itemMedium fields ++ mediaInValues fields
  | .arr items => mediaInItems items
  | .null => []
  | .bool _ => []
  | .int _ => []
  | .float _ => []
  | .str _ => []

/-- The media items in the items of a list. -/
def mediaInItems : List Json → List MediaType
  | [] => []
  | v :: rest => mediaItems v ++ mediaInItems rest

/-- The media items in the values of a dictionary. -/
def mediaInValues : List (Str × Json) → List MediaType
  | [] => []
  | (_, v) :: rest => mediaItems v ++ mediaInValues rest

end

/-- The modalities that a payload passes to the provider. -/
def sentModalities (payload : Entries Str Json) : Finset MediaType :=
  (mediaItems (Json.field payload "input")).toFinset

theorem mediaInItems_eq_flatMap (items : List Json) :
    mediaInItems items = items.flatMap mediaItems := by
  induction items with
  | nil => rfl
  | cons v rest ih => rw [mediaInItems, ih, List.flatMap_cons]

theorem mediaInValues_eq_flatMap (fields : List (Str × Json)) :
    mediaInValues fields = fields.flatMap fun e => mediaItems e.2 := by
  induction fields with
  | nil => rfl
  | cons e rest ih =>
      obtain ⟨k, v⟩ := e
      rw [mediaInValues, ih, List.flatMap_cons]

/-- Only containers hold media items. -/
theorem mediaItems_of_hashable {v : Json} (h : v.hashable = true) : mediaItems v = [] := by
  cases v with
  | arr items => cases h
  | obj fields => cases h
  | null | bool _ | int _ | float _ | str _ => rfl

theorem itemMedium_of_not_marked {fields : Entries Str Json}
    (h : MediaReference.markedByType fields = false) : itemMedium fields = [] := by
  simp only [MediaReference.markedByType, Bool.or_eq_false_iff] at h
  simp [itemMedium, h.1.1, h.1.2]

/-- Where the search for media references finds nothing, there is no media item. -/
theorem mediaItems_of_clean {U : UnicodeData} {v : Json} :
    ∀ {budget : Nat}, MediaReference.containsMediaReference U budget v = .clean →
      mediaItems v = [] := by
  induction v using Json.induct with
  | arr items ih =>
      intro budget h
      cases budget with
      | zero => cases h
      | succ n =>
          rw [MediaReference.containsMediaReference_arr_eq_clean_iff] at h
          rw [mediaItems, mediaInItems_eq_flatMap, List.flatMap_eq_nil_iff]
          exact fun v hv => ih v hv (h v hv)
  | obj fields ih =>
      intro budget h
      cases budget with
      | zero => cases h
      | succ n =>
          rw [MediaReference.containsMediaReference_obj_eq_clean_iff, Bool.or_eq_false_iff] at h
          rw [mediaItems, itemMedium_of_not_marked h.1.1, List.nil_append,
            mediaInValues_eq_flatMap, List.flatMap_eq_nil_iff]
          exact fun e he => ih e he (h.2 e he)
  | null | bool _ | int _ | float _ | str _ => exact fun _ => rfl

theorem hashable_of_noneOrOneOf {v : Json} {values : List String}
    (h : OpenaiResponses.NoneOrOneOf v values) : v.hashable = true := by
  rcases h with h | ⟨s, -, hs⟩
  · rw [(Json.isNull_iff v).mp h]
    rfl
  · rw [(Json.isLit_iff v s).mp hs]
    rfl

theorem mem_of_keysWithin {fields : Entries Str Json} {allowed : List String}
    (h : Json.keysWithin fields allowed = true) {e : Str × Json} (he : e ∈ fields) :
    ∃ key ∈ allowed, e.1 = lit key := by
  have hkey := List.all_eq_true.mp h e he
  obtain ⟨key, hmem, heq⟩ := List.any_eq_true.mp hkey
  exact ⟨key, hmem, by simpa using heq⟩

/-- In a dictionary with unique keys, an entry is what its key reads. -/
theorem field_of_mem {fields : Entries Str Json} (hnodup : (Entries.keys fields).Nodup)
    {e : Str × Json} (he : e ∈ fields) {key : String} (hkey : e.1 = lit key) :
    Json.field fields key = e.2 := by
  obtain ⟨k, v⟩ := e
  rw [Json.field, ← hkey, (Entries.get?_eq_some_iff hnodup).mpr he]
  rfl

/-- Content without media parts has no media items. -/
theorem mediaItems_of_currentPart {U : UnicodeData} {raw : Json} {part : ContentPart}
    (hraw : raw.WellFormed) (h : OpenaiResponses.currentPart U raw = .ok part)
    (hpart : part.media? = none) : mediaItems raw = [] := by
  unfold OpenaiResponses.currentPart at h
  split at h
  · rename_i fields
    split at h
    · rename_i hkind
      split at h
      · rename_i text hkeys htext
        have hkeys' : Json.keysWithin fields ["type", "text"] = true := by
          simp only [OpenaiResponses.textKeysExact, Bool.and_eq_true] at hkeys
          exact hkeys.1.1
        rw [Json.isLit_iff] at hkind
        rw [mediaItems, mediaInValues_eq_flatMap, itemMedium, hkind]
        have hvalues : fields.flatMap (fun e => mediaItems e.2) = [] := by
          rw [List.flatMap_eq_nil_iff]
          intro e he
          obtain ⟨key, hmem, hkey⟩ := mem_of_keysWithin hkeys' he
          have hvalue := field_of_mem hraw.1 he hkey
          simp only [List.mem_cons, List.not_mem_nil, or_false] at hmem
          rcases hmem with rfl | rfl
          · rw [← hvalue, hkind]
            rfl
          · rw [← hvalue, (Json.str?_eq_some_iff _ _).mp htext]
            rfl
        rw [hvalues]
        decide
      · cases h
    split at h
    · cases himage : OpenaiResponses.imagePart U fields with
      | error e => rw [himage] at h; cases h
      | ok media => rw [himage] at h; cases h; cases hpart
    split at h
    · cases hfile : OpenaiResponses.pdfPart fields with
      | error e => rw [hfile] at h; cases h
      | ok media => rw [hfile] at h; cases h; cases hpart
    · cases h
  · cases h

theorem mediaItems_of_currentParts {U : UnicodeData} {items : List Json}
    {parts : List ContentPart} (hitems : ∀ v ∈ items, v.WellFormed)
    (h : OpenaiResponses.currentParts U items = .ok parts) (hparts : mediaParts parts = []) :
    ∀ v ∈ items, mediaItems v = [] := by
  induction items generalizing parts with
  | nil => simp
  | cons raw rest ih =>
      obtain ⟨part, hpart, h⟩ := ok_of_bind h
      obtain ⟨others, hothers, h⟩ := ok_of_bind h
      cases h
      have hnone : part.media? = none ∧ mediaParts others = [] := by
        cases part with
        | text t => exact ⟨rfl, hparts⟩
        | media m => cases hparts
      rw [List.forall_mem_cons]
      exact ⟨mediaItems_of_currentPart (hitems raw List.mem_cons_self) hpart hnone.1,
        ih (fun v hv => hitems v (List.mem_cons_of_mem _ hv)) hothers hnone.2⟩

theorem mediaItems_of_currentContent {U : UnicodeData} {value : Json}
    {parts : List ContentPart} {text : Str} (hvalue : value.WellFormed)
    (h : OpenaiResponses.currentContent U value = .ok (parts, text))
    (hparts : mediaParts parts = []) : mediaItems value = [] := by
  unfold OpenaiResponses.currentContent at h
  split at h
  · rfl
  · obtain ⟨parts', hparts', h⟩ := ok_of_bind h
    cases h
    rw [mediaItems, mediaInItems_eq_flatMap, List.flatMap_eq_nil_iff]
    exact mediaItems_of_currentParts (Json.wellFormedItems_of_mem hvalue) hparts' hparts
  · cases h

/-- The current message holds media items only in its content. -/
theorem mediaItems_of_message {fields : Entries Str Json} {content : Json}
    (hfields : (Json.obj fields).WellFormed)
    (h : OpenaiResponses.AcceptedMessage fields content)
    (huser : (Json.field fields "role").isLit "user" = true)
    (hcontent : mediaItems content = []) : mediaItems (.obj fields) = [] := by
  have hmedium : itemMedium fields = [] := by
    have htype : ∀ kind ∈ ["input_image", "input_file"],
        (Json.field fields "type").isLit kind = false := by
      intro kind hkind
      rcases h.type with hnull | ⟨s, hs, hlit⟩
      · rw [(Json.isNull_iff _).mp hnull]
        rfl
      · obtain rfl : s = "message" := by simpa [OpenaiResponses.typeValues] using hs
        rw [(Json.isLit_iff _ _).mp hlit]
        revert kind
        decide
    simp [itemMedium, htype]
  rw [mediaItems, hmedium, List.nil_append, mediaInValues_eq_flatMap, List.flatMap_eq_nil_iff]
  intro e he
  obtain ⟨key, hmem, hkey⟩ := mem_of_keysWithin h.keys he
  have hvalue := field_of_mem hfields.1 he hkey
  simp only [OpenaiResponses.messageKeys, List.mem_cons, List.not_mem_nil, or_false] at hmem
  rcases hmem with rfl | rfl | rfl | rfl | rfl
  · rw [← hvalue]
    rcases h.id with hnull | ⟨s, hs⟩
    · rw [hnull]
      rfl
    · rw [hs]
      rfl
  · rw [← hvalue]
    exact mediaItems_of_hashable (hashable_of_noneOrOneOf h.type)
  · rw [← hvalue]
    exact mediaItems_of_hashable (hashable_of_noneOrOneOf h.status)
  · rw [← hvalue, (Json.isLit_iff _ _).mp huser]
    rfl
  · rw [← hvalue, Json.field, h.content]
    exact hcontent

/-- An accepted input without media parts has no media items, in the history either. -/
theorem mediaItems_of_input {U : UnicodeData} {budget : Nat} {value current : Json}
    {parts : List ContentPart} {text : Str} (hvalue : value.WellFormed)
    (hselected : OpenaiResponses.selectCurrentInput U budget value = .ok current)
    (hcontent : OpenaiResponses.currentContent U current = .ok (parts, text))
    (hparts : mediaParts parts = []) : mediaItems value = [] := by
  rcases OpenaiResponses.selectCurrentInput_eq_ok hselected with
    ⟨s, rfl, -⟩ | ⟨items, before, message, after, rfl, hsplit, hclean, hmessage⟩
  · rfl
  · obtain ⟨rfl, huser, -⟩ := OpenaiResponses.eq_of_splitAtLastUser hsplit
    obtain ⟨fields, rfl, hrole⟩ := OpenaiResponses.exists_of_isUserItem huser
    have hitems := Json.wellFormedItems_of_mem hvalue
    have hfields : (Json.obj fields).WellFormed := hitems _ (by simp)
    have haccepted := OpenaiResponses.currentMessage_eq_ok_iff.mp hmessage
    have hcurrent : current.WellFormed :=
      Json.wellFormedFields_of_mem hfields.2 _ (Entries.mem_of_get? haccepted.content)
    rw [MediaReference.scanItems_eq_clean_iff] at hclean
    rw [mediaItems, mediaInItems_eq_flatMap, List.flatMap_eq_nil_iff]
    intro v hv
    rcases List.mem_append.mp hv with hbefore | hrest
    · exact mediaItems_of_clean (hclean v (List.mem_append_left _ hbefore))
    · rcases List.mem_cons.mp hrest with rfl | hafter
      · exact mediaItems_of_message hfields haccepted hrole
          (mediaItems_of_currentContent hcurrent hcontent hparts)
      · exact mediaItems_of_clean (hclean v (List.mem_append_right _ hafter))

/-- A rebuilt part is a media item exactly when it was a media part. -/
theorem mediaItems_rebuiltPart {part : ContentPart} {item : Json}
    (h : GatewayTransaction.rebuiltPart part = some item) :
    mediaItems item = (part.media?.map MediaPart.mediaType).toList := by
  cases part with
  | text part =>
      cases h
      rfl
  | media part =>
      obtain ⟨mediaType, source, filename, declaredMime⟩ := part
      cases source with
      | base64 data => cases mediaType <;> cases h <;> rfl
      | assetId _ | url _ | localPath _ => cases mediaType <;> cases h

theorem mediaInItems_rebuilt {content : List ContentPart} {items : List Json}
    (h : content.mapM GatewayTransaction.rebuiltPart = some items) :
    mediaInItems items = (mediaParts content).map MediaPart.mediaType := by
  induction content generalizing items with
  | nil =>
      cases h
      rfl
  | cons part rest ih =>
      rw [List.mapM_cons] at h
      obtain ⟨item, hitem, h⟩ := Option.bind_eq_some_iff.mp h
      obtain ⟨others, hothers, h⟩ := Option.bind_eq_some_iff.mp h
      cases h
      rw [mediaInItems, ih hothers, mediaItems_rebuiltPart hitem]
      cases part <;> rfl

theorem mediaItems_rebuiltInput {content : List ContentPart} {input : Json}
    (h : GatewayTransaction.rebuiltInput content = some input) :
    mediaItems input = (mediaParts content).map MediaPart.mediaType := by
  obtain ⟨items, hitems, h⟩ := Option.bind_eq_some_iff.mp h
  split at h
  · cases h
  · cases h
    rw [← mediaInItems_rebuilt hitems]
    have hmedium : itemMedium [(lit "type", Json.str (lit "message")),
        (lit "role", .str (lit "user")), (lit "content", .arr items)] = [] := by
      rfl
    simp [mediaItems, mediaInItems, mediaInValues, hmedium]

namespace SealedTurn

variable {tx : GatewayTransaction} (t : SealedTurn tx)

/-- The provider is sent the media of the prepared content and no others. -/
theorem sentModalities_eq (hpayload : (Json.obj t.payload).WellFormed) :
    sentModalities t.sealedRequest.payload = (detectMedia t.prepared.content).modalities := by
  rcases GatewayTransaction.buildDownstreamPayload_eq_some t.model_eq t.sealedFrom.payload with
    ⟨hwhole, hbuilt⟩ | ⟨-, input, hinput, hbuilt⟩
  · obtain ⟨inputValue, current, parts, hfrom⟩ := t.normalizedFrom
    obtain ⟨text, hcontent⟩ := hfrom.parts
    have hhad : t.normalized.inputHadMedia = false := by
      simp only [GatewayTransaction.passesWhole, Bool.and_eq_true, Bool.not_eq_true'] at hwhole
      exact hwhole.1
    have hparts : mediaParts parts = [] := by
      have h := hfrom.hadMedia
      rw [hhad] at h
      simpa using h.symm
    have hvalue : inputValue.WellFormed :=
      Json.wellFormedFields_of_mem hpayload.2 _ (Entries.mem_of_get? hfrom.input)
    have hfield : Json.field t.sealedRequest.payload "input" = inputValue := by
      rw [hbuilt, Json.field, GatewayTransaction.get?_withoutServerState (by decide) (by decide),
        hfrom.input]
      rfl
    have hnone := hfrom.mediaCount_eq_zero_iff.mpr hhad
    have hprepared : (detectMedia t.prepared.content).modalities = ∅ := by
      rw [detectMedia_modalities_eq_empty]
      cases t.preparedBy with
      | pdfs _ _ hpdf _ _ _ =>
          rw [detectMedia_modalities_eq_empty.mpr hnone] at hpdf
          exact absurd hpdf.symm (Finset.singleton_ne_empty _)
      | converted hcount _ _ _ _ => exact absurd hnone hcount
      | textOnly _ _ hready =>
          rw [hready.content]
          exact hnone
    rw [hprepared, sentModalities, hfield,
      mediaItems_of_input hvalue hfrom.selected hcontent hparts, List.toFinset_nil]
  · have hfield : Json.field t.sealedRequest.payload "input" = input := by
      rw [hbuilt, Json.field, Entries.get?_append, GatewayTransaction.get?_copiedEntries,
        if_pos (by decide)]
      rfl
    rw [sentModalities, hfield, mediaItems_rebuiltInput hinput]
    rfl

end SealedTurn

end MediaBridge.Gateway
