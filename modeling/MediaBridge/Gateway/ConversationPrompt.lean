import MediaBridge.Core.NormalizedRequest
import MediaBridge.Core.OpenaiChat
import MediaBridge.Foundation.TextOrder
import MediaBridge.Gateway.Transaction
import Mathlib.Data.List.Flatten

/-!
# The conversation and the prompt

A text provider is given one prompt. Here the texts of a conversation are read off
a Responses input and off a chat body, and compared with the prompt that is made
of it.

## Implementation notes

`conversationTexts` and `chatConversation` say what the users, the assistant and
the tools of a request have said; they are no translation of source code. A text
is *unread* when it does not stand in an `input_text` part. A prompt may also hold
texts from outside the conversation, such as those of a system message;
`ConversationOnly` says that it does not.
-/

namespace MediaBridge.Gateway

open Foundation MediaBridge.Core

/-- The part is one that a client writes. -/
def isInputText : Json → Bool
  | .obj part => (Json.field part "type").isLit "input_text"
  | _ => false

/-- The text of a part that a client or the model writes. -/
def partText : Json → Option Str
  | .obj part =>
      if (Json.field part "type").isLit "input_text" ||
          (Json.field part "type").isLit "output_text" then
        (Json.field part "text").str?
      else none
  | _ => none

/-- The texts of a content: a string, or the text parts of a list. -/
def contentTexts : Json → List Str
  | .str s => [s]
  | .arr parts => parts.filterMap partText
  | _ => []

/-- The texts of a content that stand in an `input_text` part. -/
def readTexts : Json → List Str
  | .arr parts => (parts.filter isInputText).filterMap partText
  | _ => []

/-- The texts of a content that do not. -/
def unreadTexts : Json → List Str
  | .str s => [s]
  | .arr parts => (parts.filter fun part => !isInputText part).filterMap partText
  | _ => []

/-- The key under which an item of the conversation keeps what it says: a message of
the user or the assistant, or the output of a tool. -/
def spokenKey (item : Entries Str Json) : Option String :=
  if (Json.field item "role").isLit "user" || (Json.field item "role").isLit "assistant" then
    some "content"
  else if (Json.field item "type").isLit "function_call_output" then some "output"
  else none

/-- What an item of the conversation says. -/
def spokenContent : Json → Json
  | .obj item =>
      match spokenKey item with
      | some key => Json.field item key
      | none => .null
  | _ => .null

/-- The texts of the users, the assistant and the tools, in their order. -/
def conversationTexts : Json → List Str
  | .str s => [s]
  | .arr items => items.flatMap fun item => contentTexts (spokenContent item)
  | _ => []

/-- The texts of an input that no `input_text` part holds. -/
def unreadConversation : Json → List Str
  | .arr items => items.flatMap fun item => unreadTexts (spokenContent item)
  | _ => []

/-- The prompt holds the texts, up to surrounding blanks, in their order. -/
def Says (prompt : Str) (texts : List Str) : Prop := Str.InOrder (texts.map Str.strip) prompt

/-- Every text of the conversation that is not blank stands in an `input_text` part. -/
def Readable (input : Json) : Prop := ∀ t ∈ unreadConversation input, t.strip = []

/-- Some `input_text` dictionary in the value has a text that is not blank. -/
inductive HoldsInputText : Json → Prop
  | here {fields : Entries Str Json} {s : Str} : isInputText (.obj fields) = true →
      Json.field fields "text" = .str s → s.strip ≠ [] → HoldsInputText (.obj fields)
  | item {items : List Json} {v : Json} : v ∈ items → HoldsInputText v →
      HoldsInputText (.arr items)
  | value {fields : Entries Str Json} {e : Str × Json} : e ∈ fields → HoldsInputText e.2 →
      HoldsInputText (.obj fields)

/-- A text part holds no further text. -/
def PlainPart : Json → Prop
  | .obj part => ∀ e ∈ part, ¬ HoldsInputText e.2
  | v => ¬ HoldsInputText v

/-- A content holds no text but that of its parts. -/
def PlainContent : Json → Prop
  | .arr parts => ∀ part ∈ parts, PlainPart part
  | v => ¬ HoldsInputText v

/-- An item holds no text but what it says. -/
def PlainItem : Json → Prop
  | .obj item =>
      match spokenKey item with
      | some key => isInputText (.obj item) = false ∧
          (∀ e ∈ item, e.1 ≠ lit key → ¬ HoldsInputText e.2) ∧
          PlainContent (Json.field item key)
      | none => ¬ HoldsInputText (.obj item)
  | v => ¬ HoldsInputText v

/-- All `input_text` parts of an input belong to its conversation. -/
def ConversationOnly : Json → Prop
  | .arr items => ∀ item ∈ items, PlainItem item
  | _ => True

section Collected

theorem collectItems_eq (items : List Json) : collectItems items = items.flatMap collectTexts := by
  induction items with
  | nil => rfl
  | cons v rest ih => rw [collectItems, ih, List.flatMap_cons]

theorem collectValues_eq (fields : Entries Str Json) :
    collectValues fields = fields.flatMap fun e => collectTexts e.2 := by
  induction fields with
  | nil => rfl
  | cons e rest ih => rw [collectValues, ih, List.flatMap_cons]

/-- The text of a dictionary itself, when it is an `input_text` part. -/
def ownText (fields : Entries Str Json) : List Str :=
  if isInputText (.obj fields) then ((Json.field fields "text").str?).toList else []

theorem collectTexts_obj (fields : Entries Str Json) :
    collectTexts (.obj fields) =
      ownText fields ++ fields.flatMap fun e => collectTexts e.2 := by
  rw [collectTexts, collectValues_eq]
  rfl

theorem collectTexts_arr (items : List Json) :
    collectTexts (.arr items) = items.flatMap collectTexts := by
  rw [collectTexts, collectItems_eq]

theorem mem_ownText {fields : Entries Str Json} {t : Str} :
    t ∈ ownText fields ↔
      isInputText (.obj fields) = true ∧ Json.field fields "text" = .str t := by
  unfold ownText
  split
  · rename_i h
    rw [Option.mem_toList, Json.str?_eq_some_iff]
    exact (and_iff_right h).symm
  · rename_i h
    simp [h]

/-- What is collected from a value without `input_text` is blank. -/
theorem weight_collectTexts_eq_zero {v : Json} (h : ¬ HoldsInputText v) :
    Str.weight (collectTexts v) = 0 := by
  induction v using Json.induct with
  | null | bool _ | int _ | float _ | str _ => rfl
  | arr items ih =>
      rw [collectTexts_arr]
      exact Str.weight_flatMap_eq_zero fun v hv => ih v hv fun hold => h (.item hv hold)
  | obj fields ih =>
      have hown : Str.weight (ownText fields) = 0 := by
        rw [Str.weight_eq_zero_iff]
        intro t ht
        by_contra hne
        obtain ⟨htype, htext⟩ := mem_ownText.mp ht
        exact h (.here htype htext hne)
      rw [collectTexts_obj, Str.weight_append, hown, Nat.zero_add]
      exact Str.weight_flatMap_eq_zero fun e he => ih e he fun hold => h (.value he hold)

end Collected

section Weights

/-- Every text of a content is read or unread. -/
theorem weight_contentTexts (content : Json) :
    Str.weight (contentTexts content) =
      Str.weight (readTexts content) + Str.weight (unreadTexts content) := by
  cases content with
  | null | bool _ | int _ | float _ | obj _ => rfl
  | str s => simp [contentTexts, readTexts, unreadTexts]
  | arr parts =>
      simp only [contentTexts, readTexts, unreadTexts]
      induction parts with
      | nil => rfl
      | cons part rest ih =>
          cases hpart : isInputText part <;> cases htext : partText part <;>
            simp [hpart, htext, ih] <;> omega

theorem partText_of_isInputText {part : Entries Str Json} (h : isInputText (.obj part) = true) :
    partText (.obj part) = (Json.field part "text").str? := by
  have htype : (Json.field part "type").isLit "input_text" = true := h
  rw [partText, htype, Bool.true_or, if_pos rfl]

/-- From a plain part exactly its own text is collected. -/
theorem weight_plainPart {part : Json} (h : PlainPart part) :
    Str.weight (collectTexts part) =
      Str.weight (if isInputText part then (partText part).toList else []) := by
  cases part with
  | obj fields =>
      have hvalues : Str.weight (fields.flatMap fun e => collectTexts e.2) = 0 :=
        Str.weight_flatMap_eq_zero fun e he => weight_collectTexts_eq_zero (h e he)
      rw [collectTexts_obj, Str.weight_append, hvalues, Nat.add_zero, ownText]
      split
      · rename_i htype
        rw [partText_of_isInputText htype]
      · rfl
  | null | bool _ | int _ | float _ | str _ | arr _ => exact weight_collectTexts_eq_zero h

theorem weight_plainContent {content : Json} (h : PlainContent content) :
    Str.weight (collectTexts content) = Str.weight (readTexts content) := by
  cases content with
  | arr parts =>
      rw [collectTexts_arr, readTexts]
      induction parts with
      | nil => rfl
      | cons part rest ih =>
          obtain ⟨hpart, hrest⟩ := List.forall_mem_cons.mp h
          rw [List.flatMap_cons, Str.weight_append, weight_plainPart hpart, ih hrest,
            List.filter_cons]
          split
          · cases htext : partText part <;> simp [htext]
          · simp
  | null | bool _ | int _ | float _ | str _ | obj _ => exact weight_collectTexts_eq_zero h

/-- When only one key of a dictionary holds text, that of its value is collected. -/
theorem weight_values_eq_field {fields : Entries Str Json} {key : String}
    (hkeys : (Entries.keys fields).Nodup)
    (h : ∀ e ∈ fields, e.1 ≠ lit key → ¬ HoldsInputText e.2) :
    Str.weight (fields.flatMap fun e => collectTexts e.2) =
      Str.weight (collectTexts (Json.field fields key)) := by
  induction fields with
  | nil => rfl
  | cons e rest ih =>
      obtain ⟨k, v⟩ := e
      obtain ⟨hnot, hrest⟩ := List.nodup_cons.mp hkeys
      obtain ⟨hhead, htail⟩ := List.forall_mem_cons.mp h
      rw [List.flatMap_cons, Str.weight_append, Json.field, Entries.get?_cons]
      by_cases hk : k = lit key
      · have hzero : Str.weight (rest.flatMap fun e => collectTexts e.2) = 0 := by
          apply Str.weight_flatMap_eq_zero
          intro e he
          apply weight_collectTexts_eq_zero
          apply htail e he
          intro hek
          have hmem : e.1 ∈ rest.map Prod.fst := List.mem_map_of_mem he
          rw [hek, ← hk] at hmem
          exact hnot hmem
        rw [hzero, if_pos hk]
        rfl
      · rw [if_neg hk, weight_collectTexts_eq_zero (hhead hk), Nat.zero_add]
        exact ih hrest htail

/-- The item is a dictionary with unique keys, if it is one. -/
def UniqueKeys (v : Json) : Prop := ∀ fields, v.obj? = some fields → (Entries.keys fields).Nodup

theorem weight_plainItem {item : Json} (hkeys : UniqueKeys item) (h : PlainItem item) :
    Str.weight (collectTexts item) = Str.weight (readTexts (spokenContent item)) := by
  cases item with
  | obj fields =>
      rw [PlainItem] at h
      rw [spokenContent]
      cases hkey : spokenKey fields with
      | none =>
          rw [hkey] at h
          exact weight_collectTexts_eq_zero h
      | some key =>
          rw [hkey] at h
          obtain ⟨hown, hothers, hcontent⟩ := h
          rw [collectTexts_obj, Str.weight_append, ownText, if_neg (by simp [hown]),
            weight_values_eq_field (hkeys fields rfl) hothers, weight_plainContent hcontent]
          exact Nat.zero_add _
  | null | bool _ | int _ | float _ | str _ | arr _ => exact weight_collectTexts_eq_zero h

end Weights

section Order

/-- The read texts of a content are collected, in their order. -/
theorem readTexts_sublist (content : Json) :
    (readTexts content).Sublist (collectTexts content) := by
  cases content with
  | arr parts =>
      rw [collectTexts_arr, readTexts]
      induction parts with
      | nil => exact .slnil
      | cons part rest ih =>
          rw [List.filter_cons, List.flatMap_cons]
          split
          · rename_i hpart
            obtain ⟨fields, rfl⟩ : ∃ fields, part = .obj fields := by
              cases part <;> simp_all [isInputText]
            have hown : collectTexts (.obj fields) =
                (partText (.obj fields)).toList ++ fields.flatMap fun e => collectTexts e.2 := by
              rw [collectTexts_obj, ownText, if_pos hpart, partText_of_isInputText hpart]
            rw [hown, List.filterMap_cons]
            cases partText (.obj fields) with
            | none => exact ih.trans (List.sublist_append_right _ _)
            | some t => exact (ih.trans (List.sublist_append_right _ _)).cons_cons t
          · exact ih.trans (List.sublist_append_right _ _)
  | null | bool _ | int _ | float _ | str _ | obj _ => exact List.nil_sublist _

theorem readTexts_spoken_sublist (item : Json) :
    (readTexts (spokenContent item)).Sublist (collectTexts item) := by
  cases item with
  | obj fields =>
      rw [spokenContent]
      cases spokenKey fields with
      | none => exact List.nil_sublist _
      | some key =>
          refine (readTexts_sublist _).trans ?_
          cases hget : Entries.get? fields (lit key) with
          | none =>
              simp only [Json.field, hget]
              exact List.nil_sublist _
          | some v =>
              have hmem := Entries.mem_of_get? hget
              simp only [Json.field, hget, Option.getD_some, collectTexts_obj]
              refine List.Sublist.trans ?_ (List.sublist_append_right _ _)
              exact List.sublist_flatten_of_mem (List.mem_map_of_mem hmem)
  | null | bool _ | int _ | float _ | str _ | arr _ => exact List.nil_sublist _

/-- The texts that are not blank. -/
def visible (texts : List Str) : List Str := texts.filter fun t => !t.strip.isEmpty

/-- When the unread texts of a content are blank, what can be seen of it is read. -/
theorem visible_contentTexts {content : Json} (h : ∀ t ∈ unreadTexts content, t.strip = []) :
    (visible (contentTexts content)).Sublist (visible (readTexts content)) := by
  cases content with
  | str s =>
      have hs : s.strip = [] := h s (by simp [unreadTexts])
      simp [visible, contentTexts, hs]
  | arr parts =>
      simp only [contentTexts, readTexts, unreadTexts] at h ⊢
      induction parts with
      | nil => exact .slnil
      | cons part rest ih =>
          cases hpart : isInputText part with
          | true =>
              simp only [hpart, Bool.not_true, Bool.false_eq_true, not_false_eq_true,
                List.filter_cons_of_neg, List.filter_cons_of_pos, List.filterMap_cons] at h ⊢
              cases partText part with
              | none => exact ih h
              | some t =>
                  simp only [visible, List.filter_cons]
                  split
                  · exact (ih h).cons_cons t
                  · exact ih h
          | false =>
              simp only [hpart, Bool.not_false, Bool.false_eq_true, not_false_eq_true,
                List.filter_cons_of_neg, List.filter_cons_of_pos, List.filterMap_cons] at h ⊢
              cases htext : partText part with
              | none =>
                  rw [htext] at h
                  exact ih h
              | some t =>
                  rw [htext] at h
                  obtain ⟨ht, hrest⟩ := List.forall_mem_cons.mp h
                  rw [visible, List.filter_cons_of_neg (by simp [ht])]
                  exact ih hrest
  | null | bool _ | int _ | float _ | obj _ => exact .slnil

end Order

/-- The prompt of a list of items. -/
theorem textFromResponsesPayload_arr {payload : Entries Str Json} {items : List Json}
    (h : Json.field payload "input" = .arr items) :
    textFromResponsesPayload payload = Str.join (lit "\n\n")
      (((items.flatMap collectTexts).map Str.strip).filter fun s => !s.isEmpty) := by
  rw [textFromResponsesPayload, h]
  simp only [collectTexts_arr]

theorem solid_separator : Str.solid (lit "\n\n") = [] := by decide

/-- A prompt weighs as much as the texts it is made of. -/
theorem solid_prompt_length {payload : Entries Str Json} {items : List Json}
    (h : Json.field payload "input" = .arr items) :
    (Str.solid (textFromResponsesPayload payload)).length =
      Str.weight (items.flatMap collectTexts) := by
  rw [textFromResponsesPayload_arr h, Str.solid_join_length solid_separator,
    Str.weight_map_strip]

/-- Nothing of a readable conversation is lost. -/
theorem says_of_readable {payload : Entries Str Json}
    (h : Readable (Json.field payload "input")) :
    Says (textFromResponsesPayload payload) (conversationTexts (Json.field payload "input")) := by
  cases hinput : Json.field payload "input" with
  | null | bool _ | int _ | float _ | obj _ => trivial
  | str s =>
      rw [textFromResponsesPayload, hinput]
      exact ⟨[], [], by simp, trivial⟩
  | arr items =>
      rw [hinput] at h
      rw [textFromResponsesPayload_arr hinput, Says]
      apply Str.InOrder.of_filter
      refine (Str.InOrder.join _ _).sublist ?_
      rw [List.filter_map, List.filter_map]
      apply List.Sublist.map
      change (visible (items.flatMap _)).Sublist (visible (items.flatMap _))
      simp only [visible, List.filter_flatMap]
      apply List.Sublist.flatMap_right _
      intro item hitem
      refine (visible_contentTexts ?_).trans ((readTexts_spoken_sublist item).filter _)
      intro t ht
      exact h t (List.mem_flatMap.mpr ⟨item, hitem, ht⟩)

/-- A prompt made of the conversation alone holds it only when all of it is readable. -/
theorem readable_of_says {payload : Entries Str Json}
    (hkeys : ∀ items, Json.field payload "input" = .arr items →
      ∀ item ∈ items, UniqueKeys item)
    (honly : ConversationOnly (Json.field payload "input"))
    (h : Says (textFromResponsesPayload payload)
      (conversationTexts (Json.field payload "input"))) :
    Readable (Json.field payload "input") := by
  cases hinput : Json.field payload "input" with
  | null | bool _ | int _ | float _ | obj _ | str _ => simp [Readable, unreadConversation]
  | arr items =>
      rw [hinput] at h honly
      have hweight := h.weight_le
      rw [solid_prompt_length hinput, Str.weight_strip] at hweight
      have hcollected : Str.weight (items.flatMap collectTexts) =
          Str.weight (items.flatMap fun item => readTexts (spokenContent item)) := by
        rw [Str.weight_flatMap, Str.weight_flatMap]
        congr 1
        apply List.map_congr_left
        intro item hitem
        exact weight_plainItem (hkeys items hinput item hitem) (honly item hitem)
      have hsplit : Str.weight (conversationTexts (.arr items)) =
          Str.weight (items.flatMap fun item => readTexts (spokenContent item)) +
            Str.weight (unreadConversation (.arr items)) := by
        simp only [conversationTexts, unreadConversation, Str.weight_flatMap]
        rw [← List.sum_map_add]
        simp only [weight_contentTexts]
      rw [Readable, ← Str.weight_eq_zero_iff]
      omega

end MediaBridge.Gateway
