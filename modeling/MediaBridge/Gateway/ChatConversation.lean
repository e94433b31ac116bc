import MediaBridge.Gateway.ConversationPrompt
import MediaBridge.Gateway.SealedTurn

/-!
# What a chat conversation loses on the way to a text provider

The translation of a chat body keeps every text of the conversation, in order.
The prompt is made of `input_text` parts alone, so that it keeps the texts of the
users and drops those of the assistant and of the tools.
-/

namespace MediaBridge.Gateway

open Foundation MediaBridge.Core OpenaiChat

/-- The text of a part of a chat message. -/
def chatPartText : Json → Option Str
  | .obj part =>
      if (Json.field part "type").isLit "text" then (Json.field part "text").str? else none
  | _ => none

/-- The texts of the content of a chat message. -/
def chatContentTexts : Json → List Str
  | .str s => [s]
  | .arr parts => parts.filterMap chatPartText
  | _ => []

/-- The texts of a message of the user, the assistant or a tool. -/
def chatTexts : Json → List Str
  | .obj message =>
      if (Json.field message "role").isLit "user" ||
          (Json.field message "role").isLit "assistant" ||
          (Json.field message "role").isLit "tool" then
        chatContentTexts (Json.field message "content")
      else []
  | _ => []

/-- The texts of a message that a user did not write. -/
def unreadChatTexts : Json → List Str
  | .obj message =>
      if (Json.field message "role").isLit "user" then [] else chatTexts (.obj message)
  | _ => []

/-- The messages of a chat body. -/
def chatMessages : Json → List Json
  | .obj payload =>
      match Json.field payload "messages" with
      | .arr messages => messages
      | _ => []
  | _ => []

/-- The texts of the users, the assistant and the tools of a chat body. -/
def chatConversation (body : Json) : List Str := (chatMessages body).flatMap chatTexts

/-- The assistant and the tools say nothing that is not blank. -/
def OnlyUsersSpeak (body : Json) : Prop :=
  ∀ t ∈ (chatMessages body).flatMap unreadChatTexts, t.strip = []

section Items

theorem not_holdsInputText_str (s : Str) : ¬ HoldsInputText (.str s) := nofun

/-- A dictionary of strings that is no `input_text` part holds none. -/
theorem not_holdsInputText_flat {fields : Entries Str Json}
    (hflat : ∀ e ∈ fields, ∃ s, e.2 = .str s) (htype : isInputText (.obj fields) = false) :
    ¬ HoldsInputText (.obj fields) := by
  intro h
  cases h with
  | here hinput => simp [htype] at hinput
  | value he hvalue =>
      obtain ⟨s, hs⟩ := hflat _ he
      rw [hs] at hvalue
      exact not_holdsInputText_str s hvalue

theorem plainPart_flat {fields : Entries Str Json}
    (hflat : ∀ e ∈ fields, ∃ s, e.2 = .str s) : PlainPart (.obj fields) := by
  intro e he
  obtain ⟨s, hs⟩ := hflat e he
  rw [hs]
  exact not_holdsInputText_str s

theorem textItem_text (kind : String) (s : Str) :
    Json.field [(lit "type", .str (lit kind)), (lit "text", .str s)] "text" = .str s := by
  rw [Json.field_cons_of_ne (by decide), Json.field_cons_self]

/-- What the prompt makes of one part. -/
structure PartTexts (part : Json) (texts unread : Option Str) : Prop where
  plain : PlainPart part
  texts : partText part = texts
  unread : (if isInputText part then none else partText part) = unread

theorem partTexts_textItem {kind : String} (s : Str)
    (hkind : kind = "input_text" ∨ kind = "output_text") :
    PartTexts (textItem kind s) (some s) (if kind = "input_text" then none else some s) := by
  have htext : partText (textItem kind s) = some s := by
    rw [textItem, partText, textItem_text, Json.field_cons_self]
    rcases hkind with rfl | rfl <;> rfl
  refine ⟨plainPart_flat ?_, htext, ?_⟩
  · simp
  · rw [htext, textItem, isInputText, Json.field_cons_self]
    rcases hkind with rfl | rfl <;> rfl

/-- A part of a user message keeps its text, and the prompt reads it. -/
theorem partTexts_userPart {raw part : Json} (h : userPart raw = .ok part) :
    PartTexts part (chatPartText raw) none := by
  unfold userPart at h
  split at h
  · rename_i fields
    split at h
    · exact absurd h refuse_ne_ok
    rename_i kind hkind
    rw [Json.str?_eq_some_iff] at hkind
    split at h
    · rename_i htext
      subst htext
      split at h
      · unfold OpenaiChat.textPart at h
        split at h
        · rename_i s hs
          cases h
          have hraw : chatPartText (.obj fields) = some s := by
            rw [chatPartText, hkind, hs, if_pos (by decide)]
            rfl
          rw [hraw]
          exact partTexts_textItem s (.inl rfl)
        · exact absurd h refuse_ne_ok
      · exact absurd h refuse_ne_ok
    · rename_i htext
      have hraw : chatPartText (.obj fields) = none := by
        rw [chatPartText, hkind, if_neg]
        simpa [Json.isLit] using htext
      rw [hraw]
      split at h
      · split at h
        · cases h
          refine ⟨plainPart_flat (by simp), ?_, ?_⟩
          · rw [partText, Json.field_cons_self]
            rfl
          · rw [partText, isInputText, Json.field_cons_self]
            rfl
        · exact absurd h refuse_ne_ok
      · exact absurd h refuse_ne_ok
  · exact absurd h refuse_ne_ok

/-- What the prompt makes of a content. -/
structure ContentSays (parts : List Json) (texts unread : List Str) : Prop where
  plain : ∀ part ∈ parts, PlainPart part
  texts : contentTexts (.arr parts) = texts
  unread : unreadTexts (.arr parts) = unread

theorem ContentSays.nil : ContentSays [] [] [] := ⟨nofun, rfl, rfl⟩

theorem ContentSays.cons {part : Json} {parts : List Json} {text other : Option Str}
    {texts unread : List Str} (hpart : PartTexts part text other)
    (hparts : ContentSays parts texts unread) :
    ContentSays (part :: parts) (text.toList ++ texts) (other.toList ++ unread) := by
  refine ⟨List.forall_mem_cons.mpr ⟨hpart.plain, hparts.plain⟩, ?_, ?_⟩
  · rw [← hpart.texts, ← hparts.texts]
    simp only [contentTexts, List.filterMap_cons]
    cases partText part <;> rfl
  · rw [← hpart.unread, ← hparts.unread]
    simp only [unreadTexts, List.filter_cons]
    cases isInputText part with
    | true => rfl
    | false =>
        simp only [Bool.not_false, if_true, List.filterMap_cons]
        cases partText part <;> rfl

theorem contentSays_userParts {raws parts : List Json} (h : userParts raws = .ok parts) :
    ContentSays parts (raws.filterMap chatPartText) [] := by
  induction raws generalizing parts with
  | nil =>
      cases h
      exact .nil
  | cons raw rest ih =>
      obtain ⟨part, hpart, h⟩ := ok_of_bind h
      obtain ⟨others, hothers, h⟩ := ok_of_bind h
      cases h
      have hcons := ContentSays.cons (partTexts_userPart hpart) (ih hothers)
      rw [List.filterMap_cons]
      cases hraw : chatPartText raw <;> rw [hraw] at hcons <;> exact hcons

theorem contentSays_userContent {value : Json} {parts : List Json}
    (h : userContent value = .ok parts) : ContentSays parts (chatContentTexts value) [] := by
  unfold userContent at h
  split at h
  · cases h
    exact ContentSays.cons (partTexts_textItem _ (.inl rfl)) .nil
  · exact contentSays_userParts h
  · exact absurd h refuse_ne_ok

/-- The content of an assistant message is one `output_text` part or nothing. -/
theorem contentSays_assistant {value : Json} {parts : List Json}
    (h : messageContent (lit "assistant") value = .ok parts) :
    ContentSays parts (chatContentTexts value) (chatContentTexts value) := by
  unfold messageContent at h
  rw [if_neg (by decide)] at h
  split at h
  · rw [if_pos rfl] at h
    cases h
    exact ContentSays.cons (partTexts_textItem _ (.inr rfl)) .nil
  · rw [if_pos rfl] at h
    cases h
    exact .nil
  · exact absurd h refuse_ne_ok

/-- What the prompt makes of an item. -/
structure ItemSays (item : Json) (texts unread : List Str) : Prop where
  unique : UniqueKeys item
  plain : PlainItem item
  texts : contentTexts (spokenContent item) = texts
  unread : unreadTexts (spokenContent item) = unread

/-- A message item says what its content says. -/
theorem itemSays_message {role : String} {parts : List Json} {texts unread : List Str}
    (hrole : role = "user" ∨ role = "assistant") (h : ContentSays parts texts unread) :
    ItemSays (.obj [(lit "role", .str (lit role)), (lit "content", .arr parts)])
      texts unread := by
  let item : Entries Str Json := [(lit "role", .str (lit role)), (lit "content", .arr parts)]
  have hkey : spokenKey item = some "content" := by
    rw [spokenKey, Json.field_cons_self]
    rcases hrole with rfl | rfl <;> rfl
  have hcontent : Json.field item "content" = .arr parts := by
    rw [Json.field_cons_of_ne (by decide), Json.field_cons_self]
  have htype : Json.field item "type" = .null := by
    rw [Json.field_cons_of_ne (by decide), Json.field_cons_of_ne (by decide), Json.field_nil]
  have hspoken : spokenContent (.obj item) = .arr parts := by
    simp only [spokenContent, hkey, hcontent]
  refine ⟨?_, ?_, ?_, ?_⟩
  · intro fields hfields
    cases hfields
    show [lit "role", lit "content"].Nodup
    decide
  · show PlainItem (.obj item)
    rw [PlainItem, hkey]
    refine ⟨?_, ?_, ?_⟩
    · rw [isInputText, htype]
      rfl
    · intro e he hne
      rcases List.mem_cons.mp he with rfl | he
      · exact not_holdsInputText_str _
      · obtain rfl := List.mem_singleton.mp he
        exact absurd rfl hne
    · rw [hcontent]
      exact h.plain
  · rw [← h.texts]
    exact congrArg contentTexts hspoken
  · rw [← h.unread]
    exact congrArg unreadTexts hspoken

/-- A tool call says nothing. -/
theorem itemSays_functionCall (callId name arguments : Str) :
    ItemSays (.obj [(lit "type", .str (lit "function_call")), (lit "call_id", .str callId),
      (lit "name", .str name), (lit "arguments", .str arguments)]) [] [] := by
  let item : Entries Str Json := [(lit "type", .str (lit "function_call")),
    (lit "call_id", .str callId), (lit "name", .str name), (lit "arguments", .str arguments)]
  have htype : Json.field item "type" = .str (lit "function_call") := Json.field_cons_self ..
  have hrole : Json.field item "role" = .null := by
    rw [Json.field_cons_of_ne (by decide), Json.field_cons_of_ne (by decide),
      Json.field_cons_of_ne (by decide), Json.field_cons_of_ne (by decide), Json.field_nil]
  have hkey : spokenKey item = none := by
    rw [spokenKey, hrole, htype]
    rfl
  have hspoken : spokenContent (.obj item) = .null := by
    simp only [spokenContent, hkey]
  refine ⟨?_, ?_, ?_, ?_⟩
  · intro fields hfields
    cases hfields
    show [lit "type", lit "call_id", lit "name", lit "arguments"].Nodup
    decide
  · show PlainItem (.obj item)
    rw [PlainItem, hkey]
    apply not_holdsInputText_flat
    · simp [item]
    · rw [isInputText, htype]
      rfl
  · exact congrArg contentTexts hspoken
  · exact congrArg unreadTexts hspoken

theorem itemSays_toolItem {call item : Json} (h : toolItem call = .ok item) :
    ItemSays item [] [] := by
  unfold toolItem at h
  split at h
  · split at h
    · split at h
      · cases h
        exact itemSays_functionCall ..
      · exact absurd h refuse_ne_ok
    · exact absurd h refuse_ne_ok
  · exact absurd h refuse_ne_ok

/-- The output of a tool is one string, which the prompt does not read. -/
theorem itemSays_toolOutput (callId output : Str) :
    ItemSays (.obj [(lit "type", .str (lit "function_call_output")), (lit "call_id", .str callId),
      (lit "output", .str output)]) [output] [output] := by
  let item : Entries Str Json := [(lit "type", .str (lit "function_call_output")),
    (lit "call_id", .str callId), (lit "output", .str output)]
  have htype : Json.field item "type" = .str (lit "function_call_output") :=
    Json.field_cons_self ..
  have hrole : Json.field item "role" = .null := by
    rw [Json.field_cons_of_ne (by decide), Json.field_cons_of_ne (by decide),
      Json.field_cons_of_ne (by decide), Json.field_nil]
  have houtput : Json.field item "output" = .str output := by
    rw [Json.field_cons_of_ne (by decide), Json.field_cons_of_ne (by decide),
      Json.field_cons_self]
  have hkey : spokenKey item = some "output" := by
    rw [spokenKey, hrole, htype]
    rfl
  have hspoken : spokenContent (.obj item) = .str output := by
    simp only [spokenContent, hkey, houtput]
  refine ⟨?_, ?_, ?_, ?_⟩
  · intro fields hfields
    cases hfields
    show [lit "type", lit "call_id", lit "output"].Nodup
    decide
  · show PlainItem (.obj item)
    rw [PlainItem, hkey]
    refine ⟨?_, ?_, ?_⟩
    · rw [isInputText, htype]
      rfl
    · intro e he _
      obtain ⟨s, hs⟩ : ∃ s, e.2 = .str s := by
        revert e
        simp [item]
      rw [hs]
      exact not_holdsInputText_str s
    · rw [houtput]
      exact not_holdsInputText_str output
  · exact congrArg contentTexts hspoken
  · exact congrArg unreadTexts hspoken

/-- What the prompt makes of the items of one or more messages. -/
structure ItemsSay (items : List Json) (texts unread : List Str) : Prop where
  unique : ∀ item ∈ items, UniqueKeys item
  plain : ∀ item ∈ items, PlainItem item
  texts : conversationTexts (.arr items) = texts
  unread : unreadConversation (.arr items) = unread

theorem ItemsSay.nil : ItemsSay [] [] [] := ⟨nofun, nofun, rfl, rfl⟩

theorem ItemsSay.append {items others : List Json} {texts unread texts' unread' : List Str}
    (h : ItemsSay items texts unread) (h' : ItemsSay others texts' unread') :
    ItemsSay (items ++ others) (texts ++ texts') (unread ++ unread') := by
  refine ⟨?_, ?_, ?_, ?_⟩
  · exact List.forall_mem_append.mpr ⟨h.unique, h'.unique⟩
  · exact List.forall_mem_append.mpr ⟨h.plain, h'.plain⟩
  · rw [← h.texts, ← h'.texts]
    exact List.flatMap_append
  · rw [← h.unread, ← h'.unread]
    exact List.flatMap_append

theorem ItemSays.single {item : Json} {texts unread : List Str}
    (h : ItemSays item texts unread) : ItemsSay [item] texts unread := by
  refine ⟨by simpa using h.unique, by simpa using h.plain, ?_, ?_⟩
  · simpa [conversationTexts] using h.texts
  · simpa [unreadConversation] using h.unread

theorem itemsSay_toolItemsOf {calls items : List Json} (h : toolItemsOf calls = .ok items) :
    ItemsSay items [] [] := by
  induction calls generalizing items with
  | nil =>
      cases h
      exact .nil
  | cons call rest ih =>
      obtain ⟨item, hitem, h⟩ := ok_of_bind h
      obtain ⟨others, hothers, h⟩ := ok_of_bind h
      cases h
      exact (itemSays_toolItem hitem).single.append (ih hothers)

theorem itemsSay_toolItems {message : Entries Str Json} {items : List Json}
    (h : toolItems message = .ok items) : ItemsSay items [] [] := by
  unfold toolItems at h
  split at h
  · cases h
    exact .nil
  · exact itemsSay_toolItemsOf h
  · exact absurd h refuse_ne_ok

/-- A translated message says what the chat message said; what its user said is read. -/
theorem itemsSay_translateMessage {message : Json} {t : Translation}
    (h : translateMessage message = .ok t) :
    ItemsSay t.items (chatTexts message) (unreadChatTexts message) := by
  unfold translateMessage at h
  split at h
  · rename_i fields
    split at h
    · exact absurd h refuse_ne_ok
    rename_i role hrole
    rw [Json.str?_eq_some_iff] at hrole
    split at h
    · rename_i hsystem
      have hsilent : chatTexts (.obj fields) = [] := by
        rw [chatTexts, hrole]
        rcases hsystem with rfl | rfl <;> rfl
      have hunread : unreadChatTexts (.obj fields) = [] := by
        rw [unreadChatTexts, hsilent, ite_self]
      rw [hsilent, hunread]
      unfold systemMessage at h
      split at h
      · exact absurd h refuse_ne_ok
      · cases h
        exact .nil
    split at h
    · exact absurd h refuse_ne_ok
    rename_i hknown
    split at h
    · rename_i htool
      subst htool
      unfold toolMessage at h
      split at h
      · rename_i callId output _ houtput
        cases h
        rw [Json.str?_eq_some_iff] at houtput
        have htexts : chatTexts (.obj fields) = [output] := by
          rw [chatTexts, hrole, houtput]
          rfl
        have hunread : unreadChatTexts (.obj fields) = [output] := by
          rw [unreadChatTexts, htexts, hrole]
          rfl
        rw [htexts, hunread]
        exact (itemSays_toolOutput callId output).single
      · exact absurd h refuse_ne_ok
    · rename_i htool
      obtain ⟨parts, hparts, h⟩ := ok_of_bind h
      obtain ⟨calls, hcalls, h⟩ := ok_of_bind h
      cases h
      have hcases : role = lit "user" ∨ role = lit "assistant" := by
        by_contra hne
        rw [not_or] at hne
        exact hknown ⟨hne.1, hne.2, htool⟩
      have htexts : chatTexts (.obj fields) =
          chatContentTexts (Json.field fields "content") := by
        rw [chatTexts, hrole]
        rcases hcases with rfl | rfl <;> rfl
      rw [← List.append_nil (chatTexts _), ← List.append_nil (unreadChatTexts _)]
      rcases hcases with rfl | rfl
      · have hunread : unreadChatTexts (.obj fields) = [] := by
          rw [unreadChatTexts, hrole]
          rfl
        unfold messageContent at hparts
        rw [if_pos rfl] at hparts
        rw [htexts, hunread]
        exact (itemSays_message (.inl rfl) (contentSays_userContent hparts)).single.append
          (itemsSay_toolItems hcalls)
      · have hunread : unreadChatTexts (.obj fields) =
            chatContentTexts (Json.field fields "content") := by
          rw [unreadChatTexts, htexts, hrole]
          rfl
        rw [htexts, hunread]
        exact (itemSays_message (.inr rfl) (contentSays_assistant hparts)).single.append
          (itemsSay_toolItems hcalls)
  · exact absurd h refuse_ne_ok

theorem itemsSay_translateMessages {messages : List Json} {t : Translation}
    (h : translateMessages messages = .ok t) :
    ItemsSay t.items (messages.flatMap chatTexts) (messages.flatMap unreadChatTexts) := by
  induction messages generalizing t with
  | nil =>
      cases h
      exact .nil
  | cons message rest ih =>
      obtain ⟨first, hfirst, h⟩ := ok_of_bind h
      obtain ⟨others, hothers, h⟩ := ok_of_bind h
      cases h
      exact (itemsSay_translateMessage hfirst).append (ih hothers)

/-- The prompt of a translated body holds its conversation exactly when only the users
speak. -/
theorem says_chat_iff {P : Platform} {body : Json} {fields : Entries Str Json}
    (h : chatRequestToResponses P body = .ok fields) :
    Says (textFromResponsesPayload fields) (chatConversation body) ↔ OnlyUsersSpeak body := by
  obtain ⟨t, ⟨payload, messages, rfl, hmessages, ht⟩, hinput⟩ := translated_of_eq_ok h
  have hitems := itemsSay_translateMessages ht
  have hbody : chatMessages (.obj payload) = messages := by
    rw [chatMessages, hmessages]
  have htexts : chatConversation (.obj payload) =
      conversationTexts (Json.field fields "input") := by
    rw [chatConversation, hbody, hinput, hitems.texts]
  have hunread : OnlyUsersSpeak (.obj payload) ↔ Readable (Json.field fields "input") := by
    rw [OnlyUsersSpeak, hbody, hinput, Readable, hitems.unread]
  rw [htexts, hunread]
  constructor
  · intro hsays
    refine readable_of_says ?_ ?_ hsays
    · intro items hitemsEq item hitem
      rw [hinput] at hitemsEq
      cases hitemsEq
      exact hitems.unique item hitem
    · rw [hinput]
      exact hitems.plain
  · exact says_of_readable

end Items

/-- A turn with a text and nothing before it keeps its input. -/
theorem downstream_input {U : UnicodeData} {budget : Nat}
    {payload downstream : Entries Str Json} {normalized : NormalizedResponsesRequest}
    {prepared : DownstreamPayload}
    (hnormalized : OpenaiResponses.normalizeResponsesRequest U budget (.obj payload) none =
      .ok normalized)
    (hmedia : normalized.inputHadMedia = false)
    (hbuilt : GatewayTransaction.buildDownstreamPayload payload normalized prepared =
      some downstream) :
    Json.field downstream "input" = Json.field payload "input" := by
  obtain ⟨fields, input, selected, parts, -, hfrom⟩ :=
    OpenaiResponses.normalizedFrom_of_ok hnormalized
  have hwhole : GatewayTransaction.passesWhole normalized = true := by
    rw [GatewayTransaction.passesWhole, hmedia, hfrom.previousState]
    rfl
  unfold GatewayTransaction.buildDownstreamPayload at hbuilt
  rw [if_pos hwhole] at hbuilt
  cases hbuilt
  rw [Json.field, Entries.get?_set_of_ne _ _ (by decide),
    Entries.get?_erase_of_ne _ (by decide), Entries.get?_erase_of_ne _ (by decide)]
  rfl

/-- The prompt reads nothing but the input. -/
theorem prompt_eq_of_input {payload payload' : Entries Str Json}
    (h : Json.field payload "input" = Json.field payload' "input") :
    textFromResponsesPayload payload = textFromResponsesPayload payload' := by
  rw [textFromResponsesPayload, textFromResponsesPayload, h]

theorem uniqueKeys_input {payload : Entries Str Json} (h : (Json.obj payload).WellFormed) :
    ∀ items, Json.field payload "input" = .arr items → ∀ item ∈ items, UniqueKeys item := by
  intro items hinput item hitem fields hfields
  have hmem := Entries.mem_of_get? (Json.get?_of_field hinput (by simp))
  have hitems : Json.WellFormedItems items := Json.wellFormedFields_of_mem h.2 _ hmem
  have hwell := Json.wellFormedItems_of_mem hitems item hitem
  cases item with
  | obj fields' =>
      cases hfields
      exact hwell.1
  | null | bool _ | int _ | float _ | str _ | arr _ => cases hfields

/-- Of a text-only payload that follows nothing, a readable conversation is in the
prompt; and when the input holds nothing but its conversation, only a readable one is.
Of a chat body, the conversation is in the prompt exactly when only the users speak. -/
theorem conversation_in_prompt_iff (U : UnicodeData) (P : Platform) (budget : Nat) :
    (∀ payload normalized prepared downstream, (Json.obj payload).WellFormed →
      OpenaiResponses.normalizeResponsesRequest U budget (.obj payload) none =
        .ok normalized →
      normalized.inputHadMedia = false →
      GatewayTransaction.buildDownstreamPayload payload normalized prepared =
        some downstream →
      let input := Json.field payload "input"
      let prompt := textFromResponsesPayload downstream
      (Readable input → Says prompt (conversationTexts input)) ∧
        (ConversationOnly input →
          (Says prompt (conversationTexts input) ↔ Readable input))) ∧
    (∀ body fields, chatRequestToResponses P body = .ok fields →
      (Says (textFromResponsesPayload fields) (chatConversation body) ↔
        OnlyUsersSpeak body) ∧
      ∀ normalized prepared downstream,
        OpenaiResponses.normalizeResponsesRequest U budget (.obj fields) none =
          .ok normalized →
        normalized.inputHadMedia = false →
        GatewayTransaction.buildDownstreamPayload fields normalized prepared =
          some downstream →
        (Says (textFromResponsesPayload downstream) (chatConversation body) ↔
          OnlyUsersSpeak body)) := by
  refine ⟨?_, ?_⟩
  · intro payload normalized prepared downstream hwell hnormalized hmedia hbuilt
    have hprompt := prompt_eq_of_input (downstream_input hnormalized hmedia hbuilt)
    intro input prompt
    change (_ → Says (textFromResponsesPayload downstream) _) ∧
      (_ → (Says (textFromResponsesPayload downstream) _ ↔ _))
    rw [hprompt]
    refine ⟨says_of_readable, fun honly => ⟨?_, says_of_readable⟩⟩
    exact readable_of_says (uniqueKeys_input hwell) honly
  · intro body fields hbody
    refine ⟨says_chat_iff hbody, ?_⟩
    intro normalized prepared downstream hnormalized hmedia hbuilt
    rw [prompt_eq_of_input (downstream_input hnormalized hmedia hbuilt)]
    exact says_chat_iff hbody

section Sample

def sampleMessage (role text : String) : Json :=
  .obj [(lit "role", .str (lit role)), (lit "content", .str (lit text))]

/-- A chat of three messages, one of them by the assistant. -/
def sampleChat : Json :=
  .obj [(lit "model", .str (lit "text-model")),
    (lit "messages", .arr [sampleMessage "user" "My name is Ada.",
      sampleMessage "assistant" "Nice to meet you.", sampleMessage "user" "Who am I?"])]

def sampleUserItem (text : String) : Json :=
  .obj [(lit "role", .str (lit "user")), (lit "content", .arr [textItem "input_text" (lit text)])]

/-- A payload whose input is two messages of the user. -/
def samplePayload : Entries Str Json :=
  [(lit "model", .str (lit "text-model")),
    (lit "input", .arr [sampleUserItem "My name is Ada.", sampleUserItem "Who am I?"])]

/-- What the normalizer says of a chat body's media. -/
def chatHasMedia (P : Platform) (U : UnicodeData) (body : Json) : Option Bool :=
  (chatRequestToResponses P body).toOption.bind fun fields =>
    (OpenaiResponses.normalizeResponsesRequest U 900 (.obj fields) none).toOption.map
      fun normalized => normalized.inputHadMedia

/-- The body is accepted, it is text, and what the assistant said is not in the prompt. -/
theorem assistant_text_lost :
    ∃ fields normalized, chatRequestToResponses .sample sampleChat = .ok fields ∧
      OpenaiResponses.normalizeResponsesRequest (.ascii id) 900 (.obj fields) none =
        .ok normalized ∧
      normalized.inputHadMedia = false ∧
      ∀ prepared downstream,
        GatewayTransaction.buildDownstreamPayload fields normalized prepared =
          some downstream →
        ¬ Says (textFromResponsesPayload downstream) (chatConversation sampleChat) := by
  have hrun : chatHasMedia .sample (.ascii id) sampleChat = some false := by decide +kernel
  obtain ⟨fields, hfields, hrun⟩ := Option.bind_eq_some_iff.mp hrun
  obtain ⟨normalized, hnormalized, hmedia⟩ := Option.map_eq_some_iff.mp hrun
  have hfields := eq_ok_of_toOption hfields
  have hnormalized := eq_ok_of_toOption hnormalized
  refine ⟨fields, normalized, hfields, hnormalized, hmedia, ?_⟩
  intro prepared downstream hbuilt hsays
  rw [prompt_eq_of_input (downstream_input hnormalized hmedia hbuilt)] at hsays
  have honly := (says_chat_iff hfields).mp hsays
  have hlost : lit "Nice to meet you." ∈ (chatMessages sampleChat).flatMap unreadChatTexts := by
    have hmem : sampleMessage "assistant" "Nice to meet you." ∈ chatMessages sampleChat := by
      simp [chatMessages, sampleChat, Json.field_cons_of_ne (show lit "model" ≠ lit "messages"
        by decide)]
    refine List.mem_flatMap.mpr ⟨_, hmem, ?_⟩
    have hcontent : ∀ s, Json.field [(lit "role", .str (lit "assistant")),
        (lit "content", .str s)] "content" = .str s := by
      intro s
      rw [Json.field_cons_of_ne (by decide), Json.field_cons_self]
    rw [sampleMessage, unreadChatTexts, chatTexts, Json.field_cons_self, hcontent]
    exact List.mem_singleton.mpr rfl
  exact absurd (honly _ hlost) (by decide)

/-- The prompt holds both messages. -/
theorem conversation_in_prompt_messages :
    ∃ normalized, OpenaiResponses.normalizeResponsesRequest (.ascii id) 900
        (.obj samplePayload) none = .ok normalized ∧
      ∀ prepared downstream,
        GatewayTransaction.buildDownstreamPayload samplePayload normalized prepared =
          some downstream →
        Says (textFromResponsesPayload downstream)
          (conversationTexts (Json.field samplePayload "input")) := by
  have hrun : (OpenaiResponses.normalizeResponsesRequest (.ascii id) 900
      (.obj samplePayload) none).toOption.map (fun n => n.inputHadMedia) = some false := by
    decide +kernel
  obtain ⟨normalized, hnormalized, hmedia⟩ := Option.map_eq_some_iff.mp hrun
  have hnormalized := eq_ok_of_toOption hnormalized
  refine ⟨normalized, hnormalized, ?_⟩
  intro prepared downstream hbuilt
  have hwell : (Json.obj samplePayload).WellFormed := by
    simp only [samplePayload, sampleUserItem, textItem, Json.WellFormed, Json.WellFormedFields,
      Json.WellFormedItems, and_true, true_and]
    decide
  refine ((conversation_in_prompt_iff (.ascii id) .sample 900).1 samplePayload normalized
    prepared downstream hwell hnormalized hmedia hbuilt).1 ?_
  have hread : (unreadConversation (Json.field samplePayload "input")).all (fun t =>
      decide (t.strip = [])) = true := by decide +kernel
  exact fun t ht => of_decide_eq_true (List.all_eq_true.mp hread t ht)

end Sample

end MediaBridge.Gateway
