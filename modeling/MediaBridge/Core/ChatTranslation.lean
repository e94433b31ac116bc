import MediaBridge.Core.OpenaiChat
import MediaBridge.Foundation.Collect
import MediaBridge.Foundation.JsonCopy

/-!
# What a translated chat body keeps

The conversation, the options and the other fields of an accepted chat-completions body, as they
stand in the Responses payload that `chat_request_to_responses` makes of it.

## Implementation notes

A `Message` is what the chat-completions format says. The items of a conversation are read back by
`recover`, from the last item to the first, so that the calls of a message are known before it.
-/

namespace MediaBridge.Core

open Foundation

namespace OpenaiChat

section Conversation

/-- Whose content a message is. -/
inductive Speaker
  | user
  | assistant
deriving DecidableEq

/-- A part of the content of a message. -/
inductive Part
  | text (text : Str)
  | image (locator : Str)
deriving DecidableEq

/-- A call of a tool. -/
structure Call where
  id : Str
  name : Str
  arguments : Str
deriving DecidableEq

/-- A message of a conversation; developers speak as the system does. -/
inductive Message
  | system (text : Str)
  | spoken (speaker : Speaker) (parts : List Part) (calls : List Call)
  | tool (callId output : Str)
deriving DecidableEq

/-- The part that an entry of a message's content states. -/
def partOf : Json → Option Part
  | .obj raw =>
      if (Json.field raw "type").isLit "text" then Part.text <$> (Json.field raw "text").str?
      else if (Json.field raw "type").isLit "image_url" then Part.image <$> imageLocator raw
      else none
  | _ => none

/-- The parts that the content of a message states. -/
def partsOf : Json → Option (List Part)
  | .str s => some [.text s]
  | .null => some []
  | .arr parts => parts.mapM partOf
  | _ => none

/-- The call that an entry of `tool_calls` states. -/
def callOf : Json → Option Call
  | .obj call => do
      let function ← (Json.field call "function").obj?
      let id ← (Json.field call "id").str?
      let name ← (Json.field function "name").str?
      let arguments ← (Json.field function "arguments").str?
      return ⟨id, name, arguments⟩
  | _ => none

/-- The calls that a message states. -/
def callsOf : Json → Option (List Call)
  | .null => some []
  | .arr calls => calls.mapM callOf
  | _ => none

/-- The role of a speaker. -/
def Speaker.role : Speaker → String
  | .user => "user"
  | .assistant => "assistant"

/-- The speaker with a role. -/
def speakerOf (role : Str) : Option Speaker :=
  if role = lit "user" then some .user
  else if role = lit "assistant" then some .assistant
  else none

/-- The message that an entry of `messages` states. -/
def messageOf : Json → Option Message
  | .obj message => do
      let role ← (Json.field message "role").str?
      if role = lit "system" ∨ role = lit "developer" then
        let text ← (Json.field message "content").str?
        return .system text
      else if role = lit "tool" then
        let callId ← (Json.field message "tool_call_id").str?
        let output ← (Json.field message "content").str?
        return .tool callId output
      else
        let speaker ← speakerOf role
        let parts ← partsOf (Json.field message "content")
        let calls ← callsOf (Json.field message "tool_calls")
        return .spoken speaker parts calls
  | _ => none

/-- The item of a part. -/
def Part.item (speaker : Speaker) : Part → Json
  | .text s => textItem (match speaker with | .user => "input_text" | .assistant => "output_text") s
  | .image locator =>
      .obj [(lit "type", .str (lit "input_image")), (lit "image_url", .str locator)]

/-- The item of a call. -/
def Call.item (call : Call) : Json :=
  .obj [(lit "type", .str (lit "function_call")), (lit "call_id", .str call.id),
    (lit "name", .str call.name), (lit "arguments", .str call.arguments)]

/-- The items of a message. -/
def Message.items : Message → List Json
  | .system _ => []
  | .spoken speaker parts calls =>
      .obj [(lit "role", .str (lit speaker.role)),
        (lit "content", .arr (parts.map (Part.item speaker)))] :: calls.map Call.item
  | .tool callId output =>
      [.obj [(lit "type", .str (lit "function_call_output")), (lit "call_id", .str callId),
        (lit "output", .str output)]]

/-- The message is one of the conversation, not of the instructions. -/
def Message.hasItems : Message → Bool
  | .system _ => false
  | .spoken .. => true
  | .tool .. => true

/-- The instructions that a message gives: a system text that is not blank. -/
def Message.instruction : Message → Option Str
  | .system text => if text.strip.isEmpty then none else some text
  | .spoken .. => none
  | .tool .. => none

/-- The instructions that a conversation states. -/
def statedInstructions (conversation : List Message) : Option Str :=
  match conversation.filterMap Message.instruction with
  | [] => none
  | texts => some (Str.join (lit "\n\n") texts)

end Conversation

section Recovery

/-- What an item of the input starts or adds. -/
inductive Entry
  | opening (speaker : Speaker) (parts : List Part)
  | call (call : Call)
  | output (callId output : Str)
deriving DecidableEq

/-- The part of an item of a message's content. -/
def partOfItem : Json → Option Part
  | .obj item =>
      match Json.field item "text", Json.field item "image_url" with
      | .str s, _ => some (.text s)
      | _, .str locator => some (.image locator)
      | _, _ => none
  | _ => none

/-- What an item of the input is. -/
def entryOf : Json → Option Entry
  | .obj item =>
      match Json.field item "role", Json.field item "content" with
      | .str role, .arr content => do
          let speaker ← speakerOf role
          let parts ← content.mapM partOfItem
          return .opening speaker parts
      | _, _ => do
          let callId ← (Json.field item "call_id").str?
          match Json.field item "name", Json.field item "arguments", Json.field item "output" with
          | .str name, .str arguments, _ => return .call ⟨callId, name, arguments⟩
          | _, _, .str output => return .output callId output
          | _, _, _ => none
  | _ => none

/-- The messages of some last items of an input, and the calls before the first of them. -/
def recoverFrom : List Json → Option (List Call × List Message)
  | [] => some ([], [])
  | item :: rest => do
      let (calls, messages) ← recoverFrom rest
      match ← entryOf item with
      | .opening speaker parts => return ([], .spoken speaker parts calls :: messages)
      | .call call => return (call :: calls, messages)
      | .output callId output =>
          if calls.isEmpty then return ([], .tool callId output :: messages) else none

/-- The messages that the items of an input come from. -/
def recover (items : List Json) : Option (List Message) := do
  let (calls, messages) ← recoverFrom items
  if calls.isEmpty then return messages else none

variable {items rest : List Json} {messages : List Message}

theorem partOfItem_item (speaker : Speaker) (part : Part) :
    partOfItem (part.item speaker) = some part := by
  cases part <;> rfl

theorem entryOf_spoken (speaker : Speaker) (parts : List Part) :
    entryOf (.obj [(lit "role", .str (lit speaker.role)),
      (lit "content", .arr (parts.map (Part.item speaker)))]) = some (.opening speaker parts) := by
  have hparts : (parts.map (Part.item speaker)).mapM partOfItem = some parts := by
    rw [mapM_eq_some_iff, List.map_map]
    exact List.map_congr_left fun part _ => partOfItem_item speaker part
  have hspeaker : speakerOf (lit speaker.role) = some speaker := by cases speaker <;> rfl
  change (speakerOf (lit speaker.role)).bind (fun speaker' =>
    ((parts.map (Part.item speaker)).mapM partOfItem).bind fun parts' =>
      some (Entry.opening speaker' parts')) = _
  rw [hspeaker, hparts]
  rfl

theorem recoverFrom_calls (calls : List Call) (h : recoverFrom rest = some ([], messages)) :
    recoverFrom (calls.map Call.item ++ rest) = some (calls, messages) := by
  induction calls with
  | nil => exact h
  | cons call calls ih =>
      rw [List.map_cons, List.cons_append, recoverFrom, ih]
      rfl

/-- The items of a message stand for it, whatever follows them. -/
theorem recoverFrom_items (message : Message) (h : recoverFrom rest = some ([], messages)) :
    recoverFrom (message.items ++ rest) =
      some ([], [message].filter Message.hasItems ++ messages) := by
  cases message with
  | system text => exact h
  | spoken speaker parts calls =>
      rw [Message.items, List.cons_append, recoverFrom, recoverFrom_calls calls h]
      change (entryOf _).bind _ = _
      rw [entryOf_spoken]
      rfl
  | tool callId output =>
      rw [Message.items, List.cons_append, List.nil_append, recoverFrom, h]
      rfl

/-- The conversation is recovered from its items. -/
theorem recover_items (conversation : List Message) :
    recover (conversation.flatMap Message.items) = some (conversation.filter Message.hasItems) := by
  have hfrom : recoverFrom (conversation.flatMap Message.items) =
      some ([], conversation.filter Message.hasItems) := by
    induction conversation with
    | nil => rfl
    | cons message rest ih =>
        rw [List.flatMap_cons, recoverFrom_items message ih, ← List.filter_append]
        rfl
  rw [recover, hfrom]
  rfl

end Recovery

section Translation

variable {raw value call : Json} {items : List Json}

theorem userPart_eq_ok {item : Json} (h : userPart raw = .ok item) :
    ∃ part, partOf raw = some part ∧ item = part.item .user := by
  unfold userPart at h
  split at h
  · rename_i raw
    split at h
    · exact absurd h refuse_ne_ok
    · rename_i kind hkind
      have htype : Json.field raw "type" = .str kind := (Json.str?_eq_some_iff _ _).mp hkind
      split at h
      · rename_i htext
        split at h
        · unfold textPart at h
          split at h
          · rename_i s hs
            cases h
            refine ⟨.text s, ?_, rfl⟩
            rw [partOf, htype, htext, hs]
            rfl
          · exact absurd h refuse_ne_ok
        · exact absurd h refuse_ne_ok
      · split at h
        · rename_i htext himage
          split at h
          · rename_i c rest hlocator
            cases h
            refine ⟨.image (c :: rest), ?_, rfl⟩
            rw [partOf, htype, himage, hlocator]
            rfl
          · exact absurd h refuse_ne_ok
        · exact absurd h refuse_ne_ok
  · exact absurd h refuse_ne_ok

theorem userParts_eq_ok {raws : List Json} (h : userParts raws = .ok items) :
    ∃ parts, raws.mapM partOf = some parts ∧ items = parts.map (Part.item .user) := by
  induction raws generalizing items with
  | nil =>
      cases h
      exact ⟨[], rfl, rfl⟩
  | cons raw rest ih =>
      obtain ⟨item, hitem, h⟩ := ok_of_bind h
      obtain ⟨others, hothers, h⟩ := ok_of_bind h
      cases h
      obtain ⟨part, hpart, rfl⟩ := userPart_eq_ok hitem
      obtain ⟨parts, hparts, rfl⟩ := ih hothers
      refine ⟨part :: parts, ?_, rfl⟩
      rw [List.mapM_cons, hpart, hparts]
      rfl

theorem messageContent_eq_ok {speaker : Speaker}
    (h : messageContent (lit speaker.role) value = .ok items) :
    ∃ parts, partsOf value = some parts ∧ items = parts.map (Part.item speaker) := by
  cases speaker with
  | user =>
      unfold messageContent at h
      rw [if_pos (by rfl)] at h
      unfold userContent at h
      split at h
      · rename_i s
        cases h
        exact ⟨[.text s], rfl, rfl⟩
      · obtain ⟨parts, hparts, hitems⟩ := userParts_eq_ok h
        exact ⟨parts, hparts, hitems⟩
      · exact absurd h refuse_ne_ok
  | assistant =>
      unfold messageContent at h
      rw [if_neg (by decide)] at h
      split at h
      · rename_i s
        cases h
        exact ⟨[.text s], rfl, rfl⟩
      · rw [if_pos (by rfl)] at h
        cases h
        exact ⟨[], rfl, rfl⟩
      · exact absurd h refuse_ne_ok

theorem toolItem_eq_ok {item : Json} (h : toolItem call = .ok item) :
    ∃ stated, callOf call = some stated ∧ item = stated.item := by
  unfold toolItem at h
  split at h
  · rename_i call
    split at h
    · rename_i function id _ hfunction hid
      split at h
      · rename_i name arguments hname harguments
        cases h
        refine ⟨⟨id, name, arguments⟩, ?_, rfl⟩
        rw [callOf, hfunction, hid]
        change ((Json.field function "name").str?).bind (fun name' =>
          ((Json.field function "arguments").str?).bind fun arguments' =>
            some (⟨id, name', arguments'⟩ : Call)) = _
        rw [hname, harguments]
        rfl
      · exact absurd h refuse_ne_ok
    · exact absurd h refuse_ne_ok
  · exact absurd h refuse_ne_ok

theorem toolItemsOf_eq_ok {calls : List Json} (h : toolItemsOf calls = .ok items) :
    ∃ stated, calls.mapM callOf = some stated ∧ items = stated.map Call.item := by
  induction calls generalizing items with
  | nil =>
      cases h
      exact ⟨[], rfl, rfl⟩
  | cons call rest ih =>
      obtain ⟨item, hitem, h⟩ := ok_of_bind h
      obtain ⟨others, hothers, h⟩ := ok_of_bind h
      cases h
      obtain ⟨first, hfirst, rfl⟩ := toolItem_eq_ok hitem
      obtain ⟨stated, hstated, rfl⟩ := ih hothers
      refine ⟨first :: stated, ?_, rfl⟩
      rw [List.mapM_cons, hfirst, hstated]
      rfl

theorem toolItems_eq_ok {message : Entries Str Json} (h : toolItems message = .ok items) :
    ∃ stated, callsOf (Json.field message "tool_calls") = some stated ∧
      items = stated.map Call.item := by
  unfold toolItems at h
  split at h
  · rename_i hcalls
    cases h
    exact ⟨[], by rw [hcalls]; rfl, rfl⟩
  · rename_i calls hcalls
    obtain ⟨stated, hstated, hitems⟩ := toolItemsOf_eq_ok h
    exact ⟨stated, by rw [hcalls]; exact hstated, hitems⟩
  · exact absurd h refuse_ne_ok

variable {t : Translation}

theorem systemMessage_eq_ok {message : Entries Str Json} (h : systemMessage message = .ok t) :
    ∃ text, (Json.field message "content").str? = some text ∧
      t = ⟨(Message.system text).instruction.toList, []⟩ := by
  unfold systemMessage at h
  split at h
  · exact absurd h refuse_ne_ok
  · rename_i text htext
    cases h
    refine ⟨text, htext, ?_⟩
    rw [Message.instruction]
    split <;> rfl

theorem toolMessage_eq_ok {message : Entries Str Json} (h : toolMessage message = .ok t) :
    ∃ callId output, (Json.field message "tool_call_id").str? = some callId ∧
      (Json.field message "content").str? = some output ∧
      t = ⟨[], (Message.tool callId output).items⟩ := by
  unfold toolMessage at h
  split at h
  · rename_i callId output hcall houtput
    cases h
    exact ⟨callId, output, hcall, houtput, rfl⟩
  · exact absurd h refuse_ne_ok

theorem spokenMessage_eq_ok {speaker : Speaker} {message : Entries Str Json}
    (h : spokenMessage (lit speaker.role) message = .ok t) :
    ∃ parts calls, partsOf (Json.field message "content") = some parts ∧
      callsOf (Json.field message "tool_calls") = some calls ∧
      t = ⟨[], (Message.spoken speaker parts calls).items⟩ := by
  obtain ⟨content, hcontent, h⟩ := ok_of_bind h
  obtain ⟨items, hitems, h⟩ := ok_of_bind h
  cases h
  obtain ⟨parts, hparts, rfl⟩ := messageContent_eq_ok hcontent
  obtain ⟨calls, hcalls, rfl⟩ := toolItems_eq_ok hitems
  exact ⟨parts, calls, hparts, hcalls, rfl⟩

/-- A role outside the instructions and the tools is a speaker's. -/
theorem exists_speaker {role : Str}
    (h : ¬ (role ≠ lit "user" ∧ role ≠ lit "assistant" ∧ role ≠ lit "tool"))
    (htool : role ≠ lit "tool") : ∃ speaker : Speaker, role = lit speaker.role := by
  by_cases huser : role = lit "user"
  · exact ⟨.user, huser⟩
  · by_cases hassistant : role = lit "assistant"
    · exact ⟨.assistant, hassistant⟩
    · exact absurd ⟨huser, hassistant, htool⟩ h

theorem translateMessage_eq_ok (h : translateMessage raw = .ok t) :
    ∃ message, messageOf raw = some message ∧ t = ⟨message.instruction.toList, message.items⟩ := by
  unfold translateMessage at h
  split at h
  · rename_i fields
    split at h
    · exact absurd h refuse_ne_ok
    · rename_i role hrole
      split at h
      · rename_i hsystem
        obtain ⟨text, htext, rfl⟩ := systemMessage_eq_ok h
        refine ⟨.system text, ?_, rfl⟩
        rw [messageOf, hrole]
        change (if _ then _ else _) = _
        rw [if_pos hsystem, htext]
        rfl
      · rename_i hsystem
        split at h
        · exact absurd h refuse_ne_ok
        · rename_i hknown
          split at h
          · rename_i htool
            obtain ⟨callId, output, hcall, houtput, rfl⟩ := toolMessage_eq_ok h
            refine ⟨.tool callId output, ?_, rfl⟩
            rw [messageOf, hrole]
            change (if _ then _ else _) = _
            rw [if_neg hsystem, if_pos htool, hcall, houtput]
            rfl
          · rename_i htool
            obtain ⟨speaker, rfl⟩ := exists_speaker hknown htool
            obtain ⟨parts, calls, hparts, hcalls, rfl⟩ := spokenMessage_eq_ok h
            refine ⟨.spoken speaker parts calls, ?_, rfl⟩
            have hspeaker : speakerOf (lit speaker.role) = some speaker := by
              cases speaker <;> rfl
            rw [messageOf, hrole]
            change (if _ then _ else _) = _
            rw [if_neg hsystem, if_neg htool, hspeaker, hparts, hcalls]
            rfl
  · exact absurd h refuse_ne_ok

/-- The loop adds the items and the instructions of each message, in order. -/
theorem translateMessages_eq_ok {raws : List Json} (h : translateMessages raws = .ok t) :
    ∃ conversation, raws.mapM messageOf = some conversation ∧
      t = ⟨conversation.filterMap Message.instruction, conversation.flatMap Message.items⟩ := by
  induction raws generalizing t with
  | nil =>
      cases h
      exact ⟨[], rfl, rfl⟩
  | cons raw rest ih =>
      obtain ⟨first, hfirst, h⟩ := ok_of_bind h
      obtain ⟨others, hothers, h⟩ := ok_of_bind h
      cases h
      obtain ⟨message, hmessage, rfl⟩ := translateMessage_eq_ok hfirst
      obtain ⟨conversation, hconversation, rfl⟩ := ih hothers
      refine ⟨message :: conversation, ?_, ?_⟩
      · rw [List.mapM_cons, hmessage, hconversation]
        rfl
      · rw [List.filterMap_cons, List.flatMap_cons]
        cases message.instruction <;> rfl

end Translation

section Fields

variable {P : Platform} {payload result fields : Entries Str Json} {model : Str} {t : Translation}

/-- The key is one of those that are not translated. -/
def dropped (key : Str) : Bool := droppedKeys.any fun k => decide (key = lit k)

theorem translatedPayload_get? (payload : Entries Str Json) (model : Str) (t : Translation)
    (key : Str) : Entries.get? (translatedPayload payload model t) key =
      if key = lit "instructions" ∧ t.instructions ≠ [] then
        some (.str (Str.join (lit "\n\n") t.instructions))
      else if key = lit "input" then some (.arr t.items)
      else if key = lit "model" then some (.str model)
      else if dropped key then none else Entries.get? payload key := by
  have hkept : Entries.get? (payload.filter fun e =>
      !droppedKeys.any fun k => decide (e.1 = lit k)) key =
      if dropped key then none else Entries.get? payload key := by
    change Entries.get? (payload.filter fun e => !dropped e.1) key = _
    rw [Entries.get?_filter payload (fun k => !dropped k)]
    cases dropped key <;> rfl
  unfold translatedPayload
  split
  · rename_i hempty
    have hnot : ¬ (key = lit "instructions" ∧ t.instructions ≠ []) :=
      fun hboth => hboth.2 (List.isEmpty_iff.mp hempty)
    rw [if_neg hnot, Entries.get?_set, Entries.get?_set, hkept]
  · rename_i hempty
    have hne : t.instructions ≠ [] := fun heq => hempty (List.isEmpty_iff.mpr heq)
    rw [Entries.get?_set, Entries.get?_set, Entries.get?_set, hkept]
    simp only [hne, ne_eq, not_false_eq_true, and_true]

/-- The cap is the one that a body states, in each of the spellings that it uses. -/
structure StatesCap (payload : Entries Str Json) (cap : Option Int) : Prop where
  agrees : ∀ v ∈ caps payload, cap.map Json.int = some v
  given : ∀ n, cap = some n → Json.int n ∈ caps payload

/-- A payload with the cap of a body. -/
def withLimit (result : Entries Str Json) : Option Int → Entries Str Json
  | none => result
  | some n => Entries.set result (lit "max_output_tokens") (.int n)

theorem withLimit_get? (result : Entries Str Json) (cap : Option Int) (key : Str) :
    Entries.get? (withLimit result cap) key = if key = lit "max_output_tokens" then
      (cap.map Json.int).or (Entries.get? result key) else Entries.get? result key := by
  cases cap with
  | none => simp only [withLimit, Option.map_none, Option.none_or, ite_self]
  | some n => exact Entries.get?_set result _ key _

theorem tokenLimit_eq_some {v : Json} {n : Int} (h : tokenLimit v = some n) :
    v = .int n ∧ 0 < n := by
  unfold tokenLimit at h
  split at h
  · split at h
    · rename_i hpos
      cases h
      exact ⟨rfl, hpos⟩
    · cases h
  · cases h

/-- The caps of an accepted body are one positive integer, if there are any. -/
theorem withCaps_eq_ok (h : withCaps payload result = .ok fields) :
    ∃ cap, StatesCap payload cap ∧ (∀ n, cap = some n → 0 < n) ∧ fields = withLimit result cap := by
  unfold withCaps at h
  split at h
  · rename_i hnone
    cases h
    refine ⟨none, ⟨fun v hv => ?_, nofun⟩, nofun, rfl⟩
    rw [hnone] at hv
    cases hv
  · rename_i cap rest hcaps
    split at h
    · rename_i n hcap
      split at h
      · rename_i hrest
        cases h
        obtain ⟨rfl, hpos⟩ := tokenLimit_eq_some hcap
        refine ⟨some n, ⟨fun v hv => ?_, ?_⟩, ?_, rfl⟩
        · rw [hcaps] at hv
          cases List.mem_cons.mp hv with
          | inl heq => rw [heq]; rfl
          | inr hmem =>
              have hsame := eq_of_beq (List.all_eq_true.mp hrest v hmem)
              rw [(tokenLimit_eq_some hsame).1]
              rfl
        · intro m hm
          cases hm
          rw [hcaps]
          exact List.mem_cons_self
        · intro m hm
          cases hm
          exact hpos
      · exact absurd h refuse_ne_ok
    · exact absurd h refuse_ne_ok

/-- The format that a body states, as the Responses format has it. -/
def statedFormat (payload : Entries Str Json) : Option Json :=
  match Entries.get? payload (lit "response_format") with
  | some (.obj value) =>
      match (Json.field value "type").isLit "json_schema", Json.field value "json_schema" with
      | true, .obj schema => some (.obj ((lit "type", .str (lit "json_schema")) :: schema))
      | _, _ => some (.obj value)
  | _ => none

theorem chatFormat_eq_ok {value : Entries Str Json} {format : Json}
    (hformat : Entries.get? payload (lit "response_format") = some (.obj value))
    (h : chatFormat value = .ok format) : statedFormat payload = some format := by
  rw [statedFormat, hformat]
  unfold chatFormat at h
  split at h
  · rename_i htype
    split at h
    · rename_i schema _ hschema
      split at h
      · exact absurd h refuse_ne_ok
      · cases h
        simp only [htype, hschema]
    · exact absurd h refuse_ne_ok
  · rename_i htype
    cases h
    simp only [Bool.eq_false_iff.mpr htype]

/-- The format of a body is a dictionary as the body is. -/
theorem wellFormed_chatFormat {value : Entries Str Json} {format : Json}
    (hwell : Json.WellFormed (.obj value)) (h : chatFormat value = .ok format) :
    format.WellFormed := by
  unfold chatFormat at h
  split at h
  · split at h
    · rename_i schema _ hschema
      split at h
      · exact absurd h refuse_ne_ok
      · rename_i hfree
        cases h
        rw [Json.WellFormed] at hwell
        have hget := Json.get?_of_field hschema (by rintro ⟨⟩)
        have hin := Json.wellFormedFields_of_mem hwell.2 _ (Entries.mem_of_get? hget)
        rw [Json.WellFormed] at hin ⊢
        refine ⟨List.nodup_cons.mpr ⟨fun hmem => hfree ?_, hin.1⟩, ?_⟩
        · exact Entries.has_iff.mpr hmem
        · exact ⟨trivial, hin.2⟩
    · exact absurd h refuse_ne_ok
  · cases h
    exact hwell

/-- The payload holds the format of a body, when the body states one. -/
inductive FormatAdded (P : Platform) (payload result : Entries Str Json) :
    Entries Str Json → Prop
  | absent : Entries.get? payload (lit "response_format") = none →
      FormatAdded P payload result result
  | added {value : Entries Str Json} {format copy : Json} :
      Entries.get? payload (lit "response_format") = some (.obj value) →
      chatFormat value = .ok format → jsonFormat P format = .ok copy →
      Entries.get? result (lit "text") = none →
      FormatAdded P payload result
        (Entries.set result (lit "text") (.obj [(lit "format", copy)]))

theorem withFormat_eq_ok (h : withFormat P payload result = .ok fields) :
    FormatAdded P payload result fields := by
  unfold withFormat at h
  split at h
  · rename_i hnone
    cases h
    exact .absent hnone
  · rename_i value hvalue
    obtain ⟨format, hformat, h⟩ := ok_of_bind h
    obtain ⟨copy, hcopy, h⟩ := ok_of_bind h
    split at h
    · exact absurd h refuse_ne_ok
    · rename_i hfree
      cases h
      refine .added hvalue hformat hcopy ?_
      simpa [Entries.has] using hfree
  · exact absurd h refuse_ne_ok

end Fields

section Preservation

variable {P : Platform} {body : Json} {payload fields result : Entries Str Json} {model : Str}
  {conversation : List Message} {cap : Option Int} {key : Str}

/-- The fields of a body that are translated, or written over. -/
def translatedKeys : List Str :=
  [lit "messages", lit "max_tokens", lit "max_completion_tokens", lit "response_format",
    lit "input", lit "instructions"]

/-- The fields that a translation may add. -/
def addedKeys : List Str :=
  [lit "input", lit "instructions", lit "max_output_tokens", lit "text"]

/-- A payload with the conversation of a body, its instructions and its other fields. -/
structure Preserves (payload fields : Entries Str Json) (conversation : List Message) : Prop where
  stated : ∃ messages, Json.field payload "messages" = .arr messages ∧
    messages.mapM messageOf = some conversation
  input : Entries.get? fields (lit "input") = some (.arr (conversation.flatMap Message.items))
  recovered : recover (conversation.flatMap Message.items) =
    some (conversation.filter Message.hasItems)
  instructions : Entries.get? fields (lit "instructions") =
    ((statedInstructions conversation).map Json.str).or
      (Entries.get? payload (lit "instructions"))
  kept : ∀ key v, key ∉ translatedKeys → Entries.get? payload key = some v →
    Entries.get? fields key = some v
  gone : ∀ key ∈ droppedKeys, Entries.get? fields (lit key) = none
  fresh : ∀ key, key ∉ addedKeys → Entries.get? payload key = none →
    Entries.get? fields key = none

/-- The options of a payload are those that a body states. -/
def ReadsBack (P : Platform) (payload fields : Entries Str Json) (conversation : List Message) :
    Prop :=
  ∃ options, responsesGenerationOptions P fields = .ok options ∧
    StatesCap payload options.maxOutputTokens ∧
    options.outputFormat = statedFormat payload ∧
    options.instructions = statedInstructions conversation

/-- The fields of a body with nothing but a conversation and its options. -/
def plainKeys : List String :=
  ["model", "messages", "stream", "reasoning_effort", "max_tokens", "max_completion_tokens",
    "max_output_tokens", "response_format"]

/-- A body is refused, or its translation preserves it; the formats that are `Copied` can be
read back. -/
def Translates (P : Platform) (Copied : Json → Prop) (body : Json) : Prop :=
  (∃ error, chatRequestToResponses P body = .error error) ∨
    ∃ payload fields conversation, body = .obj payload ∧
      chatRequestToResponses P body = .ok fields ∧ Preserves payload fields conversation ∧
      (Json.keysWithin payload plainKeys = true →
        (∀ format, statedFormat payload = some format → Copied format) →
        ReadsBack P payload fields conversation)

/-- How an accepted body becomes a payload. -/
structure Assembled (P : Platform) (payload fields : Entries Str Json) (model : Str)
    (conversation : List Message) (cap : Option Int) : Prop where
  named : Json.field payload "model" = .str model
  stated : ∃ messages, Json.field payload "messages" = .arr messages ∧
    messages.mapM messageOf = some conversation
  capped : StatesCap payload cap
  positive : ∀ n, cap = some n → 0 < n
  format : FormatAdded P payload (withLimit (translatedPayload payload model
    ⟨conversation.filterMap Message.instruction, conversation.flatMap Message.items⟩) cap) fields

theorem assembled_of_eq_ok (h : chatRequestToResponses P body = .ok fields) :
    ∃ payload model conversation cap, body = .obj payload ∧
      Assembled P payload fields model conversation cap := by
  unfold chatRequestToResponses at h
  split at h
  · rename_i payload
    split at h
    · rename_i c model message rest hmodel hmessages
      obtain ⟨t, ht, h⟩ := ok_of_bind h
      obtain ⟨result, hresult, h⟩ := ok_of_bind h
      obtain ⟨conversation, hconversation, rfl⟩ := translateMessages_eq_ok ht
      obtain ⟨cap, hcap, hpositive, rfl⟩ := withCaps_eq_ok hresult
      exact ⟨payload, c :: model, conversation, cap, rfl,
        (Json.str?_eq_some_iff _ _).mp hmodel, ⟨message :: rest, hmessages, hconversation⟩,
        hcap, hpositive, withFormat_eq_ok h⟩
    · exact absurd h refuse_ne_ok
  · exact absurd h refuse_ne_ok

theorem FormatAdded.get?_eq (h : FormatAdded P payload result fields) (hkey : key ≠ lit "text") :
    Entries.get? fields key = Entries.get? result key := by
  cases h with
  | absent => rfl
  | added => exact Entries.get?_set_of_ne _ _ hkey

/-- A field that was there stays, if the format does not conflict with it. -/
theorem FormatAdded.get?_eq_some (h : FormatAdded P payload result fields) {v : Json}
    (hv : Entries.get? result key = some v) : Entries.get? fields key = some v := by
  cases h with
  | absent => exact hv
  | added _ _ _ hfree =>
      rw [Entries.get?_set, if_neg, hv]
      rintro rfl
      rw [hv] at hfree
      cases hfree

theorem mem_caps {k : String} {v : Json}
    (hk : k ∈ ["max_tokens", "max_completion_tokens", "max_output_tokens"])
    (hv : Entries.get? payload (lit k) = some v) : v ∈ caps payload :=
  List.mem_filterMap.mpr ⟨k, hk, hv⟩

theorem mem_translatedKeys (hkey : dropped key = true) : key ∈ translatedKeys := by
  obtain ⟨k, hk, hkeys⟩ := List.any_eq_true.mp hkey
  have hall : droppedKeys.all (fun k => translatedKeys.contains (lit k)) = true := by decide
  rw [of_decide_eq_true hkeys]
  exact List.contains_iff_mem.mp (List.all_eq_true.mp hall k hk)

namespace Assembled

variable (h : Assembled P payload fields model conversation cap)

include h

theorem get?_model : Entries.get? payload (lit "model") = some (.str model) :=
  Json.get?_of_field h.named nofun

/-- Every field of the payload before its format. -/
theorem limited_get? (key : Str) :
    Entries.get? (withLimit (translatedPayload payload model
      ⟨conversation.filterMap Message.instruction, conversation.flatMap Message.items⟩) cap) key =
    if key = lit "max_output_tokens" then
      (cap.map Json.int).or (Entries.get? payload key)
    else if key = lit "instructions" then
      ((statedInstructions conversation).map Json.str).or (Entries.get? payload key)
    else if key = lit "input" then some (.arr (conversation.flatMap Message.items))
    else if dropped key then none else Entries.get? payload key := by
  rw [withLimit_get?, translatedPayload_get?]
  by_cases hcap : key = lit "max_output_tokens"
  · subst hcap
    rw [if_pos rfl, if_pos rfl, if_neg fun hboth => absurd hboth.1 (by decide),
      if_neg (by decide), if_neg (by decide), if_neg (by decide)]
  rw [if_neg hcap, if_neg hcap]
  by_cases hinstructions : key = lit "instructions"
  · subst hinstructions
    rw [if_pos rfl, statedInstructions]
    cases conversation.filterMap Message.instruction with
    | nil =>
        rw [if_neg fun hboth => hboth.2 rfl, if_neg (by decide), if_neg (by decide),
          if_neg (by decide)]
        rfl
    | cons text texts =>
        rw [if_pos ⟨rfl, List.cons_ne_nil _ _⟩]
        rfl
  rw [if_neg fun hboth => hinstructions hboth.1, if_neg hinstructions]
  by_cases hmodel : key = lit "model"
  · subst hmodel
    rw [if_pos rfl, if_neg (by decide), if_neg (by decide), if_neg (by decide), h.get?_model]
  · rw [if_neg hmodel]

/-- Every field of the payload but its format. -/
theorem get?_eq (hkey : key ≠ lit "text") : Entries.get? fields key =
    if key = lit "max_output_tokens" then
      (cap.map Json.int).or (Entries.get? payload key)
    else if key = lit "instructions" then
      ((statedInstructions conversation).map Json.str).or (Entries.get? payload key)
    else if key = lit "input" then some (.arr (conversation.flatMap Message.items))
    else if dropped key then none else Entries.get? payload key := by
  rw [h.format.get?_eq hkey, h.limited_get?]

theorem get?_input :
    Entries.get? fields (lit "input") = some (.arr (conversation.flatMap Message.items)) := by
  rw [h.get?_eq (by decide), if_neg (by decide), if_neg (by decide), if_pos rfl]

theorem get?_instructions : Entries.get? fields (lit "instructions") =
    ((statedInstructions conversation).map Json.str).or
      (Entries.get? payload (lit "instructions")) := by
  rw [h.get?_eq (by decide), if_neg (by decide), if_pos rfl]

theorem get?_cap : Entries.get? fields (lit "max_output_tokens") = cap.map Json.int := by
  rw [h.get?_eq (by decide), if_pos rfl]
  cases hget : Entries.get? payload (lit "max_output_tokens") with
  | none => exact Option.or_none
  | some v =>
      rw [h.capped.agrees v (mem_caps (by decide) hget)]
      rfl

/-- A field of the body that is not translated stays as it is. -/
theorem get?_kept {v : Json} (hkey : key ∉ translatedKeys)
    (hv : Entries.get? payload key = some v) : Entries.get? fields key = some v := by
  apply h.format.get?_eq_some
  rw [h.limited_get?]
  split
  · rename_i hcap
    subst hcap
    rw [h.capped.agrees v (mem_caps (by decide) hv)]
    rfl
  · have hinstructions : key ≠ lit "instructions" := fun heq => hkey (heq ▸ by decide)
    have hinput : key ≠ lit "input" := fun heq => hkey (heq ▸ by decide)
    have hdropped : ¬ dropped key = true := fun hdropped => hkey (mem_translatedKeys hdropped)
    rw [if_neg hinstructions, if_neg hinput, if_neg hdropped, hv]

theorem get?_gone (hkey : dropped key = true) : Entries.get? fields key = none := by
  obtain ⟨k, hk, hkeys⟩ := List.any_eq_true.mp hkey
  have hne : droppedKeys.all (fun k => !addedKeys.contains (lit k)) = true := by decide
  have hother := List.all_eq_true.mp hne k hk
  rw [← of_decide_eq_true hkeys] at hother
  simp only [addedKeys, List.contains_cons, List.contains_nil, Bool.or_false, Bool.not_eq_true',
    Bool.or_eq_false_iff, beq_eq_false_iff_ne, ne_eq] at hother
  obtain ⟨hinput, hinstructions, hcap, htext⟩ := hother
  rw [h.get?_eq htext, if_neg hcap, if_neg hinstructions, if_neg hinput, if_pos hkey]

/-- No field appears but those of the translation. -/
theorem get?_fresh (hkey : key ∉ addedKeys) (hnone : Entries.get? payload key = none) :
    Entries.get? fields key = none := by
  simp only [addedKeys, List.mem_cons, List.not_mem_nil, or_false, not_or] at hkey
  obtain ⟨hinput, hinstructions, hcap, htext⟩ := hkey
  rw [h.get?_eq htext, if_neg hcap, if_neg hinstructions, if_neg hinput, hnone, ite_self]

theorem preserves : Preserves payload fields conversation where
  stated := h.stated
  input := h.get?_input
  recovered := recover_items conversation
  instructions := h.get?_instructions
  kept := fun _ _ hkey hv => h.get?_kept hkey hv
  gone := fun k hk => h.get?_gone (List.any_eq_true.mpr ⟨k, hk, decide_eq_true rfl⟩)
  fresh := fun _ hkey hnone => h.get?_fresh hkey hnone

end Assembled

end Preservation

section Reading

variable {P : Platform} {body v copy : Json} {payload fields : Entries Str Json} {model : Str}
  {conversation : List Message} {cap : Option Int}

/-- A format whose strings are joined is accepted as it is. -/
theorem jsonFormat_eq_self (hF : P.float.Faithful) (hwell : v.WellFormed)
    (hjoined : JsonText.Joined v) (h : jsonFormat P v = .ok copy) : copy = v := by
  unfold jsonFormat at h
  split at h
  · split at h
    · exact absurd h refuse_ne_ok
    · split at h
      · cases h
        rfl
      · split at h
        · exact absurd h refuse_ne_ok
        · split at h
          · exact absurd h refuse_ne_ok
          · split at h
            · rename_i hcopy
              cases h
              unfold copyJson at hcopy
              split at hcopy
              · cases hcopy
              · rename_i text hdumps
                exact JsonText.eq_of_copy hF hwell hjoined hdumps
                  (eq_ok_of_toOption hcopy)
            · exact absurd h refuse_ne_ok
  · exact absurd h refuse_ne_ok

theorem FormatAdded.formatOption_eq (hF : P.float.Faithful) (hwell : Json.WellFormed (.obj payload))
    {result : Entries Str Json} (h : FormatAdded P payload result fields)
    (hfree : Entries.get? payload (lit "response_format") = none →
      Entries.get? result (lit "text") = none)
    (hjoined : ∀ format, statedFormat payload = some format → JsonText.Joined format) :
    formatOption P fields = .ok (statedFormat payload) ∧
      ∀ format, statedFormat payload = some format → jsonFormat P format = .ok format := by
  cases h with
  | absent hnone =>
      have hstated : statedFormat payload = none := by rw [statedFormat, hnone]
      rw [hstated, formatOption, hfree hnone]
      exact ⟨rfl, nofun⟩
  | @added value format copy hvalue hchat hcopy hconflict =>
      have hstated := chatFormat_eq_ok hvalue hchat
      rw [Json.WellFormed] at hwell
      have hvalueWell := Json.wellFormedFields_of_mem hwell.2 _ (Entries.mem_of_get? hvalue)
      obtain rfl := jsonFormat_eq_self hF (wellFormed_chatFormat hvalueWell hchat)
        (hjoined format hstated) hcopy
      refine ⟨?_, fun other hother => ?_⟩
      · rw [formatOption, Entries.get?_set_self, hstated]
        change (if _ then _ else _) = _
        rw [if_pos (by rfl), Json.field_cons_self, hcopy]
        rfl
      · rw [hstated] at hother
        cases hother
        exact hcopy

theorem newOptions_eq {instructions : Option Str} {format : Option Json}
    (h : ∀ v, format = some v → jsonFormat P v = .ok v) :
    newOptions P instructions format cap = .ok ⟨instructions, format, cap⟩ := by
  cases format with
  | none => rfl
  | some v =>
      rw [newOptions, h v rfl]
      rfl

theorem capOption_eq (hpositive : ∀ n, cap = some n → 0 < n)
    (hget : Entries.get? fields (lit "max_output_tokens") = cap.map Json.int) :
    capOption fields = .ok cap := by
  rw [capOption, hget]
  cases cap with
  | none => rfl
  | some n =>
      have hlimit : tokenLimit (.int n) = some n := if_pos (hpositive n rfl)
      simp only [Option.map_some, hlimit]

theorem instructionsOption_eq {instructions : Option Str}
    (hget : Entries.get? fields (lit "instructions") = instructions.map Json.str) :
    instructionsOption fields = .ok instructions := by
  rw [instructionsOption, hget]
  cases instructions <;> rfl

theorem get?_of_keysWithin {allowed : List String} {key : Str}
    (hwithin : Json.keysWithin payload allowed = true) (hkey : ∀ k ∈ allowed, key ≠ lit k) :
    Entries.get? payload key = none := by
  rw [Entries.get?_eq_none_iff]
  intro hmem
  obtain ⟨e, he, rfl⟩ := List.mem_map.mp hmem
  obtain ⟨k, hk, heq⟩ := List.any_eq_true.mp (List.all_eq_true.mp hwithin e he)
  exact hkey k hk (of_decide_eq_true heq)

/-- The payload of a body with nothing but its options has no other field. -/
theorem Preserves.keysWithin (h : Preserves payload fields conversation)
    (hplain : Json.keysWithin payload plainKeys = true) :
    Json.keysWithin fields generationKeys = true := by
  apply List.all_eq_true.mpr
  intro e he
  have hmem : Entries.get? fields e.1 ≠ none :=
    fun hnone => Entries.get?_eq_none_iff.mp hnone (List.mem_map_of_mem he)
  have hadded : ∀ key ∈ addedKeys, (generationKeys.any fun k => decide (key = lit k)) = true := by
    decide
  have hothers : ∀ k ∈ plainKeys, k ∉ droppedKeys →
      (generationKeys.any fun k' => decide (lit k = lit k')) = true := by
    decide
  by_cases hfresh : e.1 ∈ addedKeys
  · exact hadded e.1 hfresh
  · have hget : Entries.get? payload e.1 ≠ none := fun hnone => hmem (h.fresh e.1 hfresh hnone)
    obtain ⟨k, hk, heq⟩ : ∃ k ∈ plainKeys, e.1 = lit k := by
      by_contra hall
      push Not at hall
      exact hget (get?_of_keysWithin hplain hall)
    rw [heq]
    refine hothers k hk fun hdropped => hmem ?_
    rw [heq]
    exact h.gone k hdropped

theorem Assembled.readsBack (h : Assembled P payload fields model conversation cap)
    (hF : P.float.Faithful) (hwell : Json.WellFormed (.obj payload))
    (hplain : Json.keysWithin payload plainKeys = true)
    (hjoined : ∀ format, statedFormat payload = some format → JsonText.Joined format) :
    ReadsBack P payload fields conversation := by
  have hinstructions : Entries.get? fields (lit "instructions") =
      (statedInstructions conversation).map Json.str := by
    rw [h.get?_instructions, get?_of_keysWithin hplain (by decide), Option.or_none]
  have hfree : Entries.get? payload (lit "response_format") = none →
      Entries.get? (withLimit (translatedPayload payload model
        ⟨conversation.filterMap Message.instruction, conversation.flatMap Message.items⟩) cap)
        (lit "text") = none := by
    intro hnone
    rw [h.limited_get?, if_neg (by decide), if_neg (by decide), if_neg (by decide),
      if_neg (by decide), get?_of_keysWithin hplain (by decide)]
  obtain ⟨hformat, hself⟩ := h.format.formatOption_eq hF hwell hfree hjoined
  refine ⟨⟨statedInstructions conversation, statedFormat payload, cap⟩, ?_, h.capped, rfl, rfl⟩
  rw [responsesGenerationOptions, h.preserves.keysWithin hplain,
    instructionsOption_eq hinstructions]
  change (capOption fields).bind _ = _
  rw [capOption_eq h.positive h.get?_cap]
  change (formatOption P fields).bind _ = _
  rw [hformat]
  exact newOptions_eq hself

end Reading

section Translations

variable {P : Platform} {body : Json}

/-- A translation keeps the conversation and the options of every body that it accepts. -/
theorem translates_joined (hF : P.float.Faithful) (hwell : body.WellFormed) :
    Translates P JsonText.Joined body := by
  cases h : chatRequestToResponses P body with
  | error error => exact .inl ⟨error, h⟩
  | ok fields =>
      obtain ⟨payload, model, conversation, cap, rfl, hassembled⟩ := assembled_of_eq_ok h
      exact .inr ⟨payload, fields, conversation, rfl, h, hassembled.preserves,
        hassembled.readsBack hF hwell⟩

def sampleTurn (role text : String) : Json :=
  .obj [(lit "role", .str (lit role)), (lit "content", .str (lit text))]

/-- A body with a conversation, a cap and a JSON schema that has a title. -/
def sampleBody (title : Str) : Json :=
  .obj [(lit "model", .str (lit "m")),
    (lit "messages", .arr [sampleTurn "system" "be kind", sampleTurn "user" "hi",
      sampleTurn "assistant" "hello", sampleTurn "user" "bye"]),
    (lit "max_tokens", .int 5),
    (lit "response_format", .obj [(lit "type", .str (lit "json_schema")),
      (lit "json_schema", .obj [(lit "name", .str (lit "n")),
        (lit "schema", .obj [(lit "title", .str title)])])])]

/-- The two halves of a character, next to each other. -/
def sampleHalves : Str := [cp 0xD83D, cp 0xDE00]

/-- The title of the schema of a format. -/
def formatTitle (format : Json) : Option Json := do
  let fields ← format.obj?
  let schema ← (Json.field fields "schema").obj?
  return Json.field schema "title"

theorem wellFormed_sampleBody (title : Str) : (sampleBody title).WellFormed := by
  have hbody : [lit "model", lit "messages", lit "max_tokens", lit "response_format"].Nodup := by
    decide
  have hmessage : [lit "role", lit "content"].Nodup := by decide
  have hformat : [lit "type", lit "json_schema"].Nodup := by decide
  have hschema : [lit "name", lit "schema"].Nodup := by decide
  have htitle : [lit "title"].Nodup := by decide
  have hturn (role text : String) : (sampleTurn role text).WellFormed :=
    ⟨hmessage, trivial, trivial, trivial⟩
  exact ⟨hbody, trivial, ⟨hturn .., hturn .., hturn .., hturn .., trivial⟩, trivial,
    ⟨hformat, trivial, ⟨hschema, trivial, ⟨htitle, trivial, trivial⟩, trivial⟩, trivial⟩, trivial⟩

theorem translates_sample :
    Translates { Platform.sample with float := .numbered } JsonText.Joined
      (sampleBody (lit "t")) :=
  translates_joined FloatText.numbered_faithful (wellFormed_sampleBody _)

/-- The title that is read back from the translation of the sample body. -/
def sampleReadBack (P : Platform) (title : Str) : Option Str :=
  (chatRequestToResponses P (sampleBody title)).toOption.bind fun fields =>
    (responsesGenerationOptions P fields).toOption.bind fun options =>
      (options.outputFormat.bind formatTitle).bind Json.str?

/-- The copy of a schema makes one character of two halves. -/
theorem halves_joined_by_copy :
    ¬ ∀ (P : Platform) (body : Json), P.float.Faithful → body.WellFormed →
      Translates P (fun _ => True) body := by
  intro hall
  have hread : sampleReadBack { Platform.sample with float := .numbered } sampleHalves =
      some [cp 0x1F600] := by decide +kernel
  obtain ⟨fields, hfields, hread⟩ := Option.bind_eq_some_iff.mp hread
  obtain ⟨options, hoptions, hread⟩ := Option.bind_eq_some_iff.mp hread
  have hfields := eq_ok_of_toOption hfields
  cases hall { Platform.sample with float := .numbered } _ FloatText.numbered_faithful
      (wellFormed_sampleBody sampleHalves) with
  | inl hrefused =>
      obtain ⟨error, herror⟩ := hrefused
      rw [hfields] at herror
      cases herror
  | inr haccepted =>
      obtain ⟨payload, fields', conversation, hpayload, hfields', -, hback⟩ := haccepted
      cases hpayload
      rw [hfields] at hfields'
      cases hfields'
      obtain ⟨options', hoptions', -, hformat, -⟩ := hback (by decide) fun _ _ => trivial
      rw [eq_ok_of_toOption hoptions] at hoptions'
      cases hoptions'
      rw [hformat] at hread
      exact absurd hread (by decide +kernel)

end Translations

end OpenaiChat

end MediaBridge.Core
