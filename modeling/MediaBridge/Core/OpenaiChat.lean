import MediaBridge.Core.Receipts
import MediaBridge.Foundation.Raise

/-!
# Chat completions as Responses requests

`media_bridge/openai_chat.py`: the options of a text generation, and the
translation of a chat-completions body into a Responses payload.

## Implementation notes

Every refusal has the code `invalid_request`. The copy of a schema through its
JSON text is made without the blanks that `json.dumps` puts between tokens;
the decoder skips them.
-/

namespace MediaBridge.Core

open Foundation

structure ChatNormalizationError where
  code : String
  safeMessage : String
deriving DecidableEq

/-- Text generation fields, without media or conversation state. -/
structure TextGenerationOptions where
  instructions : Option Str
  outputFormat : Option Json
  maxOutputTokens : Option Int

namespace OpenaiChat

/-- `raise _error(message)`. -/
def refuse {α : Type} (message : String) : Except ChatNormalizationError α :=
  .error ⟨"invalid_request", message⟩

/-- `set(value) == {...}`. -/
def keysExactly (fields : Entries Str Json) (keys : List String) : Bool :=
  Json.keysWithin fields keys && keys.all fun key => Entries.has fields (lit key)

/-- `json.loads(json.dumps(value, allow_nan=False))`; `none` is any of its errors. -/
def copyJson (P : Platform) (value : Json) : Option Json :=
  match JsonText.dumps P.float ⟨true, false, false⟩ value with
  | none => none
  | some text => (JsonText.loads P.float P.jsonDepth text).toOption

/-- The name of a schema is a text that is not blank. -/
def schemaNamed (value : Entries Str Json) : Bool :=
  match (Json.field value "name").str? with
  | some name => !name.strip.isEmpty
  | none => false

/-- `"strict" not in value or type(value["strict"]) is bool`. -/
def strictAccepted (value : Entries Str Json) : Bool :=
  match Entries.get? value (lit "strict") with
  | none => true
  | some (.bool _) => true
  | some _ => false

/-- `"description" not in value or isinstance(value["description"], str)`. -/
def descriptionAccepted (value : Entries Str Json) : Bool :=
  match Entries.get? value (lit "description") with
  | none => true
  | some (.str _) => true
  | some _ => false

def schemaKeys : List String := ["type", "name", "schema", "strict", "description"]

/-- `_json_format`. -/
def jsonFormat (P : Platform) : Json → Except ChatNormalizationError Json
  | .obj value =>
      match (Json.field value "type").str? with
      | none => refuse "JSON response format type must be text."
      | some kind =>
          if (kind = lit "text" ∨ kind = lit "json_object") ∧
              keysExactly value ["type"] = true then .ok (.obj value)
          else if kind ≠ lit "json_schema" ∨ Json.keysWithin value schemaKeys = false then
            refuse "JSON response format is unsupported."
          else if !(schemaNamed value && (Json.field value "schema").obj?.isSome &&
              strictAccepted value && descriptionAccepted value) then
            refuse "JSON schema format is malformed."
          else
            match copyJson P (.obj value) with
            | some copy => .ok copy
            | none => refuse "JSON schema format is malformed."
  | _ => refuse "JSON response format is malformed."

/-- `type(cap) is int and cap > 0`. -/
def tokenLimit : Json → Option Int
  | .int n => if 0 < n then some n else none
  | _ => none

/-- The constructor of `TextGenerationOptions`, which checks its format again. -/
def newOptions (P : Platform) (instructions : Option Str) (format : Option Json)
    (cap : Option Int) : Except ChatNormalizationError TextGenerationOptions :=
  match format with
  | none => .ok ⟨instructions, none, cap⟩
  | some value => (jsonFormat P value).map fun checked => ⟨instructions, some checked, cap⟩

/-- The `instructions` of a payload. -/
def instructionsOption (payload : Entries Str Json) :
    Except ChatNormalizationError (Option Str) :=
  match Entries.get? payload (lit "instructions") with
  | none => .ok none
  | some (.str s) => .ok (some s)
  | some _ => refuse "Instructions must be text."

/-- The `max_output_tokens` of a payload. -/
def capOption (payload : Entries Str Json) : Except ChatNormalizationError (Option Int) :=
  match Entries.get? payload (lit "max_output_tokens") with
  | none => .ok none
  | some cap =>
      match tokenLimit cap with
      | some n => .ok (some n)
      | none => refuse "Output token limit must be a positive integer."

/-- The `text` of a payload. -/
def formatOption (P : Platform) (payload : Entries Str Json) :
    Except ChatNormalizationError (Option Json) :=
  match Entries.get? payload (lit "text") with
  | none => .ok none
  | some (.obj text) =>
      if keysExactly text ["format"] then some <$> jsonFormat P (Json.field text "format")
      else refuse "Text response format is malformed."
  | some _ => refuse "Text response format is malformed."

def generationKeys : List String :=
  ["model", "input", "stream", "reasoning_effort", "instructions", "text", "max_output_tokens"]

/-- `responses_generation_options`. -/
def responsesGenerationOptions (P : Platform) (payload : Entries Str Json) :
    Except ChatNormalizationError TextGenerationOptions :=
  if !Json.keysWithin payload generationKeys then
    refuse "Text Provider request contains unsupported fields."
  else do
    let instructions ← instructionsOption payload
    let cap ← capOption payload
    let format ← formatOption P payload
    newOptions P instructions format cap

/-- `{"type": kind, "text": text}`. -/
def textItem (kind : String) (text : Str) : Json :=
  .obj [(lit "type", .str (lit kind)), (lit "text", .str text)]

/-- `_text_part`. -/
def textPart : Json → Except ChatNormalizationError Json
  | .str s => .ok (textItem "input_text" s)
  | _ => refuse "Chat message content is malformed."

/-- The locator of an `image_url` part, directly or under `url`. -/
def imageLocator (raw : Entries Str Json) : Option Str :=
  match Json.field raw "image_url" with
  | .obj locator => (Json.field locator "url").str?
  | locator => locator.str?

/-- One part of a user message. -/
def userPart : Json → Except ChatNormalizationError Json
  | .obj raw =>
      match (Json.field raw "type").str? with
      | none => refuse "Chat message content is malformed."
      | some kind =>
          if kind = lit "text" then
            if keysExactly raw ["type", "text"] then textPart (Json.field raw "text")
            else refuse "Chat text content is malformed."
          else if kind = lit "image_url" then
            match imageLocator raw with
            | some (c :: rest) => .ok (.obj [(lit "type", .str (lit "input_image")),
                (lit "image_url", .str (c :: rest))])
            | _ => refuse "Chat image content is malformed."
          else refuse "Chat message content type is not supported."
  | _ => refuse "Chat message content is malformed."

/-- The loop over the parts of a user message. -/
def userParts : List Json → Except ChatNormalizationError (List Json)
  | [] => .ok []
  | raw :: rest => do
      let part ← userPart raw
      let parts ← userParts rest
      return part :: parts

/-- `_user_content`. -/
def userContent : Json → Except ChatNormalizationError (List Json)
  | .str s => .ok [textItem "input_text" s]
  | .arr (raw :: rest) => userParts (raw :: rest)
  | _ => refuse "Chat message content is malformed."

/-- `_message_content`; the only other role it is called with is `assistant`. -/
def messageContent (role : Str) (value : Json) : Except ChatNormalizationError (List Json) :=
  if role = lit "user" then userContent value
  else
    match value with
    | .str s =>
        .ok [textItem (if role = lit "assistant" then "output_text" else "input_text") s]
    | .null =>
        if role = lit "assistant" then .ok []
        else refuse "Chat message content is malformed."
    | _ => refuse "Chat message content is malformed."

/-- One entry of `tool_calls`. -/
def toolItem : Json → Except ChatNormalizationError Json
  | .obj call =>
      match (Json.field call "type").isLit "function", (Json.field call "function").obj?,
          (Json.field call "id").str? with
      | true, some function, some id =>
          match (Json.field function "name").str?, (Json.field function "arguments").str? with
          | some name, some arguments =>
              .ok (.obj [(lit "type", .str (lit "function_call")), (lit "call_id", .str id),
                (lit "name", .str name), (lit "arguments", .str arguments)])
          | _, _ => refuse "Chat tool calls are malformed."
      | _, _, _ => refuse "Chat tool calls are malformed."
  | _ => refuse "Chat tool calls are malformed."

/-- The loop over `tool_calls`. -/
def toolItemsOf : List Json → Except ChatNormalizationError (List Json)
  | [] => .ok []
  | call :: rest => do
      let item ← toolItem call
      let items ← toolItemsOf rest
      return item :: items

/-- `_tool_items`. -/
def toolItems (message : Entries Str Json) : Except ChatNormalizationError (List Json) :=
  match Json.field message "tool_calls" with
  | .null => .ok []
  | .arr calls => toolItemsOf calls
  | _ => refuse "Chat tool calls are malformed."

/-- What a message adds to the instructions and to the input. -/
structure Translation where
  instructions : List Str
  items : List Json

/-- A system or developer message. -/
def systemMessage (message : Entries Str Json) :
    Except ChatNormalizationError Translation :=
  match (Json.field message "content").str? with
  | none => refuse "System message content is malformed."
  | some content => .ok ⟨if content.strip.isEmpty then [] else [content], []⟩

/-- A tool message. -/
def toolMessage (message : Entries Str Json) : Except ChatNormalizationError Translation :=
  match (Json.field message "tool_call_id").str?, (Json.field message "content").str? with
  | some callId, some output =>
      .ok ⟨[], [.obj [(lit "type", .str (lit "function_call_output")),
        (lit "call_id", .str callId), (lit "output", .str output)]]⟩
  | _, _ => refuse "Chat tool message is malformed."

/-- A user or assistant message. -/
def spokenMessage (role : Str) (message : Entries Str Json) :
    Except ChatNormalizationError Translation := do
  let content ← messageContent role (Json.field message "content")
  let calls ← toolItems message
  return ⟨[], .obj [(lit "role", .str role), (lit "content", .arr content)] :: calls⟩

/-- The body of the loop over the messages. -/
def translateMessage : Json → Except ChatNormalizationError Translation
  | .obj message =>
      match (Json.field message "role").str? with
      | none => refuse "Chat message is malformed."
      | some role =>
          if role = lit "system" ∨ role = lit "developer" then systemMessage message
          else if role ≠ lit "user" ∧ role ≠ lit "assistant" ∧ role ≠ lit "tool" then
            refuse "Chat message role is not supported."
          else if role = lit "tool" then toolMessage message
          else spokenMessage role message
  | _ => refuse "Chat message is malformed."

/-- The loop over the messages. -/
def translateMessages : List Json → Except ChatNormalizationError Translation
  | [] => .ok ⟨[], []⟩
  | message :: rest => do
      let first ← translateMessage message
      let others ← translateMessages rest
      return ⟨first.instructions ++ others.instructions, first.items ++ others.items⟩

/-- The keys that do not go into the translated payload. -/
def droppedKeys : List String :=
  ["messages", "max_tokens", "max_completion_tokens", "response_format"]

/-- The translated payload before the limits and the format. -/
def translatedPayload (payload : Entries Str Json) (model : Str) (t : Translation) :
    Entries Str Json :=
  let kept := payload.filter fun e => !droppedKeys.any fun key => decide (e.1 = lit key)
  let result := Entries.set (Entries.set kept (lit "model") (.str model))
    (lit "input") (.arr t.items)
  if t.instructions.isEmpty then result
  else Entries.set result (lit "instructions")
    (.str (Str.join (lit "\n\n") t.instructions))

/-- The token limits that a body gives. -/
def caps (payload : Entries Str Json) : List Json :=
  ["max_tokens", "max_completion_tokens", "max_output_tokens"].filterMap fun key =>
    Entries.get? payload (lit key)

/-- The limits are positive and agree. -/
def withCaps (payload result : Entries Str Json) :
    Except ChatNormalizationError (Entries Str Json) :=
  match caps payload with
  | [] => .ok result
  | cap :: rest =>
      match tokenLimit cap with
      | some n =>
          if rest.all fun other => tokenLimit other == some n then
            .ok (Entries.set result (lit "max_output_tokens") (.int n))
          else refuse "Output token limits are invalid or conflicting."
      | none => refuse "Output token limits are invalid or conflicting."

/-- The format of a body, with the members of `json_schema` next to its `type`. -/
def chatFormat (value : Entries Str Json) : Except ChatNormalizationError Json :=
  if (Json.field value "type").isLit "json_schema" then
    match keysExactly value ["type", "json_schema"], Json.field value "json_schema" with
    | true, .obj schema =>
        if Entries.has schema (lit "type") then
          refuse "Chat JSON schema format is malformed."
        else .ok (.obj ((lit "type", .str (lit "json_schema")) :: schema))
    | _, _ => refuse "Chat JSON schema format is malformed."
  else .ok (.obj value)

/-- The `response_format` of a body becomes `text` of the payload. -/
def withFormat (P : Platform) (payload result : Entries Str Json) :
    Except ChatNormalizationError (Entries Str Json) :=
  match Entries.get? payload (lit "response_format") with
  | none => .ok result
  | some (.obj value) => do
      let format ← chatFormat value
      let normalized ← jsonFormat P format
      if Entries.has result (lit "text") then refuse "Response format fields conflict."
      else return Entries.set result (lit "text") (.obj [(lit "format", normalized)])
  | some _ => refuse "Chat response format is malformed."

/-- `chat_request_to_responses`. -/
def chatRequestToResponses (P : Platform) :
    Json → Except ChatNormalizationError (Entries Str Json)
  | .obj payload =>
      match (Json.field payload "model").str?, Json.field payload "messages" with
      | some (c :: model), .arr (message :: rest) => do
          let t ← translateMessages (message :: rest)
          let result ← withCaps payload (translatedPayload payload (c :: model) t)
          withFormat P payload result
      | _, _ => refuse "Chat request requires a model and messages."
  | _ => refuse "Chat request must be a JSON object."

theorem refuse_ne_ok {α : Type} {message : String} {a : α} :
    (refuse message : Except ChatNormalizationError α) ≠ .ok a := by
  simp [refuse]

/-- The limits leave every other field as it was. -/
theorem withCaps_get? {payload result result' : Entries Str Json}
    (h : withCaps payload result = .ok result') {key : Str}
    (hkey : key ≠ lit "max_output_tokens") :
    Entries.get? result' key = Entries.get? result key := by
  unfold withCaps at h
  split at h
  · cases h
    rfl
  · split at h
    · split at h
      · cases h
        exact Entries.get?_set_of_ne _ _ hkey
      · exact absurd h refuse_ne_ok
    · exact absurd h refuse_ne_ok

/-- The format leaves every other field as it was. -/
theorem withFormat_get? {P : Platform} {payload result result' : Entries Str Json}
    (h : withFormat P payload result = .ok result') {key : Str} (hkey : key ≠ lit "text") :
    Entries.get? result' key = Entries.get? result key := by
  unfold withFormat at h
  split at h
  · cases h
    rfl
  · obtain ⟨format, -, h⟩ := ok_of_bind h
    obtain ⟨normalized, -, h⟩ := ok_of_bind h
    split at h
    · exact absurd h refuse_ne_ok
    · cases h
      exact Entries.get?_set_of_ne _ _ hkey
  · exact absurd h refuse_ne_ok

theorem translatedPayload_input (payload : Entries Str Json) (model : Str) (t : Translation) :
    Entries.get? (translatedPayload payload model t) (lit "input") = some (.arr t.items) := by
  unfold translatedPayload
  split
  · exact Entries.get?_set_self ..
  · rw [Entries.get?_set_of_ne _ _ (by decide)]
    exact Entries.get?_set_self ..

/-- An accepted chat body, with the translation of its messages. -/
structure Translated (body : Json) (fields : Entries Str Json) (t : Translation) : Prop where
  body : ∃ payload messages, body = .obj payload ∧
    Json.field payload "messages" = .arr messages ∧ translateMessages messages = .ok t
  input : Json.field fields "input" = .arr t.items

theorem translated_of_eq_ok {P : Platform} {body : Json} {fields : Entries Str Json}
    (h : chatRequestToResponses P body = .ok fields) : ∃ t, Translated body fields t := by
  unfold chatRequestToResponses at h
  split at h
  · rename_i payload
    split at h
    · rename_i c model message rest hmodel hmessages
      obtain ⟨t, ht, h⟩ := ok_of_bind h
      obtain ⟨result, hresult, h⟩ := ok_of_bind h
      refine ⟨t, ⟨payload, message :: rest, rfl, hmessages, ht⟩, ?_⟩
      have hinput := translatedPayload_input payload (c :: model) t
      rw [← withCaps_get? hresult (by decide), ← withFormat_get? h (by decide)] at hinput
      rw [Json.field, hinput]
      rfl
    · exact absurd h refuse_ne_ok
  · exact absurd h refuse_ne_ok

end OpenaiChat

end MediaBridge.Core
