import MediaBridge.Foundation.JsonEvents
import MediaBridge.Gateway.RequestHandlers
import MediaBridge.Personal.SolarResponses

/-!
# What the personal runtime answers

`SolarResponsesDownstream.invoke` of `media_bridge_personal/solar_responses.py` from the answer of
the provider on, with `_stream`, and a client that reads either form of the answer.

## Implementation notes

A generator is the list of what it yields, where `none` is an exception. The client reads the
stream by the rules of `Foundation.Sse` and the data of an event by those of `json.loads`.
-/

namespace MediaBridge.Personal

open Foundation MediaBridge.Core Gateway
open Sse (JsonEvent Yielded jsonBytes readEvents readJson received sendable)

/-- What the HTTP client makes of the request that is posted. -/
inductive Upstream
  /-- A `TimeoutException`. -/
  | timedOut
  /-- Another `RequestError`. -/
  | failed
  | answered (status : Nat) (contentType : Str) (content : Bytes)

/-- Why there is no answer. -/
inductive AnswerError
  /-- A `DownstreamError`, whose status is 502. -/
  | downstream (code message : String)
  | raised
deriving DecidableEq

/-- `usage`. -/
structure TokenUsage where
  input : Int
  output : Int
  total : Int
deriving DecidableEq

/-- What is taken from an answer of the provider. -/
structure SolarAnswer where
  text : Str
  usage : TokenUsage
deriving DecidableEq

section Answers

variable (P : Platform) (downstream : SolarResponsesDownstream)

/-- A `DownstreamError`. -/
def SolarResponsesDownstream.failure (code message : String) : AnswerError :=
  .downstream (downstream.errorPrefix ++ "_" ++ code) (downstream.providerName ++ " " ++ message)

/-- The refusal of an answer. -/
def SolarResponsesDownstream.invalid : AnswerError :=
  downstream.failure "response_invalid" "returned an invalid response."

/-- `8 * 1024 * 1024`. -/
def maxResponseBytes : Nat := 8 * 1024 * 1024

/-- `_usage_count`; `none` is an error, and all of them are caught. -/
def usageCount : Json → Option Int
  | .null => some 0
  | .arr _ => none
  | .obj _ => none
  | v => (Receipts.integerOf P v).toOption

/-- `usage_source.get(key, usage_source.get(fallback, 0))`. -/
def usageEntry (usage : Entries Str Json) (key fallback : String) : Json :=
  ((Entries.get? usage (lit key)).orElse fun _ => Entries.get? usage (lit fallback)).getD (.int 0)

/-- The counts of an answer. -/
def readUsage (answer : Entries Str Json) : Option TokenUsage := do
  let usage ← ((Entries.get? answer (lit "usage")).getD (.obj [])).obj?
  let input ← usageCount P (usageEntry usage "prompt_tokens" "input_tokens")
  let output ← usageCount P (usageEntry usage "completion_tokens" "output_tokens")
  let total ← usageCount P (usageEntry usage "total_tokens" "total_tokens")
  return ⟨input, output, total⟩

/-- What a `for` takes from a value: no key and no character is a dictionary. -/
def iterated : Json → Option (List Json)
  | .arr items => some items
  | .obj _ => some []
  | .str _ => some []
  | _ => none

/-- `str(part.get("text", "")).strip()` of a part that has output. -/
def outputPart : Json → Option Str
  | .obj part =>
      if (Json.field part "type").isLit "output_text" then
        some (Receipts.textOf P ((Entries.get? part (lit "text")).getD (.str []))).strip
      else none
  | _ => none

/-- The texts of one item of the output. -/
def outputItem : Json → Option (List Str)
  | .obj item => do
      let parts ← iterated ((Entries.get? item (lit "content")).getD (.arr []))
      return parts.filterMap (outputPart P)
  | _ => some []

/-- `choices[0]["message"]["content"]`. -/
def choiceText (answer : Entries Str Json) : Option Str :=
  match Json.field answer "choices" with
  | .arr (.obj choice :: _) => ((Json.field choice "message").obj?).bind fun message =>
      (Json.field message "content").str?
  | _ => none

/-- The text of an answer; `none` is an exception that is caught. -/
def SolarResponsesDownstream.answerText (answer : Entries Str Json) : Option Str :=
  if downstream.protocol = lit "openai-chat-completions" then (choiceText answer).map Str.strip
  else do
    let items ← iterated (Json.field answer "output")
    let texts ← items.mapM (outputItem P)
    return (Str.join (lit "\n") texts.flatten).strip

/-- What is taken from the content of an answer. -/
def SolarResponsesDownstream.readAnswer (content : Bytes) : Except AnswerError SolarAnswer :=
  match loadBody P content with
  | .error .recursion => .error .raised
  | .ok (.obj answer) =>
      match downstream.answerText P answer with
      | none => .error downstream.invalid
      | some [] => .error (downstream.failure "response_invalid" "returned an empty response.")
      | some text =>
          match readUsage P answer with
          | none => .error downstream.invalid
          | some usage => .ok ⟨text, usage⟩
  | _ => .error downstream.invalid

/-- The code for a status from 400 on. -/
def rejectionCode (status : Nat) : String :=
  if status = 401 ∨ status = 403 then "authentication"
  else if status = 429 then "rate_limit"
  else "upstream_http"

/-- What is taken from the answer of the provider. -/
def SolarResponsesDownstream.answer : Upstream → Except AnswerError SolarAnswer
  | .timedOut => .error (downstream.failure "timeout" "request timed out.")
  | .failed => .error (downstream.failure "transport" "request failed.")
  | .answered status contentType content =>
      if 400 ≤ status then
        .error (downstream.failure (rejectionCode status) "rejected the request.")
      else if Str.strip (contentType.takeWhile fun c => c ≠ cp 59) ≠ lit "application/json" ∨
          maxResponseBytes < content.length then
        .error downstream.invalid
      else downstream.readAnswer P content

end Answers

section Bodies

variable (P : Platform) (downstream : SolarResponsesDownstream)

/-- The random bytes of two identifiers. -/
structure AnswerDraw where
  response : { data : Bytes // data.length = 12 }
  message : { data : Bytes // data.length = 12 }

/-- `response_id`. -/
def AnswerDraw.responseId (draw : AnswerDraw) : Str :=
  lit "resp_mb_" ++ Base64.encodeUrl draw.response

/-- `message_id`. -/
def AnswerDraw.messageId (draw : AnswerDraw) : Str :=
  lit "msg_mb_" ++ Base64.encodeUrl draw.message

/-- The only part of the output. -/
def textPart (text : Str) : Json :=
  .obj [(lit "type", .str (lit "output_text")), (lit "text", .str text),
    (lit "annotations", .arr [])]

/-- A message of the output. -/
def outputMessage (messageId : Str) (status : String) (content : List Json) : Json :=
  .obj [(lit "id", .str messageId), (lit "type", .str (lit "message")),
    (lit "status", .str (lit status)), (lit "role", .str (lit "assistant")),
    (lit "content", .arr content)]

/-- `_response_payload`. -/
def responsePayload (draw : AnswerDraw) (createdAt : Int) (model : Str) (answer : SolarAnswer) :
    Entries Str Json :=
  [(lit "id", .str draw.responseId), (lit "object", .str (lit "response")),
    (lit "created_at", .int createdAt), (lit "status", .str (lit "completed")),
    (lit "model", .str model),
    (lit "output", .arr [outputMessage draw.messageId "completed" [textPart answer.text]]),
    (lit "usage", .obj [(lit "input_tokens", .int answer.usage.input),
      (lit "output_tokens", .int answer.usage.output),
      (lit "total_tokens", .int answer.usage.total)])]

/-- The style of every answer. -/
def answerStyle : JsonText.Style := ⟨false, false, true⟩

/-- `_sse_event`. -/
def sseEvent (eventType : String) (payload : Json) : Option Bytes :=
  Sse.namedEvent P.float answerStyle (eventType, payload)

/-- The position of the part. -/
def partPosition (messageId : Str) : Entries Str Json :=
  [(lit "item_id", .str messageId), (lit "output_index", .int 0), (lit "content_index", .int 0)]

/-- An event, whose type is its first field. -/
def streamEvent (eventType : String) (fields : Entries Str Json) : JsonEvent :=
  (eventType, .obj ((lit "type", .str (lit eventType)) :: fields))

/-- The events of `_stream`. -/
def streamEvents (messageId text : Str) (completed : Entries Str Json) : List JsonEvent :=
  let created := Entries.set (Entries.set completed (lit "status") (.str (lit "in_progress")))
    (lit "output") (.arr [])
  let position := partPosition messageId
  [streamEvent "response.created" [(lit "response", .obj created)],
    streamEvent "response.output_item.added" [(lit "output_index", .int 0),
      (lit "item", outputMessage messageId "in_progress" [])],
    streamEvent "response.content_part.added" (position ++ [(lit "part", textPart [])]),
    streamEvent "response.output_text.delta" (position ++ [(lit "delta", .str text)]),
    streamEvent "response.output_text.done" (position ++ [(lit "text", .str text)]),
    streamEvent "response.content_part.done" (position ++ [(lit "part", textPart text)]),
    streamEvent "response.output_item.done" [(lit "output_index", .int 0),
      (lit "item", outputMessage messageId "completed" [textPart text])],
    streamEvent "response.completed" [(lit "response", .obj completed)]]

/-- `_stream`. -/
def stream (messageId text : Str) (completed : Entries Str Json) : Yielded :=
  Sse.yields ((streamEvents messageId text completed).map (fun e => sseEvent P e.1 e.2) ++
    [some Sse.doneChunk])

/-- The `GatewayResponse`. -/
structure PersonalResponse where
  body : Bytes
  contentType : Str
  responseId : Str
  statusCode : Nat
  stream : Option Yielded
deriving DecidableEq

/-- The end of `SolarResponsesDownstream.invoke`. -/
def SolarResponsesDownstream.deliver (draw : AnswerDraw) (now : ℚ) (payload : Entries Str Json)
    (answer : SolarAnswer) : Except AnswerError PersonalResponse :=
  let completed := responsePayload draw (truncate now) downstream.model answer
  match Json.field payload "stream" with
  | .bool true => .ok ⟨[], lit "text/event-stream", draw.responseId, 200,
      some (stream P draw.messageId answer.text completed)⟩
  | _ =>
      match jsonBytes P.float answerStyle (.obj completed) with
      | none => .error .raised
      | some body => .ok ⟨body, lit "application/json", draw.responseId, 200, none⟩

/-- `SolarResponsesDownstream.invoke` from its request on. -/
def SolarResponsesDownstream.respond (upstream : Upstream) (draw : AnswerDraw) (now : ℚ)
    (payload : Entries Str Json) : Except AnswerError PersonalResponse := do
  let answer ← downstream.answer P upstream
  downstream.deliver P draw now payload answer

end Bodies

section Events

variable {P : Platform} {style : JsonText.Style}

/-- The counts can be written. -/
def TokenUsage.Short (usage : TokenUsage) : Prop :=
  JsonText.tooLong usage.input.natAbs = false ∧ JsonText.tooLong usage.output.natAbs = false ∧
    JsonText.tooLong usage.total.natAbs = false

theorem tooLong_zero : JsonText.tooLong (Int.natAbs 0) = false := by decide

theorem encodable_encodeUrl (data : Bytes) : (Base64.encodeUrl data).encodable = true :=
  Str.encodable_of_ascii (Base64.forall_mem_encodeUrl (by decide) data)

theorem AnswerDraw.encodable_responseId (draw : AnswerDraw) :
    Str.encodable draw.responseId = true :=
  Str.encodable_append.mpr ⟨Sse.encodable_lit _, encodable_encodeUrl _⟩

theorem AnswerDraw.encodable_messageId (draw : AnswerDraw) :
    Str.encodable draw.messageId = true :=
  Str.encodable_append.mpr ⟨Sse.encodable_lit _, encodable_encodeUrl _⟩

section Answer

variable {F : FloatText} {draw : AnswerDraw} {createdAt : Int} {model : Str} {answer : SolarAnswer}

/-- What is to be encoded for an answer to be sent. -/
theorem encoded_responsePayload_iff (style : JsonText.Style) (hstyle : style.ensureAscii = false) :
    JsonText.Encoded F style (.obj (responsePayload draw createdAt model answer)) ↔
      JsonText.tooLong createdAt.natAbs = false ∧ model.encodable = true ∧
        answer.text.encodable = true ∧ answer.usage.Short := by
  simp only [responsePayload, outputMessage, textPart, JsonText.encoded_obj_iff hstyle,
    List.forall_mem_cons, JsonText.encoded_str_iff hstyle, JsonText.encoded_arr_iff,
    Sse.encoded_int_iff, List.not_mem_nil, false_imp_iff, implies_true, draw.encodable_responseId,
    draw.encodable_messageId, Sse.encodable_lit, and_true, true_and, TokenUsage.Short]

/-- The response at the start. -/
theorem created_eq :
    Entries.set (Entries.set (responsePayload draw createdAt model answer) (lit "status")
        (.str (lit "in_progress"))) (lit "output") (.arr []) =
      [(lit "id", .str draw.responseId), (lit "object", .str (lit "response")),
        (lit "created_at", .int createdAt), (lit "status", .str (lit "in_progress")),
        (lit "model", .str model), (lit "output", .arr []),
        (lit "usage", .obj [(lit "input_tokens", .int answer.usage.input),
          (lit "output_tokens", .int answer.usage.output),
          (lit "total_tokens", .int answer.usage.total)])] := by
  rfl

/-- The events of an answer. -/
def answerEvents (draw : AnswerDraw) (createdAt : Int) (model : Str) (answer : SolarAnswer) :
    List JsonEvent :=
  streamEvents draw.messageId answer.text (responsePayload draw createdAt model answer)

/-- Which events can be sent: the first needs the model and the counts, the next two nothing, the
next four the text, and the last all of it. -/
theorem encoded_answerEvents (hstyle : style.ensureAscii = false) :
    (answerEvents draw createdAt model answer).map
        (fun e => JsonText.Encoded F style e.2) =
      let head := JsonText.tooLong createdAt.natAbs = false ∧ model.encodable = true ∧
        answer.usage.Short
      let text := answer.text.encodable = true
      [head, True, True, text, text, text, text, JsonText.Encoded F style
        (.obj (responsePayload draw createdAt model answer))] := by
  simp only [answerEvents, streamEvents, streamEvent, partPosition, created_eq, List.map_cons,
    List.map_nil, List.cons_append, List.nil_append, outputMessage, textPart,
    encoded_responsePayload_iff style hstyle, JsonText.encoded_obj_iff hstyle, List.forall_mem_cons,
    JsonText.encoded_str_iff hstyle, JsonText.encoded_arr_iff, Sse.encoded_int_iff,
    List.not_mem_nil, false_imp_iff, implies_true, draw.encodable_messageId,
    draw.encodable_responseId, Sse.encodable_lit, tooLong_zero, Sse.encodable_nil, and_true,
    true_and, TokenUsage.Short]

/-- Every event has unique keys. -/
theorem wellFormed_answerEvents :
    ∀ e ∈ answerEvents draw createdAt model answer, e.2.WellFormed := by
  simp only [answerEvents, streamEvents, created_eq]
  simp only [streamEvent, partPosition, outputMessage, textPart, responsePayload,
    List.forall_mem_cons, List.cons_append, List.nil_append, Json.WellFormed,
    Json.WellFormedFields, Json.WellFormedItems, Entries.keys, List.map_cons, List.map_nil,
    List.not_mem_nil, false_imp_iff, implies_true, and_true, true_and]
  decide +kernel

/-- At most seven containers are open in an event. -/
theorem depth_answerEvents :
    ∀ e ∈ answerEvents draw createdAt model answer, e.2.depth ≤ 7 := by
  simp only [answerEvents, streamEvents, created_eq]
  simp only [streamEvent, List.forall_mem_cons, List.not_mem_nil, false_imp_iff, implies_true,
    and_true]
  refine ⟨?_, ?_, ?_, ?_, ?_, ?_, ?_, ?_⟩ <;> exact Nat.le_of_ble_eq_true rfl

theorem name_answerEvents :
    ∀ e ∈ answerEvents draw createdAt model answer, Sse.isEventName e.1 = true := by
  simp only [answerEvents, streamEvents, streamEvent, List.forall_mem_cons, List.not_mem_nil,
    false_imp_iff, implies_true, and_true]
  decide +kernel

/-- The events of an answer can be read, those that can be sent. -/
theorem legible_answerEvents {P : Platform} {depth : Nat} (hdepth : 7 ≤ depth) :
    ∀ e ∈ answerEvents draw createdAt model answer, Sse.Legible P.float answerStyle depth e := by
  intro e he
  constructor
  case name => exact name_answerEvents e he
  case depth => exact (depth_answerEvents e he).trans hdepth
  case verbatim =>
    -- No event has a float, so that the style makes no difference.
    intro hsent
    have hsame : ∀ e ∈ answerEvents draw createdAt model answer,
        (JsonText.Encoded P.float answerStyle e.2 = JsonText.Encoded P.float bodyStyle e.2) := by
      rw [← List.map_inj_left, encoded_answerEvents rfl, encoded_answerEvents rfl]
      simp only [encoded_responsePayload_iff answerStyle rfl,
        encoded_responsePayload_iff bodyStyle rfl]
    have hencoded := hsame e he ▸ Sse.isSome_jsonBytes_iff.mp hsent
    exact JsonText.verbatim_of_encoded rfl rfl (wellFormed_answerEvents e he) hencoded

/-- The whole stream can be sent when the last event can. -/
theorem all_sendable_iff {P : Platform} :
    (answerEvents draw createdAt model answer).all (sendable P.float answerStyle) = true ↔
      JsonText.Encoded P.float answerStyle
        (.obj (responsePayload draw createdAt model answer)) := by
  have hall :
    (answerEvents draw createdAt model answer).all (sendable P.float answerStyle) = true ↔
      ∀ p ∈ (answerEvents draw createdAt model answer).map
        (fun e => JsonText.Encoded P.float answerStyle e.2), p := by
    rw [List.all_eq_true, List.forall_mem_map]
    exact forall₂_congr fun e _ => Sse.isSome_jsonBytes_iff
  rw [hall, encoded_answerEvents rfl]
  simp only [List.forall_mem_cons, List.not_mem_nil, false_imp_iff, implies_true, and_true,
    true_and, encoded_responsePayload_iff answerStyle rfl]
  tauto

/-- An event with the name of the last is the last. -/
theorem eq_of_completed {e : JsonEvent} (he : e ∈ answerEvents draw createdAt model answer)
    (hname : Sse.ascii e.1 = Sse.ascii "response.completed") :
    e.2 = .obj [(lit "type", .str (lit "response.completed")),
      (lit "response", .obj (responsePayload draw createdAt model answer))] := by
  simp only [answerEvents, streamEvents, streamEvent, List.mem_cons, List.not_mem_nil,
    or_false] at he
  rcases he with rfl | rfl | rfl | rfl | rfl | rfl | rfl | rfl
  iterate 7 simp +decide only at hname
  rfl

/-- An event with the name of the delta can be sent only if the text can be encoded. -/
theorem encodable_of_delta {e : JsonEvent} (he : e ∈ answerEvents draw createdAt model answer)
    (hname : Sse.ascii e.1 = Sse.ascii "response.output_text.delta")
    (hencoded : JsonText.Encoded F answerStyle e.2) : answer.text.encodable = true := by
  simp only [answerEvents, streamEvents, streamEvent, List.mem_cons, List.not_mem_nil,
    or_false] at he
  rcases he with rfl | rfl | rfl | rfl | rfl | rfl | rfl | rfl
  case inr.inr.inr.inl =>
    have hdelta := (JsonText.encoded_obj_iff rfl).mp hencoded (lit "delta", .str answer.text)
      (by simp [partPosition])
    exact (JsonText.encoded_str_iff rfl).mp hdelta.2
  all_goals simp +decide only at hname

/-- Where an event is sent, the first can be sent. -/
theorem encoded_first {e : JsonEvent}
    (he : e ∈ (answerEvents draw createdAt model answer).takeWhile (sendable F answerStyle)) :
    JsonText.tooLong createdAt.natAbs = false ∧ model.encodable = true ∧ answer.usage.Short := by
  obtain ⟨first, rest, hevents⟩ :
      ∃ first rest, answerEvents draw createdAt model answer = first :: rest := ⟨_, _, rfl⟩
  have hlist : (answerEvents draw createdAt model answer).map
      (fun e => JsonText.Encoded F answerStyle e.2) = _ := encoded_answerEvents rfl
  rw [hevents] at he hlist
  by_cases hsent : sendable F answerStyle first = true
  · exact (List.cons.inj hlist).1.mp (Sse.isSome_jsonBytes_iff.mp hsent)
  · rw [List.takeWhile_cons_of_neg hsent] at he
    cases he

end Answer

end Events

section Reading

/-- The response that a client has at the end of a stream. -/
def finalResponse (events : List (Bytes × Option Json)) : Option Json :=
  (events.find? fun e => e.1 = Sse.ascii "response.completed").bind fun e =>
    (e.2.bind Json.obj?).bind fun fields => Entries.get? fields (lit "response")

/-- The text that a client puts together while it reads. -/
def deltaText (events : List (Bytes × Option Json)) : Str :=
  events.flatMap fun e =>
    if e.1 = Sse.ascii "response.output_text.delta" then
      (((e.2.bind Json.obj?).map fun fields => Json.field fields "delta").bind Json.str?).getD []
    else []

/-- The values of a list in a dictionary. -/
def listField (v : Json) (key : String) : List Json :=
  (iterated (Json.field (v.obj?.getD []) key)).getD []

/-- The text of a response. -/
def outputText (response : Json) : Str :=
  (listField response "output").flatMap fun item =>
    (listField item "content").flatMap fun part =>
      ((Json.field (part.obj?.getD []) "text").str?).getD []

/-- A stream tells a client what a whole answer tells it. -/
structure Mirrors (F : FloatText) (depth : Nat) (answer : SolarAnswer)
    (whole streamed : PersonalResponse) (run : Yielded) : Prop where
  stream : streamed.stream = some run
  responseId : streamed.responseId = whole.responseId
  statusCode : streamed.statusCode = whole.statusCode
  finished : run.finished = true
  /-- A client reads every event of the answer, made of what the body is made of. -/
  events : ∃ draw createdAt model,
    readJson F depth whole.body = some (.obj (responsePayload draw createdAt model answer)) ∧
      readEvents F depth run.sent =
        (answerEvents draw createdAt model answer).map received ++ [([], none)]
  ended : (readEvents F depth run.sent).getLast? = some ([], none)
  read : (readJson F depth whole.body).isSome = true
  final : finalResponse (readEvents F depth run.sent) = readJson F depth whole.body
  text : (readJson F depth whole.body).map outputText = some answer.text
  deltas : deltaText (readEvents F depth run.sent) = answer.text

/-- A stream that breaks off before a client has any of the text. -/
structure BreaksOff (F : FloatText) (depth : Nat) (streamed : PersonalResponse) (run : Yielded) :
    Prop where
  stream : streamed.stream = some run
  finished : run.finished = false
  ended : ([], none) ∉ readEvents F depth run.sent
  final : finalResponse (readEvents F depth run.sent) = none
  deltas : deltaText (readEvents F depth run.sent) = []

/-- The two forms of an answer agree: both are refused, or the stream tells what the body tells,
or the text has no encoding and the stream breaks off where no body is made. -/
def Agree (F : FloatText) (depth : Nat) (answered : Except AnswerError SolarAnswer) :
    Except AnswerError PersonalResponse → Except AnswerError PersonalResponse → Prop
  | .ok whole, .ok streamed =>
      ∃ answer run, answered = .ok answer ∧ Mirrors F depth answer whole streamed run
  | .error .raised, .ok streamed => ∃ run, BreaksOff F depth streamed run
  | .error e, .error e' => answered = .error e ∧ e' = e
  | _, _ => False

section Deliveries

variable {P : Platform} {depth : Nat} {draw : AnswerDraw} {createdAt : Int} {model : Str}
  {answer : SolarAnswer}

/-- What a client reads of the stream of an answer. -/
theorem readEvents_stream (hF : P.float.Faithful) (hdepth : 7 ≤ depth) (draw : AnswerDraw)
    (createdAt : Int) (model : Str) (answer : SolarAnswer) :
    let run := stream P draw.messageId answer.text (responsePayload draw createdAt model answer)
    let events := answerEvents draw createdAt model answer
    run.finished = events.all (sendable P.float answerStyle) ∧
      readEvents P.float depth run.sent =
        (events.takeWhile (sendable P.float answerStyle)).map received ++
        if events.all (sendable P.float answerStyle) then [([], none)] else [] :=
  Sse.readEvents_jsonStream hF (by rfl) (legible_answerEvents hdepth)

/-- The events of an answer, all read. -/
theorem read_answerEvents (draw : AnswerDraw) (createdAt : Int) (model : Str)
    (answer : SolarAnswer) (rest : List (Bytes × Option Json)) :
    let events := (answerEvents draw createdAt model answer).map received ++ rest
    finalResponse events = some (.obj (responsePayload draw createdAt model answer)) ∧
      deltaText events = answer.text ++ deltaText rest := by
  constructor
  · simp +decide only [finalResponse, answerEvents, streamEvents, streamEvent, List.map_cons,
      List.map_nil, received, List.cons_append, List.nil_append, List.find?_cons_of_neg,
      List.find?_cons_of_pos, Option.bind_some, Json.obj?, Entries.get?, if_true, if_false]
  · simp +decide only [deltaText, answerEvents, streamEvents, streamEvent, List.map_cons,
      List.map_nil, received, List.cons_append, List.nil_append, List.flatMap_cons, if_true,
      if_false, Option.bind_some, Option.map_some, Json.obj?, Json.field, partPosition,
      Entries.get?, Option.getD_some, Json.str?]

theorem outputText_responsePayload :
    outputText (.obj (responsePayload draw createdAt model answer)) = answer.text := by
  simp +decide [outputText, listField, iterated, responsePayload, outputMessage, textPart,
    Json.field, Json.obj?, Entries.get?, Json.str?]

theorem verbatim_responsePayload {body : Bytes}
    (hbody : jsonBytes P.float answerStyle
      (.obj (responsePayload draw createdAt model answer)) = some body) :
    JsonText.Verbatim (.obj (responsePayload draw createdAt model answer)) := by
  have hencoded := Sse.isSome_jsonBytes_iff.mp (Option.isSome_of_eq_some hbody)
  rw [encoded_responsePayload_iff answerStyle rfl] at hencoded
  have hwell : (Json.obj (responsePayload draw createdAt model answer)).WellFormed := by
    have hmem : streamEvent "response.completed"
        [(lit "response", .obj (responsePayload draw createdAt model answer))] ∈
          answerEvents draw createdAt model answer := List.mem_of_getLast? rfl
    have hlast := wellFormed_answerEvents _ hmem
    rw [streamEvent, Json.WellFormed] at hlast
    exact Json.wellFormedFields_of_mem hlast.2 (lit "response", _) (.tail _ (.head _))
  exact JsonText.verbatim_of_encoded rfl rfl hwell
    ((encoded_responsePayload_iff (F := P.float) bodyStyle rfl).mpr hencoded)

theorem depth_responsePayload (draw : AnswerDraw) (createdAt : Int) (model : Str)
    (answer : SolarAnswer) :
    (Json.obj (responsePayload draw createdAt model answer)).depth ≤ 7 :=
  Nat.le_of_ble_eq_true rfl

theorem mirrors_stream (hF : P.float.Faithful) (hdepth : 7 ≤ depth) {body : Bytes}
    (hbody : jsonBytes P.float answerStyle
      (.obj (responsePayload draw createdAt model answer)) = some body) :
    let run := stream P draw.messageId answer.text (responsePayload draw createdAt model answer)
    Mirrors P.float depth answer ⟨body, lit "application/json", draw.responseId, 200, none⟩
      ⟨[], lit "text/event-stream", draw.responseId, 200, some run⟩ run := by
  have hall :
      (answerEvents draw createdAt model answer).all (sendable P.float answerStyle) = true :=
    all_sendable_iff.mpr (Sse.isSome_jsonBytes_iff.mp (by rw [hbody]; rfl))
  have htaken := List.takeWhile_eq_self_iff.mpr (List.all_eq_true.mp hall)
  obtain ⟨hfinished, hread⟩ := readEvents_stream hF hdepth draw createdAt model answer
  rw [htaken, hall, if_pos rfl] at hread
  obtain ⟨hfinal, hdeltas⟩ := read_answerEvents draw createdAt model answer [([], none)]
  have hjson : readJson P.float depth body =
      some (.obj (responsePayload draw createdAt model answer)) :=
    (Sse.read_jsonBytes hF (by rfl) (verbatim_responsePayload hbody) hbody
      ((depth_responsePayload draw createdAt model answer).trans hdepth)).2
  intro run
  constructor
  case stream => rfl
  case responseId => rfl
  case statusCode => rfl
  case finished => exact hfinished.trans hall
  case events => exact ⟨draw, createdAt, model, hjson, hread⟩
  case ended => rw [hread, List.getLast?_concat]
  case read => rw [hjson]; rfl
  case final => rw [hread, hfinal, hjson]
  case text => rw [hjson, Option.map_some, outputText_responsePayload]
  case deltas =>
    rw [hread, hdeltas]
    exact List.append_nil _

theorem breaksOff_stream (hF : P.float.Faithful) (hdepth : 7 ≤ depth)
    (hbody : jsonBytes P.float answerStyle
      (.obj (responsePayload draw createdAt model answer)) = none) :
    let run := stream P draw.messageId answer.text (responsePayload draw createdAt model answer)
    BreaksOff P.float depth
      ⟨[], lit "text/event-stream", draw.responseId, 200, some run⟩ run := by
  have hnot : ¬ JsonText.Encoded P.float answerStyle
      (.obj (responsePayload draw createdAt model answer)) := by
    rw [← Sse.isSome_jsonBytes_iff, hbody]
    exact Bool.false_ne_true
  have hall :
      ¬ (answerEvents draw createdAt model answer).all (sendable P.float answerStyle) = true :=
    fun h => hnot (all_sendable_iff.mp h)
  obtain ⟨hfinished, hread⟩ := readEvents_stream hF hdepth draw createdAt model answer
  rw [if_neg hall, List.append_nil] at hread
  intro run
  constructor
  case stream => rfl
  case finished => exact hfinished.trans (Bool.eq_false_iff.mpr hall)
  case ended =>
    rw [hread]
    intro hmem
    obtain ⟨e, -, he⟩ := List.mem_map.mp hmem
    exact Option.some_ne_none _ (Prod.mk.inj he).2
  case final =>
    -- Only the last event bears the name, and it has not been sent.
    rw [hread, finalResponse, List.find?_eq_none.mpr, Option.bind_none]
    intro x hx hname
    obtain ⟨e, he, rfl⟩ := List.mem_map.mp hx
    have hlast := eq_of_completed ((List.takeWhile_sublist _).subset he) (of_decide_eq_true hname)
    have hsent : sendable P.float answerStyle e = true := List.mem_takeWhile_imp he
    rw [sendable, Sse.isSome_jsonBytes_iff, hlast, JsonText.encoded_obj_iff rfl] at hsent
    exact hnot (hsent (lit "response", _) (by simp)).2
  case deltas =>
    -- A delta that is read has an encoding, and so has the first event before it.
    rw [hread, deltaText, List.flatMap_eq_nil_iff]
    intro x hx
    obtain ⟨e, he, rfl⟩ := List.mem_map.mp hx
    refine if_neg fun hname => hnot ?_
    have hevent := (List.takeWhile_sublist _).subset he
    have hsent : sendable P.float answerStyle e = true := List.mem_takeWhile_imp he
    have htext := encodable_of_delta hevent hname (Sse.isSome_jsonBytes_iff.mp hsent)
    obtain ⟨htime, hmodel, hcounts⟩ := encoded_first he
    exact (encoded_responsePayload_iff answerStyle rfl).mpr ⟨htime, hmodel, htext, hcounts⟩

theorem field_set_stream (payload : Entries Str Json) (v : Json) :
    Json.field (Entries.set payload (lit "stream") v) "stream" = v := by
  rw [Json.field, Entries.get?_set_self]
  rfl

end Deliveries

/-- Whatever the provider answers, a request is answered alike with and without a stream: it is
refused with the same error, or a client that reads the stream has at its end the response of the
body, and has put its text together from the pieces; and where the body cannot be encoded, the
stream breaks off before its last event, so that no client takes it for an answer. -/
theorem respond_agrees (H : RuntimeHost) (downstream : SolarResponsesDownstream)
    (upstream : Upstream) (draw : AnswerDraw) (now : ℚ) (payload : Entries Str Json)
    (more : Nat) :
    let P := H.interpreter.platform
    let respond (streams : Bool) := downstream.respond P upstream draw now
      (Entries.set payload (lit "stream") (.bool streams))
    Agree P.float (7 + more) (downstream.answer P upstream) (respond false) (respond true) := by
  intro P respond
  have hrespond (streams : Bool) : respond streams =
      (downstream.answer P upstream).bind (downstream.deliver P draw now
        (Entries.set payload (lit "stream") (.bool streams))) := rfl
  rw [hrespond, hrespond]
  cases hanswer : downstream.answer P upstream with
  | error e =>
      cases e <;> exact ⟨rfl, rfl⟩
  | ok answer =>
      simp only [Except.bind, SolarResponsesDownstream.deliver, field_set_stream]
      cases hbody : jsonBytes P.float answerStyle
          (.obj (responsePayload draw (truncate now) downstream.model answer)) with
      | none => exact ⟨_, breaksOff_stream H.faithful (Nat.le_add_right 7 more) hbody⟩
      | some body =>
          exact ⟨answer, _, rfl, mirrors_stream H.faithful (Nat.le_add_right 7 more) hbody⟩

end Reading

end MediaBridge.Personal
