import MediaBridge.Core.ChatFraming
import MediaBridge.Core.Contracts
import MediaBridge.Foundation.JsonCharacters
import MediaBridge.Foundation.JsonCut
import MediaBridge.Foundation.Sse

/-!
# Provider answers as Responses events

`_provider_responses_stream` in `media_bridge_gateway/downstream.py`: a completed answer of
a provider becomes the events of a stream of the Responses protocol.

## Implementation notes

A yield of the generator is the bytes of an event, or nothing when the event cannot be
written and the generator raises. The texts of an answer are encodable, since the caller
has written them as JSON before it makes the stream.
-/

namespace MediaBridge.Gateway

open Foundation MediaBridge.Core ChatStream

/-- The arguments of the generator and what it draws and reads from the clock. -/
structure ProviderAnswer where
  responseId : Str
  model : Str
  text : Str
  /-- `secrets.token_urlsafe(18)`. -/
  itemToken : Str
  createdAt : Int
  completedAt : Int
  responseId_encodable : responseId.encodable = true
  model_encodable : model.encodable = true
  text_encodable : text.encodable = true
  itemToken_urlSafe : itemToken.all urlSafeChar = true
  createdAt_written : JsonText.tooLong createdAt.natAbs = false
  completedAt_written : JsonText.tooLong completedAt.natAbs = false

namespace ProviderAnswer

variable (answer : ProviderAnswer)

def itemId : Str := lit "msg_" ++ answer.itemToken

/-- `empty_response`. -/
def emptyResponse : Entries Str Json :=
  [(lit "id", .str answer.responseId), (lit "object", .str (lit "response")),
    (lit "created_at", .int answer.createdAt), (lit "model", .str answer.model),
    (lit "status", .str (lit "in_progress")), (lit "output", .arr []), (lit "error", .null),
    (lit "incomplete_details", .null), (lit "usage", .null)]

/-- `output_text`. -/
def outputText : Entries Str Json :=
  [(lit "type", .str (lit "output_text")), (lit "text", .str answer.text),
    (lit "annotations", .arr []), (lit "logprobs", .arr [])]

/-- `output_item`. -/
def outputItem : Entries Str Json :=
  [(lit "id", .str answer.itemId), (lit "type", .str (lit "message")),
    (lit "status", .str (lit "completed")), (lit "role", .str (lit "assistant")),
    (lit "content", .arr [.obj answer.outputText])]

/-- `completed_response`. -/
def completedResponse : Entries Str Json :=
  Entries.set (Entries.set (Entries.set answer.emptyResponse (lit "status")
    (.str (lit "completed"))) (lit "completed_at") (.int answer.completedAt))
    (lit "output") (.arr [.obj answer.outputItem])

/-- `{**output_item, "status": "in_progress", "content": []}`. -/
def openedItem : Entries Str Json :=
  Entries.set (Entries.set answer.outputItem (lit "status") (.str (lit "in_progress")))
    (lit "content") (.arr [])

/-- `{**output_text, "text": ""}`. -/
def openedText : Entries Str Json := Entries.set answer.outputText (lit "text") (.str [])

/-- The indices of the one part of the one item. -/
def position : Entries Str Json :=
  [(lit "item_id", .str answer.itemId), (lit "output_index", .int 0),
    (lit "content_index", .int 0)]

/-- The events: the kind of each, and what its data hold besides kind and number. -/
def events : List (String × Entries Str Json) :=
  [("response.created", [(lit "response", .obj answer.emptyResponse)]),
    ("response.in_progress", [(lit "response", .obj answer.emptyResponse)]),
    ("response.output_item.added",
      [(lit "output_index", .int 0), (lit "item", .obj answer.openedItem)]),
    ("response.content_part.added", answer.position ++ [(lit "part", .obj answer.openedText)]),
    ("response.output_text.delta",
      answer.position ++ [(lit "delta", .str answer.text), (lit "logprobs", .arr [])]),
    ("response.output_text.done",
      answer.position ++ [(lit "text", .str answer.text), (lit "logprobs", .arr [])]),
    ("response.content_part.done", answer.position ++ [(lit "part", .obj answer.outputText)]),
    ("response.output_item.done",
      [(lit "output_index", .int 0), (lit "item", .obj answer.outputItem)]),
    ("response.completed", [(lit "response", .obj answer.completedResponse)])]

end ProviderAnswer

namespace ProviderStream

variable (P : Platform)

/-- `_canonical_json`; `none` is a `ValueError`. -/
def canonicalJson (v : Json) : Option Bytes := do
  let text ← JsonText.dumps P.float ⟨false, true, false⟩ v
  Utf8.encode text

/-- The data of an event. No payload holds one of the first two keys. -/
def eventData (kind : String) (sequenceNumber : Nat) (payload : Entries Str Json) : Json :=
  .obj ((lit "type", .str (lit kind)) :: (lit "sequence_number", .int sequenceNumber) :: payload)

/-- `event`. -/
def event (kind : String) (sequenceNumber : Nat) (payload : Entries Str Json) : Option Bytes :=
  (canonicalJson P (eventData kind sequenceNumber payload)).map
    (Sse.Reader.eventBytes (Sse.ascii kind))

/-- `_provider_responses_stream`, yield by yield. -/
def providerResponsesStream (answer : ProviderAnswer) : List (Option Bytes) :=
  answer.events.mapIdx fun i e => event P e.1 i e.2

end ProviderStream

end MediaBridge.Gateway
