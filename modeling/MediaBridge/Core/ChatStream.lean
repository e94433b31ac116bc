import MediaBridge.Core.Receipts
import MediaBridge.Foundation.Lines

/-!
# Responses events as a chat stream

`chat_stream_from_responses` in `media_bridge/openai_chat.py`: server-sent events of
the Responses protocol become chunks of a chat completion.

## Implementation notes

A `Frame` is one `yield` of the generator; its bytes depend on the clock, which
`Frame.output` and `Frame.bytes` take as an argument. The generator is cut where it
asks its source for the next chunk: `feed` is the work on one chunk, `closing` what
follows the end of the source.
-/

namespace MediaBridge.Core

open Foundation

namespace ChatStream

/-- The identifiers that every chunk repeats; both come out of checked patterns. -/
structure Context where
  responseId : Str
  requestModel : Str
  responseId_encodable : responseId.encodable = true
  requestModel_encodable : requestModel.encodable = true

/-- Why the generator raises. -/
inductive StreamError
  | unicodeDecode
  | unicodeEncode
  | integerTooLong
  | recursion
deriving DecidableEq

/-- What the generator yields. -/
inductive Frame
  | role
  | content (delta : Str)
  | stop
  | done
deriving DecidableEq

/-- The dictionary of a chunk. -/
def chunkBody (ctx : Context) (created : Int) (delta : Json) (finishReason : Json) : Json :=
  .obj [(lit "id", .str ctx.responseId), (lit "object", .str (lit "chat.completion.chunk")),
    (lit "created", .int created), (lit "model", .str ctx.requestModel),
    (lit "choices", .arr [.obj [(lit "index", .int 0), (lit "delta", delta),
      (lit "finish_reason", finishReason)]])]

/-- A frame as the client reads it: a chunk, or the mark of the end. -/
inductive Output
  | chunk (body : Json)
  | done

/-- What a frame says when it is made at the time `created`. -/
def Frame.output (ctx : Context) (created : Int) : Frame → Output
  | .role => .chunk (chunkBody ctx created
      (.obj [(lit "role", .str (lit "assistant")), (lit "content", .str [])]) .null)
  | .content delta => .chunk (chunkBody ctx created (.obj [(lit "content", .str delta)]) .null)
  | .stop => .chunk (chunkBody ctx created (.obj []) (.str (lit "stop")))
  | .done => .done

/-- The bytes of an output; `none` is an error of `json.dumps` or of `str.encode`. -/
def Output.bytes (P : Platform) : Output → Option Bytes
  | .chunk body => do
      let text ← JsonText.dumps P.float ⟨false, false, true⟩ body
      Utf8.encode (lit "data: " ++ text ++ lit "\n\n")
  | .done => Utf8.encode (lit "data: [DONE]\n\n")

/-- What a block of the source asks for. -/
inductive Event
  | ended
  | delta (text : Str)
  | completed
  | ignored
deriving DecidableEq

/-- The event of a decoded dictionary. -/
def eventOfBody (body : Entries Str Json) : Event :=
  if (Json.field body "type").isLit "response.output_text.delta" then
    match (Json.field body "delta").str? with
    | some text => .delta text
    | none => .ignored
  else if (Json.field body "type").isLit "response.completed" then .completed
  else .ignored

/-- `line[5:].strip()` of the lines that start with `data:`. -/
def dataLines (block : Str) : List Str :=
  ((Str.splitlines block).filter fun line => Str.startsWith line (lit "data:")).map
    fun line => Str.strip (line.drop 5)

/-- The data of a block, read. -/
def readData (P : Platform) (data : Str) : Except StreamError Event :=
  if data = lit "[DONE]" then .ok .ended
  else
    match JsonText.loads P.float P.jsonDepth data with
    | .error .decode => .ok .ignored
    | .error .intTooLong => .error .integerTooLong
    | .error .recursion => .error .recursion
    | .ok (.obj body) => .ok (eventOfBody body)
    | .ok _ => .ok .ignored

/-- A block of the source, read. -/
def readBlock (P : Platform) (block : Str) : Except StreamError Event :=
  match dataLines block with
  | [] => .ok .ignored
  | line :: lines => readData P (Str.join (lit "\n") (line :: lines))

/-- The role comes before anything else. -/
def opening (emittedRole : Bool) : List Frame := if emittedRole then [] else [.role]

/-- How the work on some blocks ends: ready for more, with the role emitted or not;
finished; or with an error. -/
inductive BlocksEnd
  | pulling (emittedRole : Bool)
  | finished
  | raised (e : StreamError)
deriving DecidableEq

/-- The inner loop over the blocks. -/
def runBlocks (P : Platform) (emittedRole : Bool) : List Str → List Frame × BlocksEnd
  | [] => ([], .pulling emittedRole)
  | block :: rest =>
      match readBlock P block with
      | .error e => ([], .raised e)
      | .ok .ended => ([], .finished)
      | .ok .ignored => runBlocks P emittedRole rest
      | .ok .completed => (opening emittedRole ++ [.stop, .done], .finished)
      | .ok (.delta text) =>
          if text.encodable then
            let r := runBlocks P true rest
            (opening emittedRole ++ .content text :: r.1, r.2)
          else (opening emittedRole, .raised .unicodeEncode)

/-- The local variables of the generator between two chunks. -/
structure Translator where
  buffer : Str
  emittedRole : Bool
deriving DecidableEq

def Translator.fresh : Translator := ⟨[], false⟩

/-- The generator asks for the next chunk, has finished, or has raised. -/
inductive Next
  | pull (state : Translator)
  | finished
  | raised (e : StreamError)
deriving DecidableEq

/-- The body of the loop over the source. -/
def feed (P : Platform) (state : Translator) (raw : Bytes) : List Frame × Next :=
  match Utf8.decode raw with
  | none => ([], .raised .unicodeDecode)
  | some text =>
      let blocks := Str.splitBlocks (state.buffer ++ text)
      match runBlocks P state.emittedRole blocks.1 with
      | (frames, .pulling emittedRole) => (frames, .pull ⟨blocks.2, emittedRole⟩)
      | (frames, .finished) => (frames, .finished)
      | (frames, .raised e) => (frames, .raised e)

/-- What follows the end of the source. -/
def closing (emittedRole : Bool) : List Frame := opening emittedRole ++ [.stop, .done]

/-- How the generator ends. -/
inductive Ending
  | returned
  | raised (e : StreamError)
deriving DecidableEq

/-- The whole run over a source that yields the chunks and then ends. -/
def translate (P : Platform) (state : Translator) : List Bytes → List Frame × Ending
  | [] => (closing state.emittedRole, .returned)
  | raw :: rest =>
      match feed P state raw with
      | (frames, .pull state) =>
          let r := translate P state rest
          (frames ++ r.1, r.2)
      | (frames, .finished) => (frames, .returned)
      | (frames, .raised e) => (frames, .raised e)

/-- The run over a whole text, without chunks. -/
def translateText (P : Platform) (text : Str) : List Frame × Ending :=
  match runBlocks P false (Str.splitBlocks text).1 with
  | (frames, .pulling emittedRole) => (frames ++ closing emittedRole, .returned)
  | (frames, .finished) => (frames, .returned)
  | (frames, .raised e) => (frames, .raised e)

/-- The block ends the translation, by finishing it or by an error. -/
def settles (P : Platform) (block : Str) : Bool :=
  match readBlock P block with
  | .error _ => true
  | .ok .ended => true
  | .ok .completed => true
  | .ok (.delta text) => !text.encodable
  | .ok .ignored => false

/-- A complete block of the text ends the translation. -/
def Settled (P : Platform) (text : Str) : Prop :=
  ∃ block ∈ (Str.splitBlocks text).1, settles P block = true

/-- Until the translation has ended, every chunk is UTF-8 by itself. -/
def ReadableCut (P : Platform) : Str → List Bytes → Prop
  | _, [] => True
  | text, raw :: rest =>
      Settled P text ∨ ∃ more, Utf8.decode raw = some more ∧ ReadableCut P (text ++ more) rest

section Blocks

variable {P : Platform}

/-- Blocks are worked on one after the other. -/
theorem runBlocks_append (emittedRole : Bool) (blocks more : List Str) :
    runBlocks P emittedRole (blocks ++ more) =
      match runBlocks P emittedRole blocks with
      | (frames, .pulling emittedRole) =>
          (frames ++ (runBlocks P emittedRole more).1, (runBlocks P emittedRole more).2)
      | (frames, .finished) => (frames, .finished)
      | (frames, .raised e) => (frames, .raised e) := by
  induction blocks generalizing emittedRole with
  | nil => rfl
  | cons block rest ih =>
      rw [List.cons_append, runBlocks, runBlocks]
      cases hread : readBlock P block with
      | error e => rfl
      | ok event =>
          cases event with
          | ended => rfl
          | completed => rfl
          | ignored => exact ih emittedRole
          | delta text =>
              simp only
              split
              · rw [ih true]
                rcases runBlocks P true rest with ⟨frames, emittedRole | - | e⟩
                · simp
                · rfl
                · rfl
              · rfl

/-- The translation goes on exactly while no block settles it. -/
theorem runBlocks_pulling_iff (emittedRole : Bool) (blocks : List Str) :
    (∃ role, (runBlocks P emittedRole blocks).2 = .pulling role) ↔
      ∀ block ∈ blocks, settles P block = false := by
  induction blocks generalizing emittedRole with
  | nil => simp [runBlocks]
  | cons block rest ih =>
      rw [runBlocks, List.forall_mem_cons, settles]
      cases hread : readBlock P block with
      | error e => simp
      | ok event =>
          cases event with
          | ended => simp
          | completed => simp
          | ignored => simpa using ih emittedRole
          | delta text =>
              cases htext : text.encodable with
              | true => simpa [htext] using ih true
              | false => simp [htext]

end Blocks

end ChatStream

end MediaBridge.Core
