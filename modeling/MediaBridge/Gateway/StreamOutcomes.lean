import MediaBridge.Foundation.JsonAscii
import MediaBridge.Gateway.Streams

/-!
# How streaming responses end

When a stream leaves follow-up state behind, and when an error of the provider reaches
the client as an event of its own.

## Implementation notes

On the responses route the wrapper that records the state is read to its end. On the
chat route the translation may stop before: `pulls` follows it to the end of the
provider's stream, or to where it stops.
-/

namespace MediaBridge.Gateway

open Foundation MediaBridge.Core ChatStream

variable {P : Platform}

/-- The translation after all chunks, unless it stops before. -/
def pulls (P : Platform) (state : Translator) : List Bytes → Option Translator
  | [] => some state
  | raw :: rest =>
      match (feed P state raw).2 with
      | .pull state => pulls P state rest
      | .finished => none
      | .raised _ => none

/-- The translation asks for every chunk, and for one more. -/
def Exhausts (P : Platform) (chunks : List Bytes) : Prop :=
  (∀ raw ∈ chunks, (Utf8.decode raw).isSome) ∧
    ∀ text, Utf8.decode chunks.flatten = some text → ¬ Settled P text

theorem Settled.append {s : Str} (h : Settled P s) (t : Str) : Settled P (s ++ t) := by
  obtain ⟨block, hblock, hsettles⟩ := h
  refine ⟨block, ?_, hsettles⟩
  rw [Str.splitBlocks_append]
  exact List.mem_append_left _ hblock

/-- The chunks are asked for to the end when they are UTF-8 and settle nothing. -/
theorem pulls_isSome_iff {text : Str} {frames : List Frame} {role : Bool} {chunks : List Bytes}
    (hrun : runBlocks P false (Str.splitBlocks text).1 = (frames, .pulling role)) :
    (pulls P ⟨(Str.splitBlocks text).2, role⟩ chunks).isSome ↔
      (∀ raw ∈ chunks, (Utf8.decode raw).isSome) ∧
        ∀ more, Utf8.decode chunks.flatten = some more → ¬ Settled P (text ++ more) := by
  induction chunks generalizing text frames role with
  | nil =>
      have hopen : ¬ Settled P text := by
        rw [settled_iff, not_not]
        exact ⟨role, by rw [hrun]⟩
      simp [pulls, Utf8.decode, Utf8.decodeWith, hopen]
  | cons raw rest ih =>
      rw [pulls, feed, List.forall_mem_cons, List.flatten_cons]
      cases hdecode : Utf8.decode raw with
      | none => simp
      | some t =>
          rw [Utf8.decode_append hdecode]
          have hwhole := runBlocks_more hrun t
          have hleft : (Str.splitBlocks (text ++ t)).2 =
              (Str.splitBlocks ((Str.splitBlocks text).2 ++ t)).2 := by
            rw [Str.splitBlocks_append]
          have hsettled (hend : ¬ ∃ role', (runBlocks P role
              (Str.splitBlocks ((Str.splitBlocks text).2 ++ t)).1).2 = .pulling role') :
              ¬ (((some t).isSome = true ∧ ∀ raw ∈ rest, (Utf8.decode raw).isSome = true) ∧
                ∀ more, (Utf8.decode rest.flatten).map (t ++ ·) = some more →
                  ¬ Settled P (text ++ more)) := by
            rintro ⟨⟨-, hrest⟩, hnone⟩
            obtain ⟨more, hmore⟩ := decode_flatten hrest
            apply hnone (t ++ more) (by rw [hmore]; rfl)
            rw [← List.append_assoc]
            apply Settled.append
            rw [settled_iff, hwhole]
            exact hend
          simp only
          cases hfed : runBlocks P role (Str.splitBlocks ((Str.splitBlocks text).2 ++ t)).1 with
          | mk fed ending =>
              rw [hfed] at hwhole hsettled
              cases ending with
              | pulling role' =>
                  simp only [← hleft]
                  rw [ih hwhole]
                  simp only [Option.isSome_some, true_and, Option.map_eq_some_iff,
                    List.append_assoc, forall_exists_index, and_imp,
                    forall_apply_eq_imp_iff₂]
              | finished => simpa using hsettled (by simp)
              | raised e => simpa using hsettled (by simp)

theorem pulls_fresh_isSome_iff (chunks : List Bytes) :
    (pulls P .fresh chunks).isSome ↔ Exhausts P chunks := by
  have h : (pulls P ⟨(Str.splitBlocks []).2, false⟩ chunks).isSome ↔ _ :=
    pulls_isSome_iff runBlocks_fresh
  simp only [List.nil_append] at h
  exact h

namespace Body

/-- The responses route hands over every chunk and comes to the end of the source. -/
theorem run_responses {b : Body} {state : Translator} (hroute : b.route = .responses)
    (hwaiting : b.waiting = []) (hafter : b.after = .pull state) :
    ∃ n, b.run P n =
      ({ b with rest := [], sent := b.sent ++ b.rest.map .raw } : Body).sourceEnds state := by
  obtain ⟨route, rest, ending, entry, waiting, after, sent, exhausted, commits⟩ := b
  simp only at hroute hwaiting hafter
  subst hroute hwaiting hafter
  induction rest generalizing sent with
  | nil =>
      refine ⟨1, ?_⟩
      simp [run, step]
  | cons raw rest ih =>
      obtain ⟨n, hn⟩ := ih (sent ++ [.raw raw])
      refine ⟨n + 2, ?_⟩
      simp only [List.map_cons, List.append_assoc, List.cons_append, List.nil_append] at hn ⊢
      rw [← hn, run_succ, run_succ]
      rfl

/-- The chat route comes to the end of the source, or stops without a record. -/
theorem run_chat {b : Body} {state : Translator} (hroute : b.route = .chat)
    (hwaiting : b.waiting = []) (hafter : b.after = .pull state) :
    (∀ state', pulls P state b.rest = some state' → ∃ n sent,
      b.run P n = ({ b with rest := [], sent := sent } : Body).sourceEnds state') ∧
    (pulls P state b.rest = none → ∃ n, (b.run P n).Drained ∧
      (b.run P n).commits = b.commits) := by
  obtain ⟨route, rest, ending, entry, waiting, after, sent, exhausted, commits⟩ := b
  simp only at hroute hwaiting hafter
  subst hroute hwaiting hafter
  induction rest generalizing sent state with
  | nil =>
      refine ⟨?_, ?_⟩
      · intro state' hstate
        cases hstate
        exact ⟨1, sent, by simp [run, step, sourceEnds, recordState]⟩
      · rintro ⟨⟩
  | cons raw rest ih =>
      simp only [pulls]
      have hfirst : (Body.mk .chat (raw :: rest) ending entry [] (.pull state) sent exhausted
          commits).run P 1 = (Body.mk .chat (raw :: rest) ending entry [] (.pull state) sent
            exhausted commits).receive P state raw rest := rfl
      unfold receive at hfirst
      cases hfed : feed P state raw with
      | mk frames next =>
          rw [hfed] at hfirst
          cases next with
          | pull state' =>
              simp only at hfirst
              have hready := run_waiting P ((Body.mk .chat (raw :: rest) ending entry []
                (.pull state) sent exhausted commits).run P 1)
              rw [hfirst] at hready
              simp only at hready
              rw [← hfirst, ← run_add] at hready
              obtain ⟨hsome, hnone⟩ := @ih state' (sent ++ frames.map .frame)
              simp only at hsome hnone ⊢
              constructor
              · intro final hfinal
                obtain ⟨n, sent', hn⟩ := hsome final hfinal
                refine ⟨n + ((frames.map Item.frame).length + 1), sent', ?_⟩
                rw [run_add, hready, hn]
                rfl
              · intro hnothing
                obtain ⟨n, hdrained, hcommits⟩ := hnone hnothing
                refine ⟨n + ((frames.map Item.frame).length + 1), ?_⟩
                rw [run_add, hready]
                exact ⟨hdrained, hcommits⟩
          | finished =>
              refine ⟨?_, fun _ => ?_⟩
              · rintro _ ⟨⟩
              have hready := run_waiting P ((Body.mk .chat (raw :: rest) ending entry []
                (.pull state) sent exhausted commits).run P 1)
              rw [← run_add, hfirst] at hready
              refine ⟨(frames.map Item.frame).length + 1, ?_⟩
              rw [hready]
              refine ⟨⟨rfl, ?_⟩, rfl⟩
              rintro _ ⟨⟩
          | raised e =>
              refine ⟨?_, fun _ => ?_⟩
              · rintro _ ⟨⟩
              have hready := run_waiting P ((Body.mk .chat (raw :: rest) ending entry []
                (.pull state) sent exhausted commits).run P 1)
              rw [← run_add, hfirst] at hready
              refine ⟨(frames.map Item.frame).length + 1, ?_⟩
              rw [hready]
              refine ⟨⟨rfl, ?_⟩, rfl⟩
              rintro _ ⟨⟩

/-- The end of the source, on either route, leads to the end of the body. -/
theorem drained_of_sourceEnds (P : Platform) (b : Body) (state : Translator) :
    ∃ n, ((b.sourceEnds state).run P n).Drained ∧
      ((b.sourceEnds state).run P n).commits = (b.sourceEnds state).commits := by
  refine ⟨(b.sourceEnds state).waiting.length, ?_⟩
  rw [run_waiting]
  refine ⟨⟨rfl, ?_⟩, rfl⟩
  unfold sourceEnds recordState
  simp only
  split <;> exact nofun

/-- The wrapper that records is read to the end of a stream that ends normally, and the
record is valid. -/
def Recording (P : Platform) (route : Route) (source : Source) (entry : StateEntry) : Prop :=
  source.ending = .ended ∧ GatewayStateStore.entryValid entry = true ∧
    (route = .chat → Exhausts P source.chunks)

/-- There is a run to the end, which records once or not at all. -/
theorem drained_run (P : Platform) (route : Route) (source : Source) (entry : StateEntry) :
    ∃ n, ((start route source entry).run P n).Drained ∧
      (((start route source entry).run P n).commits = 1 ↔
        Recording P route source entry) := by
  have hfinish {state : Translator} {sent : List Item} {n : Nat}
      (hn : (start route source entry).run P n =
        ({ start route source entry with rest := [], sent := sent } : Body).sourceEnds state) :
      ∃ n, ((start route source entry).run P n).Drained ∧
        (((start route source entry).run P n).commits = 1 ↔
          source.ending = .ended ∧ GatewayStateStore.entryValid entry = true) := by
    obtain ⟨m, hdrained, hcommits⟩ := drained_of_sourceEnds P
      ({ start route source entry with rest := [], sent := sent } : Body) state
    refine ⟨m + n, ?_⟩
    rw [run_add, hn]
    refine ⟨hdrained, ?_⟩
    rw [hcommits]
    unfold sourceEnds recordState
    cases hending : source.ending <;> cases route <;> simp [start, hending]
  cases route with
  | responses =>
      obtain ⟨n, hn⟩ := run_responses (P := P) (b := start .responses source entry) rfl rfl rfl
      obtain ⟨m, hdrained, hcommits⟩ := hfinish hn
      exact ⟨m, hdrained, by simpa [Recording] using hcommits⟩
  | chat =>
      obtain ⟨hsome, hnone⟩ := run_chat (P := P) (b := start .chat source entry) rfl rfl rfl
      have hexhausts := pulls_fresh_isSome_iff (P := P) source.chunks
      cases hpulls : pulls P .fresh source.chunks with
      | some state =>
          obtain ⟨n, sent, hn⟩ := hsome state hpulls
          obtain ⟨m, hdrained, hcommits⟩ := hfinish hn
          rw [hpulls] at hexhausts
          exact ⟨m, hdrained, by simpa [Recording, hexhausts.mp rfl] using hcommits⟩
      | none =>
          obtain ⟨n, hdrained, hcommits⟩ := hnone hpulls
          rw [hpulls] at hexhausts
          have hnot : ¬ Exhausts P source.chunks := by simpa using hexhausts
          refine ⟨n, hdrained, ?_⟩
          rw [hcommits]
          simp [start, Recording, hnot]

/-- Every run to the end records as this one does. -/
theorem commits_of_drained {route : Route} {source : Source} {entry : StateEntry} {n : Nat}
    (h : ((start route source entry).run P n).Drained) :
    ((start route source entry).run P n).commits = 1 ↔ Recording P route source entry := by
  obtain ⟨m, hdrained, hcommits⟩ := drained_run P route source entry
  rw [run_eq_of_drained h hdrained]
  exact hcommits

end Body

section Commits

/-- The data of an event is a dictionary whose type is `response.completed`. -/
def completedEvent (P : Platform) (event : Sse.Event) : Bool :=
  match Utf8.decode ((event.data.intersperse [Sse.lineFeed]).flatten) with
  | none => false
  | some data =>
      match JsonText.loads P.float P.jsonDepth data with
      | .ok (.obj body) => (Json.field body "type").isLit "response.completed"
      | _ => false

/-- Among the events of a stream is a completed response. -/
def Completes (P : Platform) (chunks : List Bytes) : Prop :=
  (Sse.readStream chunks.flatten).events.any (completedEvent P) = true

/-- The follow-up state is recorded once when the client drains a completed stream, and
never when the stream breaks or is left. -/
structure CommitsOnce (P : Platform) (route : Route) (source : Source) (entry : StateEntry) :
    Prop where
  drained : source.ending = .ended → Completes P source.chunks → ∀ n,
    ((Body.start route source entry).run P n).Drained →
      ((Body.start route source entry).run P n).commits = 1
  broken : ∀ n, source.ending ≠ .ended ∨
      ((Body.start route source entry).run P n).exhausted = false →
    ((Body.start route source entry).run P n).commits = 0

/-- A stream that breaks or is left records nothing, on either route. A completed one
is recorded exactly when the record is valid and, on the chat route, the translation
reads the provider's stream to its end. -/
theorem commitsOnce_iff (P : Platform) (route : Route) (source : Source) (entry : StateEntry) :
    CommitsOnce P route source entry ↔
      (source.ending = .ended → Completes P source.chunks →
        GatewayStateStore.entryValid entry = true ∧
          (route = .chat → Exhausts P source.chunks)) := by
  constructor
  · intro h hended hcompletes
    obtain ⟨n, hdrained, hcommits⟩ := Body.drained_run P route source entry
    exact (hcommits.mp (h.drained hended hcompletes n hdrained)).2
  · intro h
    refine ⟨?_, ?_⟩
    · intro hended hcompletes n hdrained
      exact (Body.commits_of_drained hdrained).mpr ⟨hended, h hended hcompletes⟩
    · intro n hbroken
      have hsparing := Body.run_induction (P := P) (fun b hb => hb.step)
        (Body.sparing_start route source entry) n
      obtain ⟨-, hending, -⟩ := Body.run_fixed (P := P) (Body.start route source entry) n
      by_contra hne
      obtain ⟨hexhausted, hended⟩ := hsparing.ended hne
      rcases hbroken with hsource | hleft
      · exact hsource (hending.symm.trans hended)
      · rw [hleft] at hexhausted
        cases hexhausted

/-- A record that the store accepts. -/
def sampleEntry : StateEntry where
  responseId := lit "resp_1"
  tenantId := lit "tenant"
  credentialSelector := lit "key-1"
  sanitizedText := lit "hello"
  mediaTainted := false
  mediaModalities := ∅
  targetId := lit "text-model"
  snapshotVersion := 1

/-- The chat route does not record a completed stream that the client drains. -/
theorem chat_completed_not_recorded :
    GatewayStateStore.entryValid sampleEntry = true ∧
      Completes .sample sampleCompleted ∧
      ¬ CommitsOnce .sample .chat ⟨sampleCompleted, .ended⟩ sampleEntry := by
  have hcompletes : Completes .sample sampleCompleted := by
    unfold Completes
    decide +kernel
  refine ⟨by decide +kernel, hcompletes, ?_⟩
  intro h
  let final := (Body.start .chat ⟨sampleCompleted, .ended⟩ sampleEntry).run .sample 6
  have hfinal : final.waiting = [] ∧ final.after = .returned ∧ final.commits = 0 := by
    decide +kernel
  have hdrained : final.Drained := by
    refine ⟨hfinal.1, ?_⟩
    rw [hfinal.2.1]
    exact nofun
  have hcommits := h.drained rfl hcompletes 6 hdrained
  rw [hfinal.2.2] at hcommits
  cases hcommits

end Commits

section Errors

/-- The data of the event for an error. -/
def errorData (P : Platform) (code safeMessage : Str) : Option Bytes := do
  let text ← JsonText.dumps P.float ⟨true, false, true⟩
    (.obj [(lit "type", .str (lit "media_bridge.error")),
      (lit "error", .obj [(lit "code", .str code), (lit "message", .str safeMessage)])])
  Utf8.encode text

def errorName : Bytes := Sse.ascii "media_bridge.error"

/-- The bytes of an item; `none` is an error of the encoding. -/
def Item.bytes (P : Platform) (ctx : Context) (created : Int) : Item → Option Bytes
  | .raw data => some data
  | .frame f => (f.output ctx created).bytes P
  | .errorEvent code safeMessage =>
      (errorData P code safeMessage).map (Sse.Reader.eventBytes errorName)

/-- What the client has been sent. -/
def Body.bytes (P : Platform) (ctx : Context) (created : Int) (b : Body) : Option Bytes :=
  (b.sent.mapM (Item.bytes P ctx created)).map List.flatten

/-- The reader of the client is at a place where an event of its own can start. -/
def Boundary (data : Bytes) : Prop :=
  ((Sse.readStream data).named errorName).eventType = errorName ∧
    ((Sse.readStream data).named errorName).data = []

/-- An error of the provider ends the body as an error event that the client can read:
the body returns, the event is the last thing sent and the last event read, and nothing
is recorded. -/
structure Contained (P : Platform) (ctx : Context) (created : Int) (route : Route)
    (source : Source) (entry : StateEntry) : Prop where
  returns : ∃ n, ((Body.start route source entry).run P n).Returned
  terminal : ∀ n, ((Body.start route source entry).run P n).Returned →
    ∃ before code safeMessage data bytes,
      ((Body.start route source entry).run P n).sent =
        before ++ [.errorEvent code safeMessage] ∧
      errorData P code safeMessage = some data ∧
      ((Body.start route source entry).run P n).bytes P ctx created = some bytes ∧
      (Sse.readStream bytes).events.getLast? = some ⟨errorName, [data]⟩
  unrecorded : ∀ n, ((Body.start route source entry).run P n).commits = 0

/-- The data of an error event is one line of ASCII. -/
theorem errorData_eq_some (P : Platform) (code safeMessage : Str) :
    ∃ data, errorData P code safeMessage = some data ∧ Sse.Reader.Plain data := by
  let text : Str := JsonText.openBrace ::
    Str.join [JsonText.comma]
      [JsonText.memberText true (lit "type", JsonText.stringText true (lit "media_bridge.error")),
        JsonText.memberText true (lit "error", JsonText.openBrace ::
          Str.join [JsonText.comma]
            [JsonText.memberText true (lit "code", JsonText.stringText true code),
              JsonText.memberText true (lit "message", JsonText.stringText true safeMessage)] ++
          [JsonText.closeBrace])] ++ [JsonText.closeBrace]
  have hdumps : JsonText.dumps P.float ⟨true, false, true⟩
      (.obj [(lit "type", .str (lit "media_bridge.error")),
        (lit "error", .obj [(lit "code", .str code), (lit "message", .str safeMessage)])]) =
      some text := rfl
  have hmember {key value : Str} (hvalue : JsonText.Printable value) :
      JsonText.Printable (JsonText.memberText true (key, value)) := by
    refine .append (.append (JsonText.stringText_printable key) ?_) hvalue
    exact .cons (by decide) JsonText.printable_nil
  have hpair {s t : Str} (hs : JsonText.Printable s) (ht : JsonText.Printable t) :
      JsonText.Printable (JsonText.openBrace :: Str.join [JsonText.comma] [s, t] ++
        [JsonText.closeBrace]) := by
    refine .append (.cons (by decide) ?_) (.cons (by decide) JsonText.printable_nil)
    rw [Str.join_cons_cons, Str.join_singleton]
    exact .append (.append hs (.cons (by decide) JsonText.printable_nil)) ht
  have htext : JsonText.Printable text :=
    hpair (hmember (JsonText.stringText_printable _))
      (hmember (hpair (hmember (JsonText.stringText_printable _))
        (hmember (JsonText.stringText_printable _))))
  refine ⟨text.map fun c => Utf8.byte c.val, ?_, ?_⟩
  · rw [errorData, hdumps]
    exact Utf8.encode_ascii htext.ascii
  · intro b hb
    obtain ⟨c, hc, rfl⟩ := List.mem_map.mp hb
    obtain ⟨hlow, hhigh⟩ := htext c hc
    have hval : (Utf8.byte c.val).val = c.val := Utf8.val_byte_of_lt (by omega)
    constructor
    · intro heq
      rw [heq] at hval
      change (10 : Nat) = c.val at hval
      omega
    · intro heq
      rw [heq] at hval
      change (13 : Nat) = c.val at hval
      omega

theorem plain_errorName : Sse.Reader.Plain errorName := by
  unfold Sse.Reader.Plain
  decide +kernel

/-- How the client reads an error event after other bytes. -/
theorem readStream_error (data : Bytes) {text : Bytes} (htext : Sse.Reader.Plain text) :
    (Sse.readStream (data ++ Sse.Reader.eventBytes errorName text)).events.getLast? =
      some ⟨((Sse.readStream data).named errorName).eventType,
        ((Sse.readStream data).named errorName).data ++ [text]⟩ := by
  have hhead : (Sse.Reader.eventBytes errorName text).head? = some 101 := rfl
  rw [Sse.readStream, Sse.dropMark_append hhead, Sse.Reader.read_append,
    Sse.Reader.read_eventBytes _ plain_errorName htext]
  exact List.getLast?_concat

/-- What the responses route sends when the provider fails. -/
theorem returned_responses (P : Platform) {source : Source} (entry : StateEntry)
    {code safeMessage : Str} (herror : source.ending = .downstreamError code safeMessage) :
    ∃ n, ((Body.start .responses source entry).run P n).Returned ∧
      ((Body.start .responses source entry).run P n).sent =
        source.chunks.map .raw ++ [.errorEvent code safeMessage] := by
  obtain ⟨n, hn⟩ := Body.run_responses (P := P) (b := Body.start .responses source entry)
    rfl rfl rfl
  refine ⟨1 + n, ?_⟩
  rw [Body.run_add, hn]
  unfold Body.sourceEnds
  simp only [Body.start, herror, List.nil_append]
  exact ⟨⟨rfl, rfl⟩, rfl⟩

theorem mapM_bytes_raw (P : Platform) (ctx : Context) (created : Int) (chunks : List Bytes) :
    (chunks.map Item.raw).mapM (Item.bytes P ctx created) = some chunks := by
  induction chunks with
  | nil => rfl
  | cons raw rest ih =>
      rw [List.map_cons, List.mapM_cons, ih]
      rfl

/-- The bytes of the chunks and of the event after them. -/
theorem bytes_of_sent {ctx : Context} {created : Int} {b : Body}
    {chunks : List Bytes} {code safeMessage : Str} {data : Bytes}
    (hsent : b.sent = chunks.map .raw ++ [.errorEvent code safeMessage])
    (hdata : errorData P code safeMessage = some data) :
    b.bytes P ctx created =
      some (chunks.flatten ++ Sse.Reader.eventBytes errorName data) := by
  rw [Body.bytes, hsent, List.mapM_append, mapM_bytes_raw]
  simp [Item.bytes, hdata]

/-- An error of the provider is contained exactly on the responses route, when what was
sent before leaves the client where an event of its own can start. -/
theorem contained_iff (P : Platform) (ctx : Context) (created : Int) (route : Route)
    (source : Source) (entry : StateEntry) (code safeMessage : Str)
    (herror : source.ending = .downstreamError code safeMessage) :
    Contained P ctx created route source entry ↔
      route = .responses ∧ Boundary source.chunks.flatten := by
  obtain ⟨data, hdata, hplain⟩ := errorData_eq_some P code safeMessage
  constructor
  · intro h
    obtain ⟨n, hreturned⟩ := h.returns
    obtain ⟨before, code', message', data', bytes, hsent, hdata', hbytes, hlast⟩ :=
      h.terminal n hreturned
    cases route with
    | chat =>
        have hframes := Body.run_induction (P := P) (fun b hb => hb.step)
          (Body.framesOnly_start source entry) n
        have hlastItem := hframes.sent (.errorEvent code' message') (by rw [hsent]; simp)
        obtain ⟨frame, hframe⟩ := hlastItem
        cases hframe
    | responses =>
        refine ⟨rfl, ?_⟩
        obtain ⟨m, hreturned', hsent'⟩ := returned_responses P entry herror
        rw [Body.run_eq_of_drained hreturned.drained hreturned'.drained] at hsent hbytes
        rw [hsent'] at hsent
        obtain ⟨-, heq⟩ := List.append_inj' hsent rfl
        cases heq
        rw [hdata] at hdata'
        cases hdata'
        rw [bytes_of_sent hsent' hdata] at hbytes
        cases hbytes
        rw [readStream_error _ hplain] at hlast
        simp only [Option.some.injEq, Sse.Event.mk.injEq] at hlast
        refine ⟨hlast.1, ?_⟩
        exact List.self_eq_append_left.mp hlast.2.symm
  · rintro ⟨rfl, htype, hdataLines⟩
    obtain ⟨m, hreturned', hsent'⟩ := returned_responses P entry herror
    refine ⟨⟨m, hreturned'⟩, ?_, ?_⟩
    · intro n hreturned
      rw [Body.run_eq_of_drained hreturned.drained hreturned'.drained]
      refine ⟨_, code, safeMessage, data, _, hsent', hdata, bytes_of_sent hsent' hdata, ?_⟩
      rw [readStream_error _ hplain, htype, hdataLines]
      rfl
    · intro n
      have hsparing := Body.run_induction (P := P) (fun b hb => hb.step)
        (Body.sparing_start .responses source entry) n
      obtain ⟨-, hending, -⟩ :=
        Body.run_fixed (P := P) (Body.start .responses source entry) n
      by_contra hne
      have hended := (hsparing.ended hne).2
      rw [hending] at hended
      change source.ending = _ at hended
      rw [herror] at hended
      cases hended

/-- A provider's stream that breaks after a whole event. -/
def sampleBroken : Source := ⟨[sampleDelta], .downstreamError (lit "timeout") (lit "Too slow.")⟩

/-- On the responses route an error after a whole event is contained. -/
theorem contained_sample :
    Contained .sample sampleContext 0 .responses sampleBroken sampleEntry := by
  have hboundary : Boundary sampleBroken.chunks.flatten := by
    unfold Boundary
    decide +kernel
  exact (contained_iff .sample sampleContext 0 .responses sampleBroken sampleEntry
    (lit "timeout") (lit "Too slow.") rfl).mpr ⟨rfl, hboundary⟩

/-- On the chat route the same error leaves the body as an exception. -/
theorem chat_error_escapes :
    Boundary sampleBroken.chunks.flatten ∧
      ((Body.start .chat sampleBroken sampleEntry).run .sample 6).after =
        .raised (.downstream (lit "timeout") (lit "Too slow.")) ∧
      ¬ Contained .sample sampleContext 0 .chat sampleBroken sampleEntry := by
  have hboundary : Boundary sampleBroken.chunks.flatten := by
    unfold Boundary
    decide +kernel
  have hfinal : ((Body.start .chat sampleBroken sampleEntry).run .sample 6).waiting = [] ∧
      ((Body.start .chat sampleBroken sampleEntry).run .sample 6).after =
        .raised (.downstream (lit "timeout") (lit "Too slow.")) := by
    decide +kernel
  refine ⟨hboundary, hfinal.2, ?_⟩
  intro h
  obtain ⟨n, hreturned⟩ := h.returns
  have hdrained : ((Body.start .chat sampleBroken sampleEntry).run .sample 6).Drained := by
    refine ⟨hfinal.1, ?_⟩
    rw [hfinal.2]
    exact nofun
  have hafter := hreturned.2
  rw [Body.run_eq_of_drained hreturned.drained hdrained, hfinal.2] at hafter
  cases hafter

end Errors

end MediaBridge.Gateway
