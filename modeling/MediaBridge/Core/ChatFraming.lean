import MediaBridge.Core.ChatStream
import MediaBridge.Foundation.Utf8

/-!
# Cutting and framing of the chat stream

Two results on `chat_stream_from_responses`: which ways of cutting a stream into chunks
do not matter, and which streams give a well framed chat completion.

## Implementation notes

Both are read off `translateText`, the run over a text without chunks. A reader of
chunks keeps only what follows the last complete block, and that is enough to continue
as the whole text would.
-/

namespace MediaBridge.Core.ChatStream

open Foundation

variable {P : Platform}

section Cutting

theorem settled_iff {text : Str} :
    Settled P text ↔
      ¬ ∃ role, (runBlocks P false (Str.splitBlocks text).1).2 = .pulling role := by
  rw [runBlocks_pulling_iff, Settled]
  push Not
  simp

/-- No block is read as bytes that are no UTF-8. -/
theorem runBlocks_ne_unicodeDecode (emittedRole : Bool) (blocks : List Str) :
    (runBlocks P emittedRole blocks).2 ≠ .raised .unicodeDecode := by
  induction blocks generalizing emittedRole with
  | nil => simp [runBlocks]
  | cons block rest ih =>
      rw [runBlocks]
      cases hread : readBlock P block with
      | error e =>
          unfold readBlock at hread
          split at hread
          · cases hread
          · unfold readData at hread
            split at hread
            · cases hread
            · split at hread
              · cases hread
              · cases hread
                simp
              · cases hread
                simp
              · cases hread
              · cases hread
      | ok event =>
          cases event with
          | ended => simp
          | completed => simp
          | ignored => exact ih emittedRole
          | delta text =>
              simp only
              split
              · exact ih true
              · simp

theorem translateText_ne_unicodeDecode (text : Str) :
    (translateText P text).2 ≠ .raised .unicodeDecode := by
  have h := runBlocks_ne_unicodeDecode (P := P) false (Str.splitBlocks text).1
  unfold translateText
  split
  · simp
  · simp
  · rename_i frames e hrun
    rw [hrun] at h
    simpa using h

/-- The blocks of more text are worked on after those of the text before it. -/
theorem runBlocks_more {text : Str} {frames : List Frame} {role : Bool}
    (hrun : runBlocks P false (Str.splitBlocks text).1 = (frames, .pulling role)) (t : Str) :
    runBlocks P false (Str.splitBlocks (text ++ t)).1 =
      (frames ++ (runBlocks P role (Str.splitBlocks ((Str.splitBlocks text).2 ++ t)).1).1,
        (runBlocks P role (Str.splitBlocks ((Str.splitBlocks text).2 ++ t)).1).2) := by
  rw [Str.splitBlocks_append, runBlocks_append, hrun]

/-- From the state after some text, readable chunks are translated as the whole text. -/
theorem translate_of_readable {text more : Str} {frames : List Frame} {role : Bool}
    {chunks : List Bytes}
    (hrun : runBlocks P false (Str.splitBlocks text).1 = (frames, .pulling role))
    (hmore : Utf8.decode chunks.flatten = some more) (hcut : ReadableCut P text chunks) :
    (frames ++ (translate P ⟨(Str.splitBlocks text).2, role⟩ chunks).1,
      (translate P ⟨(Str.splitBlocks text).2, role⟩ chunks).2) =
        translateText P (text ++ more) := by
  induction chunks generalizing text more frames role with
  | nil =>
      obtain rfl : [] = more := by simpa [Utf8.decode, Utf8.decodeWith] using hmore
      rw [List.append_nil, translateText, hrun]
      rfl
  | cons raw rest ih =>
      have hopen : ¬ Settled P text := by
        rw [settled_iff, not_not]
        exact ⟨role, by rw [hrun]⟩
      obtain ⟨t, ht, hcut⟩ := hcut.resolve_left hopen
      rw [List.flatten_cons, Utf8.decode_append ht] at hmore
      obtain ⟨more', hmore', rfl⟩ := Option.map_eq_some_iff.mp hmore
      have hwhole := runBlocks_more hrun t
      have hleft : (Str.splitBlocks (text ++ t)).2 =
          (Str.splitBlocks ((Str.splitBlocks text).2 ++ t)).2 := by
        rw [Str.splitBlocks_append]
      rw [← List.append_assoc, translate, feed, ht]
      simp only
      have hlater := runBlocks_append (P := P) false (Str.splitBlocks (text ++ t)).1
        (Str.splitBlocks ((Str.splitBlocks (text ++ t)).2 ++ more')).1
      rw [hwhole] at hlater
      cases hfed : runBlocks P role (Str.splitBlocks ((Str.splitBlocks text).2 ++ t)).1 with
      | mk fed ending =>
          rw [hfed] at hwhole hlater
          cases ending with
          | pulling role' =>
              rw [← ih hwhole hmore' hcut, hleft, List.append_assoc]
          | finished =>
              rw [translateText, Str.splitBlocks_append (text ++ t) more', hlater]
          | raised e =>
              rw [translateText, Str.splitBlocks_append (text ++ t) more', hlater]

/-- Otherwise the generator meets a chunk that it cannot decode. -/
theorem translate_of_not_readable {text : Str} {frames : List Frame} {role : Bool}
    {chunks : List Bytes}
    (hrun : runBlocks P false (Str.splitBlocks text).1 = (frames, .pulling role))
    (hcut : ¬ ReadableCut P text chunks) :
    (translate P ⟨(Str.splitBlocks text).2, role⟩ chunks).2 = .raised .unicodeDecode := by
  induction chunks generalizing text frames role with
  | nil => exact absurd trivial hcut
  | cons raw rest ih =>
      rw [ReadableCut, not_or] at hcut
      obtain ⟨-, hcut⟩ := hcut
      rw [translate, feed]
      cases ht : Utf8.decode raw with
      | none => rfl
      | some t =>
          have hrest : ¬ ReadableCut P (text ++ t) rest := fun h => hcut ⟨t, ht, h⟩
          have hopen : ¬ Settled P (text ++ t) := by
            intro hsettled
            cases rest with
            | nil => exact hrest trivial
            | cons raw' rest => exact hrest (.inl hsettled)
          rw [settled_iff, not_not] at hopen
          obtain ⟨role', hrole'⟩ := hopen
          have hwhole := runBlocks_more hrun t
          have hleft : (Str.splitBlocks (text ++ t)).2 =
              (Str.splitBlocks ((Str.splitBlocks text).2 ++ t)).2 := by
            rw [Str.splitBlocks_append]
          have hend := congrArg Prod.snd hwhole
          rw [hrole'] at hend
          simp only
          cases hfed : runBlocks P role (Str.splitBlocks ((Str.splitBlocks text).2 ++ t)).1 with
          | mk fed ending =>
              rw [hfed] at hend hwhole
              simp only at hend
              subst hend
              rw [← hleft]
              exact ih hwhole hrest

theorem runBlocks_fresh : runBlocks P false (Str.splitBlocks []).1 = ([], .pulling false) := rfl

/-- Readable chunks are translated as the text they hold. -/
theorem translate_eq_translateText {chunks : List Bytes} {text : Str}
    (hdecode : Utf8.decode chunks.flatten = some text) (hcut : ReadableCut P [] chunks) :
    translate P .fresh chunks = translateText P text := by
  have h := translate_of_readable runBlocks_fresh hdecode hcut
  rw [List.nil_append, List.nil_append] at h
  exact h

theorem translate_single {data : Bytes} {text : Str} (hdecode : Utf8.decode data = some text) :
    translate P .fresh [data] = translateText P text := by
  apply translate_eq_translateText
  · simpa using hdecode
  · exact .inr ⟨text, hdecode, trivial⟩

/-- A cut of a UTF-8 stream is translated as the uncut stream exactly when every chunk
that the generator asks for is UTF-8 by itself. -/
theorem translate_eq_uncut_iff {chunks : List Bytes} {text : Str}
    (hdecode : Utf8.decode chunks.flatten = some text) :
    translate P .fresh chunks = translate P .fresh [chunks.flatten] ↔
      ReadableCut P [] chunks := by
  rw [translate_single hdecode]
  constructor
  · intro heq
    by_contra hcut
    have hraised := translate_of_not_readable runBlocks_fresh hcut
    apply translateText_ne_unicodeDecode (P := P) text
    rw [← heq]
    exact hraised
  · exact translate_eq_translateText hdecode

/-- Chunks that are UTF-8 by themselves make UTF-8 together. -/
theorem decode_flatten {chunks : List Bytes} (h : ∀ raw ∈ chunks, (Utf8.decode raw).isSome) :
    ∃ text, Utf8.decode chunks.flatten = some text := by
  induction chunks with
  | nil => exact ⟨[], rfl⟩
  | cons raw rest ih =>
      obtain ⟨hraw, hrest⟩ := List.forall_mem_cons.mp h
      obtain ⟨text, htext⟩ := Option.isSome_iff_exists.mp hraw
      obtain ⟨more, hmore⟩ := ih hrest
      exact ⟨text ++ more, by rw [List.flatten_cons, Utf8.decode_append htext, hmore]; rfl⟩

theorem readableCut_of_forall {text : Str} {chunks : List Bytes}
    (h : ∀ raw ∈ chunks, (Utf8.decode raw).isSome) : ReadableCut P text chunks := by
  induction chunks generalizing text with
  | nil => trivial
  | cons raw rest ih =>
      obtain ⟨hraw, hrest⟩ := List.forall_mem_cons.mp h
      obtain ⟨more, hmore⟩ := Option.isSome_iff_exists.mp hraw
      exact .inr ⟨more, hmore, ih hrest⟩

end Cutting

section Framing

/-- The reading of the first block that ends the translation. -/
def settlement (P : Platform) : List Str → Option (Except StreamError Event)
  | [] => none
  | block :: rest => if settles P block then some (readBlock P block) else settlement P rest

/-- The texts of the deltas before that block. -/
def saidTexts (P : Platform) : List Str → List Str
  | [] => []
  | block :: rest =>
      if settles P block then []
      else
        match readBlock P block with
        | .ok (.delta text) => text :: saidTexts P rest
        | _ => saidTexts P rest

/-- The frames of some texts. -/
def saidFrames (emittedRole : Bool) (texts : List Str) : List Frame :=
  if texts.isEmpty then [] else opening emittedRole ++ texts.map .content

/-- The role has been emitted after some texts. -/
def spoken (emittedRole : Bool) (texts : List Str) : Bool := emittedRole || !texts.isEmpty

theorem saidFrames_cons (emittedRole : Bool) (text : Str) (texts : List Str) :
    saidFrames emittedRole (text :: texts) =
      opening emittedRole ++ .content text :: saidFrames true texts := by
  cases texts <;> rfl

theorem spoken_cons (emittedRole : Bool) (text : Str) (texts : List Str) :
    spoken emittedRole (text :: texts) = spoken true texts := by
  simp [spoken]

/-- The work on some blocks, by what settles them. -/
theorem runBlocks_eq (emittedRole : Bool) (blocks : List Str) :
    runBlocks P emittedRole blocks =
      match settlement P blocks with
      | none => (saidFrames emittedRole (saidTexts P blocks),
          .pulling (spoken emittedRole (saidTexts P blocks)))
      | some (.ok .completed) => (saidFrames emittedRole (saidTexts P blocks) ++
          closing (spoken emittedRole (saidTexts P blocks)), .finished)
      | some (.ok (.delta _)) => (saidFrames emittedRole (saidTexts P blocks) ++
          opening (spoken emittedRole (saidTexts P blocks)), .raised .unicodeEncode)
      | some (.ok _) => (saidFrames emittedRole (saidTexts P blocks), .finished)
      | some (.error e) => (saidFrames emittedRole (saidTexts P blocks), .raised e) := by
  induction blocks generalizing emittedRole with
  | nil => simp [runBlocks, settlement, saidTexts, saidFrames, spoken]
  | cons block rest ih =>
      rw [runBlocks, settlement, saidTexts, settles]
      cases hread : readBlock P block with
      | error e => rfl
      | ok event =>
          cases event with
          | ended => rfl
          | completed =>
              cases emittedRole <;> rfl
          | ignored => exact ih emittedRole
          | delta text =>
              cases htext : text.encodable with
              | false => cases emittedRole <;> simp [saidFrames, spoken, htext]
              | true =>
                  simp only [htext, if_true, Bool.not_true, Bool.false_eq_true, if_false,
                    saidFrames_cons, spoken_cons, ih true]
                  split <;> simp

/-- No frame of some texts marks the end. -/
theorem done_notMem_saidFrames (emittedRole : Bool) (texts : List Str) :
    Frame.done ∉ saidFrames emittedRole texts := by
  unfold saidFrames
  split
  · simp
  · cases emittedRole <;> simp [opening]

/-- The frames of a run that is closed properly. -/
theorem saidFrames_closing (texts : List Str) :
    saidFrames false texts ++ closing (spoken false texts) =
      .role :: texts.map .content ++ [.stop, .done] := by
  cases texts with
  | nil => rfl
  | cons text texts => simp [saidFrames, closing, spoken, opening]

/-- Nothing but a completed event ends the translation. -/
def EndsProperly (P : Platform) (text : Str) : Prop :=
  ∀ reading, settlement P (Str.splitBlocks text).1 = some reading → reading = .ok .completed

/-- The run over a text that ends properly. -/
theorem translateText_of_endsProperly {text : Str} (h : EndsProperly P text) :
    translateText P text =
      (.role :: (saidTexts P (Str.splitBlocks text).1).map .content ++ [.stop, .done],
        .returned) := by
  rw [← saidFrames_closing, translateText, runBlocks_eq]
  cases hsettled : settlement P (Str.splitBlocks text).1 with
  | none => rfl
  | some reading =>
      obtain rfl := h reading hsettled
      rfl

/-- A run that returns with a mark of the end has ended properly. -/
theorem endsProperly_of_done {text : Str} (hreturned : (translateText P text).2 = .returned)
    (hdone : Frame.done ∈ (translateText P text).1) : EndsProperly P text := by
  intro reading hsettled
  rw [translateText, runBlocks_eq, hsettled] at hreturned hdone
  have hnot := done_notMem_saidFrames false (saidTexts P (Str.splitBlocks text).1)
  cases reading with
  | error e => simp at hreturned
  | ok event =>
      cases event with
      | completed => rfl
      | ended => exact absurd hdone hnot
      | ignored => exact absurd hdone hnot
      | delta text => simp at hreturned

/-- The only choice of a chunk. -/
def Output.choice (output : Output) : Entries Str Json :=
  match output with
  | .chunk (.obj body) =>
      match Json.field body "choices" with
      | .arr [.obj choice] => choice
      | _ => []
  | _ => []

/-- A field of the delta of a chunk. -/
def Output.deltaField (output : Output) (key : String) : Json :=
  match Json.field output.choice "delta" with
  | .obj delta => Json.field delta key
  | _ => .null

/-- The reason for the end that a chunk gives. -/
def Output.finishReason (output : Output) : Json := Json.field output.choice "finish_reason"

/-- A field of a chunk. -/
def Output.field (output : Output) (key : String) : Json :=
  match output with
  | .chunk (.obj body) => Json.field body key
  | _ => .null

/-- A well framed chat completion: the role, the content, one reason for the end, and
one mark of the end, all under the same identifiers. -/
structure WellFramed (ctx : Context) (outputs : List Output) : Prop where
  shape : ∃ first middle last, outputs = first :: middle ++ [last, .done] ∧
    first.deltaField "role" = .str (lit "assistant") ∧
    (∀ output ∈ first :: middle, output.finishReason = .null) ∧
    last.finishReason ≠ .null ∧ last.deltaField "content" = .null ∧
    ∀ output ∈ first :: middle ++ [last], (∃ body, output = .chunk body) ∧
      output.field "id" = .str ctx.responseId ∧ output.field "model" = .str ctx.requestModel

/-- The frames as outputs; the clock is read for each. -/
def outputs (ctx : Context) (clock : Nat → Int) (frames : List Frame) : List Output :=
  frames.mapIdx fun i frame => frame.output ctx (clock i)

section Chunks

variable (ctx : Context) (created : Int)

theorem choice_chunk (delta finish : Json) :
    (Output.chunk (chunkBody ctx created delta finish)).choice =
      [(lit "index", .int 0), (lit "delta", delta), (lit "finish_reason", finish)] := by
  rw [chunkBody, Output.choice, Json.field_cons_of_ne (by decide),
    Json.field_cons_of_ne (by decide), Json.field_cons_of_ne (by decide),
    Json.field_cons_of_ne (by decide), Json.field_cons_self]

theorem finishReason_chunk (delta finish : Json) :
    (Output.chunk (chunkBody ctx created delta finish)).finishReason = finish := by
  rw [Output.finishReason, choice_chunk, Json.field_cons_of_ne (by decide),
    Json.field_cons_of_ne (by decide), Json.field_cons_self]

theorem deltaField_chunk (delta : Entries Str Json) (finish : Json) (key : String) :
    (Output.chunk (chunkBody ctx created (.obj delta) finish)).deltaField key =
      Json.field delta key := by
  rw [Output.deltaField, choice_chunk, Json.field_cons_of_ne (by decide), Json.field_cons_self]

theorem identified_chunk (delta finish : Json) :
    let output := Output.chunk (chunkBody ctx created delta finish)
    (∃ body, output = .chunk body) ∧ output.field "id" = .str ctx.responseId ∧
      output.field "model" = .str ctx.requestModel := by
  refine ⟨⟨_, rfl⟩, ?_, ?_⟩
  · rw [chunkBody, Output.field, Json.field_cons_self]
  · rw [chunkBody, Output.field, Json.field_cons_of_ne (by decide),
      Json.field_cons_of_ne (by decide), Json.field_cons_of_ne (by decide), Json.field_cons_self]

end Chunks

theorem mem_outputs {ctx : Context} {clock : Nat → Int} {frames : List Frame}
    {output : Output} (h : output ∈ outputs ctx clock frames) :
    ∃ frame ∈ frames, ∃ created, output = frame.output ctx created := by
  obtain ⟨i, hi, rfl⟩ := List.mem_mapIdx.mp h
  exact ⟨frames[i], List.getElem_mem hi, clock i, rfl⟩

/-- The outputs of the frames of a proper run are well framed. -/
theorem wellFramed_outputs (ctx : Context) (clock : Nat → Int) (texts : List Str) :
    WellFramed ctx (outputs ctx clock
      (.role :: texts.map .content ++ [.stop, .done])) := by
  have hsplit : outputs ctx clock (.role :: texts.map .content ++ [.stop, .done]) =
      Frame.role.output ctx (clock 0) ::
        outputs ctx (fun i => clock (i + 1)) (texts.map .content) ++
          [Frame.stop.output ctx (clock (texts.length + 1)), .done] := by
    simp only [outputs, List.cons_append, List.mapIdx_cons, List.mapIdx_append, List.length_map]
    simp [Frame.output, Nat.add_assoc]
  rw [hsplit]
  refine ⟨_, _, _, rfl, ?_, ?_, ?_, ?_, ?_⟩
  · rw [Frame.output, deltaField_chunk, Json.field_cons_self]
  · rw [List.forall_mem_cons]
    refine ⟨finishReason_chunk .., ?_⟩
    intro output houtput
    obtain ⟨frame, hframe, created, rfl⟩ := mem_outputs houtput
    obtain ⟨text, -, rfl⟩ := List.mem_map.mp hframe
    exact finishReason_chunk ..
  · rw [Frame.output, finishReason_chunk]
    simp
  · rw [Frame.output, deltaField_chunk, Json.field_nil]
  · rw [List.cons_append, List.forall_mem_cons, List.forall_mem_append]
    refine ⟨identified_chunk .., ?_, ?_⟩
    · intro output houtput
      obtain ⟨frame, hframe, created, rfl⟩ := mem_outputs houtput
      obtain ⟨text, -, rfl⟩ := List.mem_map.mp hframe
      exact identified_chunk ..
    · rw [List.forall_mem_singleton]
      exact identified_chunk ..

/-- The chat completion of a source whose chunks are UTF-8 is returned and well framed
exactly when nothing but a completed event ends the translation. -/
theorem translate_wellFramed_iff (ctx : Context) (clock : Nat → Int) {chunks : List Bytes}
    (h : ∀ raw ∈ chunks, (Utf8.decode raw).isSome) :
    ((translate P .fresh chunks).2 = .returned ∧
        WellFramed ctx (outputs ctx clock (translate P .fresh chunks).1)) ↔
      ∃ text, Utf8.decode chunks.flatten = some text ∧ EndsProperly P text := by
  obtain ⟨text, htext⟩ := decode_flatten h
  rw [translate_eq_translateText htext (readableCut_of_forall h)]
  constructor
  · rintro ⟨hreturned, hframed⟩
    refine ⟨text, htext, endsProperly_of_done hreturned ?_⟩
    obtain ⟨first, middle, last, houtputs, -⟩ := hframed.shape
    have hmem : Output.done ∈ outputs ctx clock (translateText P text).1 := by
      rw [houtputs]
      simp
    obtain ⟨frame, hframe, created, hdone⟩ := mem_outputs hmem
    cases frame with
    | done => exact hframe
    | role | content _ | stop => cases hdone
  · rintro ⟨text', htext', hproper⟩
    obtain rfl := Option.some.inj (htext.symm.trans htext')
    rw [translateText_of_endsProperly hproper]
    exact ⟨rfl, wellFramed_outputs ctx clock _⟩

end Framing

section Sample

/-- A delta with a letter outside ASCII. -/
def sampleDelta : Bytes :=
  ((lit "data: \x7b\"type\":\"response.output_text.delta\",\"delta\":\"").map fun c =>
    Utf8.byte c.val) ++ [0xC3, 0xA9] ++ ((lit "\"\x7d\n\n").map fun c => Utf8.byte c.val)

/-- A cut before the letter. -/
def harmlessCut : List Bytes := [sampleDelta.take 10, sampleDelta.drop 10]

/-- A cut inside the letter. -/
def harmfulCut : List Bytes := [sampleDelta.take 53, sampleDelta.drop 53]

theorem translate_eq_uncut_sample :
    translate .sample .fresh harmlessCut = translate .sample .fresh [harmlessCut.flatten] := by
  have hchunks : ∀ raw ∈ harmlessCut, (Utf8.decode raw).isSome := by decide +kernel
  obtain ⟨text, htext⟩ := decode_flatten hchunks
  exact (translate_eq_uncut_iff htext).mpr (readableCut_of_forall hchunks)

/-- The cut inside the letter makes the generator raise, the uncut stream does not. -/
theorem translate_ne_uncut :
    (Utf8.decode harmfulCut.flatten).isSome = true ∧
      (translate .sample .fresh harmfulCut).2 = .raised .unicodeDecode ∧
      (translate .sample .fresh [harmfulCut.flatten]).2 = .returned := by
  refine ⟨?_, ?_, ?_⟩
  · decide +kernel
  · decide +kernel
  · decide +kernel

/-- The bytes of ASCII text. -/
def asciiBytesOf (text : String) : Bytes := (lit text).map fun c => Utf8.byte c.val

/-- Identifiers for concrete runs. -/
def sampleContext : Context := ⟨lit "resp_1", lit "text-model", by decide, by decide⟩

/-- The delta and the completed event. -/
def sampleCompleted : List Bytes :=
  [sampleDelta, asciiBytesOf "data: \x7b\"type\":\"response.completed\"\x7d\n\n"]

/-- The delta and the mark of the end, without a completed event. -/
def sampleEnded : List Bytes := [sampleDelta, asciiBytesOf "data: [DONE]\n\n"]

theorem translate_wellFramed_sample :
    WellFramed sampleContext
      (outputs sampleContext (fun _ => 0) (translate .sample .fresh sampleCompleted).1) := by
  have hchunks : ∀ raw ∈ sampleCompleted, (Utf8.decode raw).isSome := by decide +kernel
  obtain ⟨text, htext⟩ := decode_flatten hchunks
  have hsettled : ((Utf8.decode sampleCompleted.flatten).bind fun text =>
      settlement .sample (Str.splitBlocks text).1).map (fun r => r.toOption) =
        some (some .completed) := by
    decide +kernel
  refine ((translate_wellFramed_iff sampleContext (fun _ => 0) hchunks).mpr
    ⟨text, htext, ?_⟩).2
  intro reading hreading
  rw [htext] at hsettled
  simp only [Option.bind_some, hreading, Option.map_some, Option.some.injEq] at hsettled
  cases reading with
  | error e => cases hsettled
  | ok event => exact congrArg Except.ok (Option.some.inj hsettled)

/-- After the mark of the end nothing closes the completion. -/
theorem translate_ended_not_wellFramed :
    (∀ raw ∈ sampleEnded, (Utf8.decode raw).isSome) ∧
      (translate .sample .fresh sampleEnded).2 = .returned ∧
      ¬ WellFramed sampleContext
        (outputs sampleContext (fun _ => 0) (translate .sample .fresh sampleEnded).1) := by
  have hdone : Frame.done ∉ (translate .sample .fresh sampleEnded).1 := by decide +kernel
  refine ⟨by decide +kernel, by decide +kernel, ?_⟩
  rintro ⟨first, middle, last, houtputs, -⟩
  have hmem : Output.done ∈
      outputs sampleContext (fun _ => 0) (translate .sample .fresh sampleEnded).1 := by
    rw [houtputs]
    simp
  obtain ⟨frame, hframe, created, heq⟩ := mem_outputs hmem
  cases frame with
  | done => exact hdone hframe
  | role | content _ | stop => cases heq

end Sample

end MediaBridge.Core.ChatStream
