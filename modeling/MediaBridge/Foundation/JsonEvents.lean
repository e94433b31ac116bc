import MediaBridge.Foundation.JsonVerbatim
import MediaBridge.Foundation.Sse

/-!
# JSON values as server-sent events

A writer that sends named JSON values one after another and then a line that says so, and a client
that reads the stream: the client has the values up to the first that cannot be encoded.

## Implementation notes

The writer is a generator: the list of what it yields, where `none` is an exception.
-/

namespace MediaBridge.Foundation.Sse

/-- What a generator has yielded, and whether it came to its end. -/
structure Yielded where
  sent : Bytes
  finished : Bool
deriving DecidableEq

/-- A generator up to its end or its first exception. -/
def yields : List (Option Bytes) → Yielded
  | [] => ⟨[], true⟩
  | none :: _ => ⟨[], false⟩
  | some chunk :: rest =>
      let more := yields rest
      ⟨chunk ++ more.sent, more.finished⟩

section Writer

variable (F : FloatText) (style : JsonText.Style)

/-- `json.dumps(v).encode()`; `none` is an exception. -/
def jsonBytes (v : Json) : Option Bytes := (JsonText.dumps F style v).bind Utf8.encode

/-- The name of an event, and its value. -/
abbrev JsonEvent := String × Json

/-- The line of the name, the line of the value and an empty line; `none` is an exception. -/
def namedEvent (e : JsonEvent) : Option Bytes := do
  let body ← JsonText.dumps F style e.2
  Utf8.encode (lit "event: " ++ lit e.1 ++ lit "\ndata: " ++ body ++ lit "\n\n")

/-- `data: [DONE]`. -/
def doneChunk : Bytes := ascii "data: [DONE]\n\n"

/-- Named values, and the line at the end. -/
def jsonStream (events : List JsonEvent) : Yielded :=
  yields (events.map (namedEvent F style) ++ [some doneChunk])

/-- An event can be sent. -/
def sendable (e : JsonEvent) : Bool := (jsonBytes F style e.2).isSome

end Writer

section Encoding

variable {F : FloatText} {style : JsonText.Style} {v : Json} {data : Bytes}

theorem encodable_nil : Str.encodable [] = true := rfl

/-- A constant of the source has no surrogates. -/
theorem encodable_lit (text : String) : (lit text).encodable = true := by
  apply Str.encodable_iff.mpr
  intro c hc
  obtain ⟨d, -, rfl⟩ := List.mem_map.mp hc
  rcases d.valid with h | ⟨hlow, hhigh⟩
  · exact Utf8.isSurrogate_cp (.inl h) (h.trans (by decide))
  · exact Utf8.isSurrogate_cp (.inr hlow) hhigh

theorem encoded_int_iff {n : Int} :
    JsonText.Encoded F style (.int n) ↔ JsonText.tooLong n.natAbs = false := by
  unfold JsonText.Encoded
  rw [JsonText.dumps]
  cases JsonText.tooLong n.natAbs
  · exact iff_of_true ⟨_, rfl, JsonText.encodable_intText n⟩ rfl
  · exact iff_of_false (by rintro ⟨_, ⟨⟩, _⟩) (by rintro ⟨⟩)

theorem encode_eq_some_iff {s : Str} :
    Utf8.encode s = some data ↔ s.encodable = true ∧ s.flatMap Utf8.encodePoint = data := by
  rw [Utf8.encode]
  split_ifs with h
  · rw [Option.some.injEq]
    exact (and_iff_right h).symm
  · exact iff_of_false (by rintro ⟨⟩) fun hs => h hs.1

/-- Text without control characters has no byte that ends a line. -/
theorem plain_encode {s : Str} (h : ∀ c ∈ s, 32 ≤ c.val) :
    Reader.Plain (s.flatMap Utf8.encodePoint) := by
  have hbyte {b : Byte} (hb : 32 ≤ b.val) : b ≠ lineFeed ∧ b ≠ carriageReturn := by
    constructor <;> rintro rfl <;> exact absurd hb (by decide)
  intro b hb
  apply hbyte
  obtain ⟨c, hc, hb⟩ := List.mem_flatMap.mp hb
  have hlow := h c hc
  have hval (n : Nat) : (Utf8.byte n).val = n % 256 := rfl
  have hmax := c.isLt
  unfold Utf8.encodePoint at hb
  split_ifs at hb with h1 h2 h3
  all_goals
    simp only [List.mem_cons, List.not_mem_nil, or_false] at hb
    rcases hb with rfl | rfl | rfl | rfl
  all_goals
    rw [hval]
    omega

theorem jsonBytes_eq_some_iff :
    jsonBytes F style v = some data ↔ ∃ text, JsonText.dumps F style v = some text ∧
      text.encodable = true ∧ text.flatMap Utf8.encodePoint = data := by
  rw [jsonBytes, Option.bind_eq_some_iff]
  simp only [encode_eq_some_iff]

theorem isSome_jsonBytes_iff :
    (jsonBytes F style v).isSome = true ↔ JsonText.Encoded F style v := by
  rw [Option.isSome_iff_exists]
  constructor
  · rintro ⟨data, h⟩
    obtain ⟨text, htext, hgood, -⟩ := jsonBytes_eq_some_iff.mp h
    exact ⟨text, htext, hgood⟩
  · rintro ⟨text, htext, hgood⟩
    exact ⟨_, jsonBytes_eq_some_iff.mpr ⟨text, htext, hgood, rfl⟩⟩

theorem flatMap_encodePoint {name : String} (h : ∀ c ∈ lit name, c.isAscii = true) :
    (lit name).flatMap Utf8.encodePoint = ascii name :=
  (encode_eq_some_iff.mp (Utf8.encode_ascii h)).2

/-- An event is its name and the bytes of its data. -/
theorem namedEvent_eq {e : JsonEvent} (h : ∀ c ∈ lit e.1, c.isAscii = true) :
    namedEvent F style e = (jsonBytes F style e.2).map (Reader.eventBytes (ascii e.1)) := by
  have hopening : (lit "event: ").flatMap Utf8.encodePoint = ascii "event: " := by decide
  have hdata : (lit "\ndata: ").flatMap Utf8.encodePoint =
      [lineFeed] ++ ascii "data: " := by decide
  have hend : (lit "\n\n").flatMap Utf8.encodePoint = [lineFeed] ++ [lineFeed] := by decide
  rw [jsonBytes, Option.map_bind]
  refine Option.bind_congr fun body _ => ?_
  rw [Function.comp_apply, Utf8.encode, Utf8.encode]
  simp only [Str.encodable_append, Str.encodable_of_ascii h]
  by_cases hbody : body.encodable = true
  · rw [if_pos hbody, if_pos ⟨⟨⟨⟨by decide, trivial⟩, by decide⟩, hbody⟩, by decide⟩,
      Option.map_some, Reader.eventBytes]
    simp only [List.flatMap_append, hopening, flatMap_encodePoint h, hdata, hend, List.append_assoc]
  · rw [if_neg hbody, if_neg fun hall => hbody hall.1.2]
    rfl

/-- A client that has just read an event, or nothing, reads the name of the next. -/
theorem named_fresh (events : List Event) (name : Bytes) :
    (Reader.mk [] false [] [] events).named name = ⟨[], false, name, [], events⟩ := by
  have hfield : field (ascii "event: " ++ name) = (ascii "event", name) := by
    have hbytes : ascii "event: " = [101, 118, 101, 110, 116, 58, 32] := by decide
    rw [hbytes]
    simp only [List.cons_append, List.nil_append, field]
    rfl
  rw [Reader.named_eq, List.nil_append, Reader.setField, hfield]
  rfl

end Encoding

section Client

variable (F : FloatText) (depth : Nat)

/-- What a client makes of the bytes of a JSON text. -/
def readJson (data : Bytes) : Option Json :=
  (Utf8.decode data).bind fun text => (JsonText.loads F depth text).toOption

/-- An event as a client reads it. -/
def readEvent (event : Event) : Bytes × Option Json :=
  (event.eventType, readJson F depth ([lineFeed].intercalate event.data))

/-- The events that a client reads from a stream. -/
def readEvents (sent : Bytes) : List (Bytes × Option Json) :=
  (readStream sent).events.map (readEvent F depth)

variable {F : FloatText} {style : JsonText.Style} {depth : Nat}

/-- What is sent of a value is read back. -/
theorem read_jsonBytes {v : Json} {data : Bytes} (hF : F.Faithful)
    (hstyle : style.Unsorted) (h : JsonText.Verbatim v) (hdata : jsonBytes F style v = some data)
    (hdepth : v.depth ≤ depth) :
    Reader.Plain data ∧ readJson F depth data = some v := by
  obtain ⟨text, htext, hgood, rfl⟩ := jsonBytes_eq_some_iff.mp hdata
  have hdecode : Utf8.decode (text.flatMap Utf8.encodePoint) = some text :=
    Utf8.decodeWith_encode false (encode_eq_some_iff.mpr ⟨hgood, rfl⟩)
  have hloads : JsonText.loads F depth text = .ok v :=
    JsonText.loads_of_readsBack (h.opening hF) (h.readsBack hF hstyle) htext hdepth
  refine ⟨plain_encode (h.le_of_mem_dumps hF htext), ?_⟩
  rw [readJson, hdecode, Option.bind_some, hloads]
  rfl

/-- A name in printable ASCII. -/
def isEventName (name : String) : Bool :=
  (lit name).all fun c => decide (32 ≤ c.val) && c.isAscii

theorem isEventName_iff {name : String} :
    isEventName name = true ↔ ∀ c ∈ lit name, 32 ≤ c.val ∧ c.isAscii = true := by
  simp only [isEventName, List.all_eq_true, Bool.and_eq_true, decide_eq_true_eq]

/-- An event that a client can read, if it can be sent. -/
structure Legible (F : FloatText) (style : JsonText.Style) (depth : Nat) (e : JsonEvent) :
    Prop where
  name : isEventName e.1 = true
  verbatim : (jsonBytes F style e.2).isSome = true → JsonText.Verbatim e.2
  depth : e.2.depth ≤ depth

/-- The event that is read where `e` was sent. -/
def received (e : JsonEvent) : Bytes × Option Json := (ascii e.1, some e.2)

theorem Legible.read (hF : F.Faithful) (hstyle : style.Unsorted) {e : JsonEvent}
    (h : Legible F style depth e) {data : Bytes} (hdata : jsonBytes F style e.2 = some data)
    (before : List Event) :
    ∃ event, (Reader.mk [] false [] [] before).read
        (Reader.eventBytes (ascii e.1) data) = ⟨[], false, [], [], before ++ [event]⟩ ∧
      readEvent F depth event = received e := by
  have hverbatim := h.verbatim (by rw [hdata]; rfl)
  obtain ⟨hplain, hread⟩ := read_jsonBytes hF hstyle hverbatim hdata h.depth
  have hname : Reader.Plain (ascii e.1) := by
    rw [← flatMap_encodePoint fun c hc => (isEventName_iff.mp h.name c hc).2]
    exact plain_encode fun c hc => (isEventName_iff.mp h.name c hc).1
  refine ⟨⟨ascii e.1, [data]⟩, ?_, ?_⟩
  · rw [Reader.read_eventBytes _ hname hplain, named_fresh]
    rfl
  · rw [readEvent, List.intercalate_singleton, hread]
    rfl

/-- What is sent before `tail`: the events up to the first that cannot be sent. -/
theorem read_yields (hF : F.Faithful) (hstyle : style.Unsorted) {events : List JsonEvent}
    (h : ∀ e ∈ events, Legible F style depth e) (tail : List (Option Bytes))
    (before : List Event) :
    ∃ chunk read, (Reader.mk [] false [] [] before).read chunk =
        ⟨[], false, [], [], before ++ read⟩ ∧
      read.map (readEvent F depth) = (events.takeWhile (sendable F style)).map received ∧
      (∀ b ∈ chunk.head?, b = 101) ∧
      yields (events.map (namedEvent F style) ++ tail) =
        if events.all (sendable F style) then ⟨chunk ++ (yields tail).sent, (yields tail).finished⟩
        else ⟨chunk, false⟩ := by
  induction events generalizing before with
  | nil => exact ⟨[], [], by simp [Reader.read], rfl, by rintro b ⟨⟩, rfl⟩
  | cons e rest ih =>
      obtain ⟨he, hrest⟩ := List.forall_mem_cons.mp h
      have hevent : namedEvent F style e =
          (jsonBytes F style e.2).map (Reader.eventBytes (ascii e.1)) :=
        namedEvent_eq fun c hc => (isEventName_iff.mp he.name c hc).2
      cases hdata : jsonBytes F style e.2 with
      | none =>
          have hnot : sendable F style e = false := by rw [sendable, hdata]; rfl
          refine ⟨[], [], by simp [Reader.read], ?_, by rintro b ⟨⟩, ?_⟩
          · rw [List.takeWhile_cons_of_neg (by simp [hnot])]
            rfl
          · rw [List.map_cons, List.cons_append, hevent, hdata, List.all_cons, hnot]
            rfl
      | some data =>
          have hcan : sendable F style e = true := by rw [sendable, hdata]; rfl
          obtain ⟨event, hread, hreceived⟩ := he.read hF hstyle hdata before
          obtain ⟨chunk, read, hchunk, hmap, -, hyields⟩ := ih hrest (before ++ [event])
          refine ⟨Reader.eventBytes (ascii e.1) data ++ chunk, event :: read, ?_, ?_, ?_, ?_⟩
          · rw [Reader.read_append, hread, hchunk, List.append_assoc]
            rfl
          · rw [List.takeWhile_cons_of_pos hcan, List.map_cons, List.map_cons, hreceived, hmap]
          · intro b hb
            have hhead : (ascii "event: ").head? = some 101 := by decide
            simpa [Reader.eventBytes, List.head?_append, hhead] using hb.symm
          · rw [List.map_cons, List.cons_append, hevent, hdata, Option.map_some, yields, hyields,
              List.all_cons, hcan, Bool.true_and]
            split_ifs
            · simp only [List.append_assoc]
            · rfl

/-- The end of the stream as a client reads it: data without a name that is not JSON. -/
def doneEvent : Event := ⟨[], [ascii "[DONE]"]⟩

theorem readEvent_done : readEvent F depth doneEvent = ([], none) := by
  have hdecode : Utf8.decode (ascii "[DONE]") = some (lit "[DONE]") := by decide +kernel
  rw [readEvent, doneEvent, List.intercalate_singleton, readJson, hdecode, Option.bind_some]
  cases depth <;> rfl

theorem dropMark_eq {sent : Bytes} (h : ∀ b ∈ sent.head?, b ≠ 0xEF) : dropMark sent = sent := by
  rw [dropMark, if_neg]
  cases sent with
  | nil => simp
  | cons b rest => exact fun hpre => h b rfl (List.cons_prefix_cons.mp hpre).1.symm

/-- What a client reads of a stream: the events up to the first that cannot be sent, and the end if
there is no such event. -/
theorem readEvents_jsonStream (hF : F.Faithful) (hstyle : style.Unsorted) {events : List JsonEvent}
    (h : ∀ e ∈ events, Legible F style depth e) :
    let run := jsonStream F style events
    run.finished = events.all (sendable F style) ∧
      readEvents F depth run.sent = (events.takeWhile (sendable F style)).map received ++
        if events.all (sendable F style) then [([], none)] else [] := by
  obtain ⟨chunk, read, hread, hmap, hhead, hyields⟩ := read_yields hF hstyle h [some doneChunk] []
  have hdone : doneChunk =
      ascii "data: " ++ ascii "[DONE]" ++ [lineFeed] ++ [lineFeed] := by decide
  have hplain : Reader.Plain (ascii "[DONE]") := by
    unfold Reader.Plain
    decide +kernel
  intro run
  by_cases hall : events.all (sendable F style) = true
  · have hrun : run = ⟨chunk ++ doneChunk, true⟩ := by
      refine hyields.trans ?_
      rw [if_pos hall, yields, yields, List.append_nil]
    have hmark : dropMark (chunk ++ doneChunk) = chunk ++ doneChunk := by
      apply dropMark_eq
      rw [List.head?_append]
      cases hchunk : chunk.head? with
      | none =>
          intro b hb
          have hfirst : doneChunk.head? = some 100 := by decide
          rw [Option.none_or, hfirst] at hb
          rw [← Option.mem_some.mp hb]
          decide
      | some b =>
          intro c hc
          rw [Option.some_or] at hc
          rw [← Option.mem_some.mp hc, hhead b hchunk]
          decide
    rw [hrun, hall, if_pos rfl]
    refine ⟨rfl, ?_⟩
    rw [readEvents, readStream, hmark, Reader.read_append, Reader.fresh, hread, hdone,
      Reader.read_data _ _ _ hplain]
    simp only [List.nil_append, List.map_append, hmap, List.map_cons, List.map_nil]
    exact congrArg (fun event => _ ++ [event]) readEvent_done
  · have hrun : run = ⟨chunk, false⟩ := hyields.trans (if_neg hall)
    rw [hrun, if_neg hall, List.append_nil]
    refine ⟨(Bool.eq_false_iff.mpr hall).symm, ?_⟩
    have hmark : dropMark chunk = chunk := by
      apply dropMark_eq
      intro b hb
      rw [hhead b hb]
      decide
    rw [readEvents, readStream, hmark, Reader.fresh, hread, List.nil_append, hmap]

end Client

end MediaBridge.Foundation.Sse
