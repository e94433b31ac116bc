import MediaBridge.Gateway.ProviderStream

/-!
# Provider text through two layers of events

Which texts of a provider the chat translation hands on. The writer of the events leaves
characters outside ASCII as they are, and the reader takes three of them for ends of lines.
-/

namespace MediaBridge.Gateway

open Foundation MediaBridge.Core ChatStream

namespace ProviderStream

open JsonText (Portable)

variable {P : Platform}

/-- The line boundaries that JSON does not escape: next line, and the line and paragraph
separators. -/
def separators : List CodePoint := [cp 0x85, cp 0x2028, cp 0x2029]

theorem mem_separators_iff {c : CodePoint} :
    c ∈ separators ↔ Str.isLineBreak c = true ∧ 127 ≤ c.val := by
  have hval {n : Nat} (hn : n < 0x110000) : c = cp n ↔ c.val = n := by
    rw [Fin.ext_iff, JsonText.cp_val_of_lt hn]
  simp only [separators, List.mem_cons, List.not_mem_nil, or_false,
    hval (by decide : 0x85 < 0x110000), hval (by decide : 0x2028 < 0x110000),
    hval (by decide : 0x2029 < 0x110000), Str.isLineBreak, Bool.or_eq_true, Bool.and_eq_true, decide_eq_true_eq, beq_iff_eq]
  omega

section Block

/-- A block of an event, without the blank line. -/
def blockText (kind : String) (text : Str) : Str :=
  lit "event: " ++ lit kind ++ Str.lineFeed :: (lit "data: " ++ text)

/-- The kind of an event fits into a line. -/
def Kind (kind : String) : Prop :=
  (lit kind).all (fun c => c.isAscii && !Str.isLineBreak c) = true

instance (kind : String) : Decidable (Kind kind) := inferInstanceAs (Decidable (_ = true))

theorem Kind.lines {kind : String} (h : Kind kind) :
    ∀ c ∈ lit "event: " ++ lit kind, Str.isLineBreak c = false := by
  have hall := List.all_eq_true.mp h
  have hevent : (lit "event: ").any Str.isLineBreak = false := by decide
  rw [List.forall_mem_append]
  refine ⟨fun c hc => Bool.eq_false_iff.mpr (List.any_eq_false.mp hevent c hc), fun c hc => ?_⟩
  have hboth := hall c hc
  simp only [Bool.and_eq_true, Bool.not_eq_true'] at hboth
  exact hboth.2

theorem decode_ascii {text : String} (h : (lit text).all CodePoint.isAscii = true) :
    Utf8.decode (Sse.ascii text) = some (lit text) :=
  Utf8.decodeWith_encode false (Utf8.encode_ascii fun c hc => List.all_eq_true.mp h c hc)

/-- The bytes of an event are those of its block and of the blank line. -/
theorem decode_eventBytes {kind : String} (hkind : Kind kind) {text : Str} {data : Bytes}
    (h : Utf8.encode text = some data) :
    Utf8.decode (Sse.Reader.eventBytes (Sse.ascii kind) data) =
      some (blockText kind text ++ [Str.lineFeed, Str.lineFeed]) := by
  have hascii : (lit kind).all CodePoint.isAscii = true := by
    rw [List.all_eq_true]
    intro c hc
    have hboth := List.all_eq_true.mp hkind c hc
    simp only [Bool.and_eq_true] at hboth
    exact hboth.1
  have hdata : Utf8.decode data = some text := Utf8.decodeWith_encode false h
  have hend : Utf8.decode ([Sse.lineFeed] ++ [Sse.lineFeed]) =
      some [Str.lineFeed, Str.lineFeed] := by decide
  have hbreak : Utf8.decode [Sse.lineFeed] = some [Str.lineFeed] := by decide
  rw [Sse.Reader.eventBytes]
  simp only [List.append_assoc]
  rw [Utf8.decode_append (decode_ascii (by decide)), Utf8.decode_append (decode_ascii hascii),
    Utf8.decode_append hbreak, Utf8.decode_append (decode_ascii (by decide)),
    Utf8.decode_append hdata, hend]
  simp [blockText]

theorem dataLines_blockText {kind text : _} (hkind : Kind kind) :
    dataLines (blockText kind text) =
      ((Str.splitlines (lit "data: " ++ text)).filter fun line =>
        Str.startsWith line (lit "data:")).map fun line => Str.strip (line.drop 5) := by
  have hfirst : Str.startsWith (lit "event: " ++ lit kind) (lit "data:") = false := by
    rw [Str.startsWith, decide_eq_false_iff_not]
    rintro ⟨rest, hrest⟩
    have hhead : some (cp 100) = some (cp 101) := congrArg List.head? hrest
    exact absurd hhead (by decide)
  rw [dataLines, blockText, Str.splitlines_append_cons hkind.lines (by decide) (by decide),
    List.filter_cons, if_neg (Bool.eq_false_iff.mp hfirst)]

theorem startsWith_data (text : Str) :
    Str.startsWith (lit "data: " ++ text) (lit "data:") = true := by
  rw [Str.startsWith_iff]
  exact ⟨cp 32 :: text, rfl⟩

/-- The data of a block whose text has no boundary. -/
theorem dataLines_of_forall {kind : String} (hkind : Kind kind) {text : Str}
    (htext : ∀ c ∈ text, Str.isLineBreak c = false) :
    dataLines (blockText kind text) = [Str.strip (cp 32 :: text)] := by
  have hdata : (lit "data: ").any Str.isLineBreak = false := by decide
  have hline : ∀ c ∈ lit "data: " ++ text, Str.isLineBreak c = false := by
    rw [List.forall_mem_append]
    exact ⟨fun c hc => Bool.eq_false_iff.mpr (List.any_eq_false.mp hdata c hc), htext⟩
  have hne : lit "data: " ++ text ≠ [] := by simp [lit]
  rw [dataLines_blockText hkind, Str.splitlines_of_forall hne hline, List.filter_cons,
    if_pos (startsWith_data text)]
  rfl

/-- The data of a block whose text has a boundary start with the text before it. -/
theorem dataLines_of_break {kind : String} (hkind : Kind kind) {a m : Str} {c : CodePoint}
    (ha : ∀ d ∈ a, Str.isLineBreak d = false) (hc : Str.isLineBreak c = true)
    (hreturn : c ≠ Str.carriageReturn) :
    ∃ lines, dataLines (blockText kind (a ++ c :: m)) = Str.strip (cp 32 :: a) :: lines := by
  have hdata : (lit "data: ").any Str.isLineBreak = false := by decide
  have hline : ∀ d ∈ lit "data: " ++ a, Str.isLineBreak d = false := by
    rw [List.forall_mem_append]
    exact ⟨fun c hc => Bool.eq_false_iff.mpr (List.any_eq_false.mp hdata c hc), ha⟩
  rw [dataLines_blockText hkind, ← List.append_assoc, Str.splitlines_append_cons hline hc hreturn,
    List.filter_cons, if_pos (startsWith_data a)]
  exact ⟨_, rfl⟩

/-- What is left of a line after its blanks are taken off both ends. -/
theorem strip_line {h : CodePoint} {t : Str} (hh : h.isSpace = false) :
    ∃ blanks, h :: t = Str.strip (cp 32 :: h :: t) ++ blanks ∧
      ∀ c ∈ blanks, c.isSpace = true := by
  have hstrip : Str.strip (cp 32 :: h :: t) = (h :: t).rdropWhile CodePoint.isSpace := by
    rw [Str.strip, List.dropWhile_cons_of_pos (by decide), List.dropWhile_cons_of_neg]
    rw [hh]
    exact Bool.false_ne_true
  refine ⟨(h :: t).rtakeWhile CodePoint.isSpace, ?_, fun c hc => ?_⟩
  · rw [hstrip, List.rdropWhile_append_rtakeWhile]
  · exact List.mem_rtakeWhile_imp hc

theorem exists_join_cons (x : Str) (lines : List Str) :
    ∃ rest, Str.join (lit "\n") (x :: lines) = x ++ rest ∧ JsonText.Broken rest := by
  cases lines with
  | nil => exact ⟨[], (List.append_nil x).symm, nofun⟩
  | cons y lines =>
      refine ⟨lit "\n" ++ Str.join (lit "\n") (y :: lines),
        by rw [Str.join_cons_cons, List.append_assoc], ?_⟩
      rintro c ⟨⟩
      decide

/-- The first boundary of a text. -/
theorem exists_first_break {text : Str} {c : CodePoint} (hc : c ∈ text)
    (hbreak : Str.isLineBreak c = true) :
    ∃ a d m, text = a ++ d :: m ∧ (∀ e ∈ a, Str.isLineBreak e = false) ∧
      Str.isLineBreak d = true := by
  induction text with
  | nil => cases hc
  | cons e text ih =>
      cases he : Str.isLineBreak e with
      | true => exact ⟨[], e, text, rfl, nofun, he⟩
      | false =>
          have htail : c ∈ text := by
            rcases List.mem_cons.mp hc with rfl | hc
            · rw [hbreak] at he
              cases he
            · exact hc
          obtain ⟨a, d, m, rfl, ha, hd⟩ := ih htail
          exact ⟨e :: a, d, m, rfl, List.forall_mem_cons.mpr ⟨he, ha⟩, hd⟩

theorem isSpace_of_isLineBreak {c : CodePoint} (h : Str.isLineBreak c = true) :
    c.isSpace = true := by
  simp only [Str.isLineBreak, Bool.or_eq_true, Bool.and_eq_true, decide_eq_true_eq,
    beq_iff_eq] at h
  simp only [CodePoint.isSpace, Bool.or_eq_true, Bool.and_eq_true, decide_eq_true_eq, beq_iff_eq]
  omega

theorem isLineBreak_of_isPrintable {c : CodePoint} (h : JsonText.IsPrintable c) :
    Str.isLineBreak c = false := by
  unfold JsonText.IsPrintable at h
  simp only [Str.isLineBreak, Bool.or_eq_false_iff, Bool.and_eq_false_iff,
    decide_eq_false_iff_not, beq_eq_false_iff_ne]
  omega

end Block

section Reading

/-- The texts of the data of an event start and end with a brace. -/
theorem exists_braces {style : JsonText.Style} {fields : Entries Str Json} {text : Str}
    (h : JsonText.dumps P.float style (.obj fields) = some text) :
    ∃ inner, text = JsonText.openBrace :: inner ++ [JsonText.closeBrace] := by
  rw [JsonText.dumps] at h
  obtain ⟨texts, -, h⟩ := Option.bind_eq_some_iff.mp h
  cases h
  exact ⟨_, rfl⟩

/-- A text that opens a dictionary is not the mark of the end. -/
theorem brace_ne_done (rest : Str) : JsonText.openBrace :: rest ≠ lit "[DONE]" := by
  intro h
  have hhead : some JsonText.openBrace = some (cp 91) := congrArg List.head? h
  exact absurd hhead (by decide)

/-- The order of the fields does not matter to the event. -/
theorem eventOfBody_sorted {fields : Entries Str Json} (h : (Entries.keys fields).Nodup) :
    eventOfBody (Json.sortedEntries fields) = eventOfBody fields := by
  simp only [eventOfBody, Json.field_sortedEntries h, Json.isLit_sorted, Json.str?_sorted]

/-- Data without a separator are read as they were written. -/
theorem readBlock_whole {kind : String} (hkind : Kind kind) {fields : Entries Str Json}
    (hdata : Portable (.obj fields)) (hdepth : (Json.obj fields).depth ≤ P.jsonDepth) {text : Str}
    (htext : JsonText.dumps P.float ⟨false, true, false⟩ (.obj fields) = some text)
    (hlines : ∀ c ∈ text, Str.isLineBreak c = false) :
    readBlock P (blockText kind text) = .ok (eventOfBody fields) := by
  obtain ⟨inner, rfl⟩ := exists_braces htext
  have hloads := JsonText.loads_dumps_sorted rfl hdata.plain htext hdepth
  have hstrip : Str.strip (cp 32 :: (JsonText.openBrace :: inner ++ [JsonText.closeBrace])) =
      JsonText.openBrace :: inner ++ [JsonText.closeBrace] := by
    rw [Str.strip, List.dropWhile_cons_of_pos (by decide), List.cons_append,
      List.dropWhile_cons_of_neg (by decide), ← List.cons_append,
      List.rdropWhile_concat_neg _ _ _ (by decide)]
  have hnodup : (Entries.keys fields).Nodup := by
    cases hdata.plain with
    | obj hnodup _ _ => exact hnodup
  rw [readBlock, dataLines_of_forall hkind hlines, hstrip]
  change readData P (JsonText.openBrace :: (inner ++ [JsonText.closeBrace])) = _
  rw [readData, if_neg (brace_ne_done _), ← List.cons_append, hloads, Json.sorted_obj]
  exact congrArg Except.ok (eventOfBody_sorted hnodup)

/-- Data with a separator are cut there, and lost. -/
theorem readBlock_broken {kind : String} (hkind : Kind kind) {fields : Entries Str Json}
    (hdata : Portable (.obj fields)) (hdepth : (Json.obj fields).depth ≤ P.jsonDepth) {text : Str}
    (htext : JsonText.dumps P.float ⟨false, true, false⟩ (.obj fields) = some text)
    {c : CodePoint} (hc : c ∈ text) (hbreak : Str.isLineBreak c = true) :
    readBlock P (blockText kind text) = .ok .ignored := by
  obtain ⟨inner, hbraces⟩ := exists_braces htext
  obtain ⟨a, d, m, hsplit, ha, hd⟩ := exists_first_break hc hbreak
  have hreturn : d ≠ Str.carriageReturn := by
    rintro rfl
    have hmem : Str.carriageReturn ∈ text := by
      rw [hsplit]
      simp
    rcases JsonText.isPrintable_or_mentions hdata.plain htext hmem with ⟨hlow, -⟩ | ⟨hlow, -⟩
    · exact absurd hlow (by decide)
    · exact absurd hlow (by decide)
  have hspace := isSpace_of_isLineBreak hd
  obtain ⟨lines, hlines⟩ := dataLines_of_break (m := m) hkind ha hd hreturn
  have hopen : JsonText.openBrace :: (inner ++ [JsonText.closeBrace]) = a ++ d :: m := by
    rw [← hsplit, hbraces]
    rfl
  obtain ⟨a', rfl, -⟩ := JsonText.cut_cons hopen (by decide) hspace
  obtain ⟨blanks, hblanks, hall⟩ := strip_line (h := JsonText.openBrace) (t := a') (by decide)
  generalize Str.strip (cp 32 :: JsonText.openBrace :: a') = stripped at hlines hblanks
  obtain ⟨d', m', hcut, hspace'⟩ : ∃ d' m', text = stripped ++ d' :: m' ∧ d'.isSpace = true := by
    rw [hsplit, hblanks]
    cases blanks with
    | nil => exact ⟨d, m, by simp, hspace⟩
    | cons b blanks => exact ⟨b, blanks ++ d :: m, by simp, hall b List.mem_cons_self⟩
  obtain ⟨rest, hjoin, hbroken⟩ := exists_join_cons stripped lines
  have hloads := JsonText.loads_cut (by rfl) hdata.plain.sorted
    (JsonText.dumps_sorted rfl htext) hcut hspace' (Json.depth_sorted_le hdepth) hbroken
  obtain ⟨a'', rfl, -⟩ := JsonText.cut_cons (hbraces.symm.trans hcut) (by decide) hspace'
  rw [readBlock, hsplit, hlines]
  change readData P (Str.join (lit "\n") ((JsonText.openBrace :: a'') :: lines)) = _
  rw [hjoin, List.cons_append, readData, if_neg (brace_ne_done _), ← List.cons_append, hloads]

end Reading

section Events

/-- Data that are written and read back, under a kind that fits into a line. -/
structure Sound (P : Platform) (kind : String) (fields : Entries Str Json) : Prop where
  kind : Kind kind
  portable : Portable (.obj fields)
  depth : (Json.obj fields).depth ≤ P.jsonDepth

/-- What is sent for some data, and how it is read. -/
structure Sent (P : Platform) (fields : Entries Str Json) (raw : Bytes) (block : Str) : Prop where
  decoded : Utf8.decode raw = some (block ++ [Str.lineFeed, Str.lineFeed])
  framed : ∀ rest, Str.splitBlocks (block ++ Str.lineFeed :: Str.lineFeed :: rest) =
    (block :: (Str.splitBlocks rest).1, (Str.splitBlocks rest).2)
  whole : (∀ c ∈ separators, ¬ Json.Mentions c (.obj fields)) →
    readBlock P block = .ok (eventOfBody fields)
  broken : ∀ c ∈ separators, Json.Mentions c (.obj fields) → readBlock P block = .ok .ignored

/-- Sound data are sent as one block, which is read unless it holds a separator. -/
theorem exists_sent {kind : String} {fields : Entries Str Json} (h : Sound P kind fields) :
    ∃ raw block, (canonicalJson P (.obj fields)).map (Sse.Reader.eventBytes (Sse.ascii kind)) =
      some raw ∧ Sent P fields raw block := by
  obtain ⟨text, data, htext, hdata⟩ := h.portable.writable.exists_encoded P.float
    ⟨false, true, false⟩
  have hcontrol : ∀ c ∈ text, 32 ≤ c.val := by
    intro c hc
    rcases JsonText.isPrintable_or_mentions h.portable.plain htext hc with ⟨hlow, -⟩ | ⟨hlow, -⟩
    · exact hlow
    · omega
  have hfirst : Str.lineFeed ∉ lit "event: " ++ lit kind := by
    intro hmem
    have hbreak := h.kind.lines _ hmem
    exact absurd hbreak (by decide)
  have hsecond : Str.lineFeed ∉ lit "data: " ++ text := by
    rw [List.mem_append, not_or]
    refine ⟨by decide, fun hmem => ?_⟩
    exact absurd (hcontrol _ hmem) (by decide)
  refine ⟨_, blockText kind text, ?_, decode_eventBytes h.kind hdata, ?_, ?_, ?_⟩
  · rw [canonicalJson, htext, Option.bind_eq_bind, Option.bind_some, hdata, Option.map_some]
  · intro rest
    have hframe := Str.splitBlocks_two_lines hfirst hsecond (by simp [lit]) rest
    simpa only [blockText, List.append_assoc, List.cons_append] using hframe
  · intro hnone
    apply readBlock_whole h.kind h.portable h.depth htext
    intro c hc
    by_contra hbreak
    rcases JsonText.isPrintable_or_mentions h.portable.plain htext hc with
      hprint | ⟨hhigh, hmentions⟩
    · exact hbreak (isLineBreak_of_isPrintable hprint)
    · exact hnone c (mem_separators_iff.mpr ⟨by simpa using hbreak, hhigh⟩) hmentions
  · intro c hc hmentions
    obtain ⟨hbreak, hhigh⟩ := mem_separators_iff.mp hc
    exact readBlock_broken h.kind h.portable h.depth htext
      (JsonText.mem_dumps_of_mentions rfl htext hhigh hmentions) hbreak

/-- Blocks that are sent one by one are translated one by one. -/
theorem translate_sent {raws : List Bytes} {blocks : List Str}
    (h : List.Forall₂ (fun raw block => ∃ fields, Sent P fields raw block) raws blocks) :
    ∃ text, translate P .fresh raws = translateText P text ∧
      Str.splitBlocks text = (blocks, []) := by
  obtain ⟨text, htext, hsplit⟩ : ∃ text, Utf8.decode raws.flatten = some text ∧
      Str.splitBlocks text = (blocks, []) := by
    induction h with
    | nil => exact ⟨[], rfl, rfl⟩
    | @cons raw block raws blocks hsent _ ih =>
        obtain ⟨fields, hsent⟩ := hsent
        obtain ⟨text, htext, hsplit⟩ := ih
        refine ⟨block ++ Str.lineFeed :: Str.lineFeed :: text, ?_, ?_⟩
        · rw [List.flatten_cons, Utf8.decode_append hsent.decoded, htext]
          simp
        · rw [hsent.framed, hsplit]
  have hreadable : ∀ raw ∈ raws, (Utf8.decode raw).isSome := by
    intro raw hraw
    obtain ⟨block, -, fields, hsent⟩ := JsonText.exists_of_forall₂_left h hraw
    rw [hsent.decoded]
    rfl
  exact ⟨text, translate_eq_translateText htext (readableCut_of_forall hreadable), hsplit⟩

/-- The data of an event of an answer. -/
def eventFields (kind : String) (sequenceNumber : Nat) (payload : Entries Str Json) :
    Entries Str Json :=
  (lit "type", .str (lit kind)) :: (lit "sequence_number", .int sequenceNumber) :: payload

theorem sound_eventFields (hdepth : 7 ≤ P.jsonDepth) {kind : String} (hkind : Kind kind)
    {n : Nat} (hn : n < 9) {payload : Entries Str Json} (names : List String)
    (hnames : payload.map Prod.fst = names.map lit)
    (hkeys : ((["type", "sequence_number"] ++ names).map lit).Nodup ∧
      ((["type", "sequence_number"] ++ names).map lit).all Str.encodable = true)
    (hpayload : ∀ e ∈ payload, Portable e.2 ∧ e.2.depth ≤ 6) :
    Sound P kind (eventFields kind n payload) := by
  have hnumber : ∀ n < 9, JsonText.tooLong n = false := by decide
  have hkindText : Str.encodable (lit kind) = true := by
    apply Str.encodable_of_ascii
    intro c hc
    have hboth := List.all_eq_true.mp hkind c hc
    simp only [Bool.and_eq_true] at hboth
    exact hboth.1
  refine ⟨hkind, Portable.obj (["type", "sequence_number"] ++ names) ?_ hkeys ?_, ?_⟩
  · rw [eventFields, List.map_cons, List.map_cons, hnames]
    rfl
  · rw [eventFields, List.forall_mem_cons, List.forall_mem_cons]
    exact ⟨.str hkindText, .int (hnumber n hn), fun e he => (hpayload e he).1⟩
  · have hfields : Json.depthFields (eventFields kind n payload) ≤ 6 := by
      rw [Json.depthFields_le_iff, eventFields, List.forall_mem_cons, List.forall_mem_cons]
      exact ⟨Nat.zero_le _, Nat.zero_le _, fun e he => (hpayload e he).2⟩
    rw [Json.depth]
    omega

end Events

section Answer

variable (answer : ProviderAnswer)

theorem isAscii_of_urlSafeChar {c : CodePoint} (h : urlSafeChar c = true) :
    c.isAscii = true := by
  have hval {n : Nat} (hn : n < 0x110000) : c = cp n ↔ c.val = n := by
    rw [Fin.ext_iff, JsonText.cp_val_of_lt hn]
  simp only [urlSafeChar, CodePoint.isAsciiAlnum, CodePoint.isAsciiAlpha, CodePoint.isAsciiLower,
    CodePoint.isAsciiUpper, CodePoint.isAsciiDigit, Bool.or_eq_true, Bool.and_eq_true,
    decide_eq_true_eq, beq_iff_eq, hval (by decide : 95 < 0x110000),
    hval (by decide : 45 < 0x110000)] at h
  simp only [CodePoint.isAscii, decide_eq_true_eq]
  omega

theorem itemId_ascii : ∀ c ∈ answer.itemId, c.isAscii = true := by
  have hpre : (lit "msg_").all CodePoint.isAscii = true := by decide
  rw [ProviderAnswer.itemId, List.forall_mem_append]
  refine ⟨List.all_eq_true.mp hpre, fun c hc => ?_⟩
  have hsafe := List.all_eq_true.mp answer.itemToken_urlSafe c hc
  exact isAscii_of_urlSafeChar hsafe

theorem portable_itemId : Portable (.str answer.itemId) :=
  .str (Str.encodable_of_ascii (itemId_ascii answer))

theorem portable_position : ∀ e ∈ answer.position, Portable e.2 ∧ e.2.depth ≤ 6 := by
  simp only [ProviderAnswer.position, List.forall_mem_cons]
  refine ⟨⟨portable_itemId answer, Nat.zero_le _⟩, ⟨.int (by decide), Nat.zero_le _⟩,
    ⟨.int (by decide), Nat.zero_le _⟩, nofun⟩

theorem portable_outputText : Portable (.obj answer.outputText) := by
  refine .obj ["type", "text", "annotations", "logprobs"] rfl (by decide) ?_
  simp only [ProviderAnswer.outputText, List.forall_mem_cons]
  exact ⟨.str (by decide), .str answer.text_encodable, .arr nofun, .arr nofun, nofun⟩

theorem portable_outputItem : Portable (.obj answer.outputItem) := by
  refine .obj ["id", "type", "status", "role", "content"] rfl (by decide) ?_
  simp only [ProviderAnswer.outputItem, List.forall_mem_cons]
  refine ⟨portable_itemId answer, .str (by decide), .str (by decide), .str (by decide), .arr ?_,
    nofun⟩
  rintro v (_ | ⟨_, ⟨⟩⟩)
  exact portable_outputText answer

theorem portable_emptyResponse : Portable (.obj answer.emptyResponse) := by
  refine .obj ["id", "object", "created_at", "model", "status", "output", "error",
    "incomplete_details", "usage"] rfl (by decide) ?_
  simp only [ProviderAnswer.emptyResponse, List.forall_mem_cons]
  exact ⟨.str answer.responseId_encodable, .str (by decide), .int answer.createdAt_written,
    .str answer.model_encodable, .str (by decide), .arr nofun, .null, .null, .null, nofun⟩

/-- The fields of `completed_response`, in their order. -/
theorem completedResponse_eq : answer.completedResponse =
    [(lit "id", .str answer.responseId), (lit "object", .str (lit "response")),
      (lit "created_at", .int answer.createdAt), (lit "model", .str answer.model),
      (lit "status", .str (lit "completed")), (lit "output", .arr [.obj answer.outputItem]),
      (lit "error", .null), (lit "incomplete_details", .null), (lit "usage", .null),
      (lit "completed_at", .int answer.completedAt)] := by
  rfl

theorem portable_completedResponse : Portable (.obj answer.completedResponse) := by
  rw [completedResponse_eq]
  refine .obj ["id", "object", "created_at", "model", "status", "output", "error",
    "incomplete_details", "usage", "completed_at"] rfl (by decide) ?_
  simp only [List.forall_mem_cons]
  refine ⟨.str answer.responseId_encodable, .str (by decide), .int answer.createdAt_written,
    .str answer.model_encodable, .str (by decide), .arr ?_, .null, .null, .null,
    .int answer.completedAt_written, nofun⟩
  rintro v (_ | ⟨_, ⟨⟩⟩)
  exact portable_outputItem answer

theorem openedItem_eq : answer.openedItem =
    [(lit "id", .str answer.itemId), (lit "type", .str (lit "message")),
      (lit "status", .str (lit "in_progress")), (lit "role", .str (lit "assistant")),
      (lit "content", .arr [])] := by
  rfl

theorem portable_openedItem : Portable (.obj answer.openedItem) := by
  rw [openedItem_eq]
  refine .obj ["id", "type", "status", "role", "content"] rfl (by decide) ?_
  simp only [List.forall_mem_cons]
  exact ⟨portable_itemId answer, .str (by decide), .str (by decide), .str (by decide), .arr nofun,
    nofun⟩

theorem openedText_eq : answer.openedText =
    [(lit "type", .str (lit "output_text")), (lit "text", .str []),
      (lit "annotations", .arr []), (lit "logprobs", .arr [])] := by
  rfl

theorem portable_openedText : Portable (.obj answer.openedText) := by
  rw [openedText_eq]
  refine .obj ["type", "text", "annotations", "logprobs"] rfl (by decide) ?_
  simp only [List.forall_mem_cons]
  exact ⟨.str (by decide), .str (by decide), .arr nofun, .arr nofun, nofun⟩

/-- How deep the data of the events are nested. -/
theorem depth_le : (Json.obj answer.emptyResponse).depth ≤ 6 ∧
    (Json.obj answer.completedResponse).depth ≤ 6 ∧ (Json.obj answer.openedItem).depth ≤ 6 ∧
    (Json.obj answer.outputItem).depth ≤ 6 ∧ (Json.obj answer.openedText).depth ≤ 6 ∧
    (Json.obj answer.outputText).depth ≤ 6 := by
  rw [completedResponse_eq, openedItem_eq, openedText_eq]
  simp [ProviderAnswer.emptyResponse, ProviderAnswer.outputItem, ProviderAnswer.outputText,
    Json.depth, Json.depthFields, Json.depthItems]

/-- Every event of an answer can be sent. -/
theorem sound_events (hdepth : 7 ≤ P.jsonDepth) {n : Nat} (hn : n < 9) :
    ∀ e ∈ answer.events, Sound P e.1 (eventFields e.1 n e.2) := by
  obtain ⟨hempty, hcompleted, hopened, hitem, hopenedText, htext⟩ := depth_le answer
  have hposition := portable_position answer
  have hnumber : Portable (.int (0 : Nat)) ∧ (Json.int (0 : Nat)).depth ≤ 6 :=
    ⟨.int (by decide), Nat.zero_le _⟩
  simp only [ProviderAnswer.events, List.forall_mem_cons]
  refine ⟨?_, ?_, ?_, ?_, ?_, ?_, ?_, ?_, ?_, nofun⟩
  · refine sound_eventFields hdepth (by decide) hn ["response"] rfl (by decide) ?_
    rw [List.forall_mem_singleton]
    exact ⟨portable_emptyResponse answer, hempty⟩
  · refine sound_eventFields hdepth (by decide) hn ["response"] rfl (by decide) ?_
    rw [List.forall_mem_singleton]
    exact ⟨portable_emptyResponse answer, hempty⟩
  · refine sound_eventFields hdepth (by decide) hn ["output_index", "item"] rfl (by decide) ?_
    rw [List.forall_mem_cons, List.forall_mem_singleton]
    exact ⟨hnumber, portable_openedItem answer, hopened⟩
  · refine sound_eventFields hdepth (by decide) hn
      ["item_id", "output_index", "content_index", "part"] rfl (by decide) ?_
    rw [List.forall_mem_append, List.forall_mem_singleton]
    exact ⟨hposition, portable_openedText answer, hopenedText⟩
  · refine sound_eventFields hdepth (by decide) hn
      ["item_id", "output_index", "content_index", "delta", "logprobs"] rfl (by decide) ?_
    rw [List.forall_mem_append, List.forall_mem_cons, List.forall_mem_singleton]
    exact ⟨hposition, ⟨.str answer.text_encodable, Nat.zero_le _⟩, .arr nofun, by decide⟩
  · refine sound_eventFields hdepth (by decide) hn
      ["item_id", "output_index", "content_index", "text", "logprobs"] rfl (by decide) ?_
    rw [List.forall_mem_append, List.forall_mem_cons, List.forall_mem_singleton]
    exact ⟨hposition, ⟨.str answer.text_encodable, Nat.zero_le _⟩, .arr nofun, by decide⟩
  · refine sound_eventFields hdepth (by decide) hn
      ["item_id", "output_index", "content_index", "part"] rfl (by decide) ?_
    rw [List.forall_mem_append, List.forall_mem_singleton]
    exact ⟨hposition, portable_outputText answer, htext⟩
  · refine sound_eventFields hdepth (by decide) hn ["output_index", "item"] rfl (by decide) ?_
    rw [List.forall_mem_cons, List.forall_mem_singleton]
    exact ⟨hnumber, portable_outputItem answer, hitem⟩
  · refine sound_eventFields hdepth (by decide) hn ["response"] rfl (by decide) ?_
    rw [List.forall_mem_singleton]
    exact ⟨portable_completedResponse answer, hcompleted⟩

end Answer

section Text

/-- The content delta of what the client reads. -/
def contentDelta (output : Output) : Str := ((output.deltaField "content").str?).getD []

/-- The text that a frame adds. -/
def frameText : Frame → Str
  | .content delta => delta
  | .role | .stop | .done => []

theorem contentDelta_output (ctx : Context) (created : Int) (frame : Frame) :
    contentDelta (frame.output ctx created) = frameText frame := by
  cases frame with
  | role => rfl
  | content delta => rfl
  | stop => rfl
  | done => rfl

theorem contentDeltas_outputs (ctx : Context) (clock : Nat → Int) (frames : List Frame) :
    (outputs ctx clock frames).flatMap contentDelta = frames.flatMap frameText := by
  induction frames generalizing clock with
  | nil => rfl
  | cons frame frames ih =>
      have hcons : outputs ctx clock (frame :: frames) =
          frame.output ctx (clock 0) :: outputs ctx (fun i => clock (i + 1)) frames := by
        rw [outputs, List.mapIdx_cons, outputs]
      rw [hcons, List.flatMap_cons, List.flatMap_cons, contentDelta_output, ih]

variable (P) in
/-- The chat chunks carry exactly the text of the answer. -/
def CarriesText (ctx : Context) (clock : Nat → Int) (answer : ProviderAnswer) : Prop :=
  ∃ chunks, providerResponsesStream P answer = chunks.map some ∧
    (translate P .fresh chunks).2 = .returned ∧
    (outputs ctx clock (translate P .fresh chunks).1).flatMap contentDelta = answer.text

variable (answer : ProviderAnswer)

/-- The data of the delta. -/
def deltaFields : Entries Str Json :=
  eventFields "response.output_text.delta" 4
    (answer.position ++ [(lit "delta", .str answer.text), (lit "logprobs", .arr [])])

/-- The data of the completed event. -/
def completedFields : Entries Str Json :=
  eventFields "response.completed" 8 [(lit "response", .obj answer.completedResponse)]

theorem eventOfBody_delta : eventOfBody (deltaFields answer) = .delta answer.text := by
  rfl

theorem eventOfBody_completed : eventOfBody (completedFields answer) = .completed := by
  rfl

theorem mentions_delta {c : CodePoint} (h : c ∈ answer.text) :
    Json.Mentions c (.obj (deltaFields answer)) :=
  .value (e := (lit "delta", .str answer.text)) (by simp [deltaFields, eventFields]) (.str h)

theorem mentions_completed {c : CodePoint} (h : c ∈ answer.text) :
    Json.Mentions c (.obj (completedFields answer)) := by
  have htext : Json.Mentions c (.obj answer.outputText) :=
    .value (e := (lit "text", .str answer.text)) (by simp [ProviderAnswer.outputText]) (.str h)
  have hitem : Json.Mentions c (.obj answer.outputItem) :=
    .value (e := (lit "content", .arr [.obj answer.outputText]))
      (by simp [ProviderAnswer.outputItem])
      (.item List.mem_cons_self htext)
  have hresponse : Json.Mentions c (.obj answer.completedResponse) := by
    rw [completedResponse_eq]
    exact .value (e := (lit "output", .arr [.obj answer.outputItem])) (by simp)
      (.item List.mem_cons_self hitem)
  exact .value (e := (lit "response", .obj answer.completedResponse))
    (by simp [completedFields, eventFields]) hresponse

theorem notMem_of_ascii {s : Str} (hs : ∀ c ∈ s, c.isAscii = true) {c : CodePoint}
    (hc : c ∈ separators) : c ∉ s := by
  intro hmem
  have hlow := hs c hmem
  have hhigh := (mem_separators_iff.mp hc).2
  simp only [separators, List.mem_cons, List.not_mem_nil, or_false] at hc
  rcases hc with rfl | rfl | rfl
  · exact absurd hlow (by decide)
  · exact absurd hlow (by decide)
  · exact absurd hlow (by decide)

theorem notMem_lit {s : String} (hs : (lit s).all CodePoint.isAscii = true) {c : CodePoint}
    (hc : c ∈ separators) : c ∉ lit s :=
  notMem_of_ascii (List.all_eq_true.mp hs) hc

theorem mentions_str {s : Str} {c : CodePoint} (h : Json.Mentions c (.str s)) : c ∈ s := by
  cases h with
  | str hc => exact hc

theorem not_mentions_int {n : Int} {c : CodePoint} : ¬ Json.Mentions c (.int n) := nofun

theorem not_mentions_nil {c : CodePoint} : ¬ Json.Mentions c (.arr []) := by
  rintro (_ | ⟨hmem, -⟩)
  cases hmem

/-- Where a dictionary mentions a character. -/
theorem mentions_obj {fields : Entries Str Json} {c : CodePoint}
    (h : Json.Mentions c (.obj fields)) :
    ∃ e ∈ fields, c ∈ e.1 ∨ Json.Mentions c e.2 := by
  cases h with
  | key he hc => exact ⟨_, he, .inl hc⟩
  | value he hc => exact ⟨_, he, .inr hc⟩

/-- The keys of the data of the delta are constants of the program. -/
theorem keys_deltaFields : ∀ e ∈ deltaFields answer, ∀ c ∈ separators, c ∉ e.1 := by
  intro e he c hc
  have hnames : ∃ name, e.1 = lit name ∧ (lit name).all CodePoint.isAscii = true := by
    simp only [deltaFields, eventFields, ProviderAnswer.position, List.cons_append,
      List.nil_append, List.mem_cons, List.not_mem_nil, or_false] at he
    rcases he with rfl | rfl | rfl | rfl | rfl | rfl | rfl
    · exact ⟨"type", rfl, by decide⟩
    · exact ⟨"sequence_number", rfl, by decide⟩
    · exact ⟨"item_id", rfl, by decide⟩
    · exact ⟨"output_index", rfl, by decide⟩
    · exact ⟨"content_index", rfl, by decide⟩
    · exact ⟨"delta", rfl, by decide⟩
    · exact ⟨"logprobs", rfl, by decide⟩
  obtain ⟨name, hname, hascii⟩ := hnames
  rw [hname]
  exact notMem_lit hascii hc

/-- The data of the delta mention separators only in the text. -/
theorem mem_text_of_mentions_delta {c : CodePoint} (hc : c ∈ separators)
    (h : Json.Mentions c (.obj (deltaFields answer))) : c ∈ answer.text := by
  obtain ⟨e, he, hmention⟩ := mentions_obj h
  replace hmention := hmention.resolve_left (keys_deltaFields answer e he c hc)
  simp only [deltaFields, eventFields, ProviderAnswer.position, List.cons_append,
    List.nil_append, List.mem_cons, List.not_mem_nil, or_false] at he
  rcases he with rfl | rfl | rfl | rfl | rfl | rfl | rfl
  · exact absurd (mentions_str hmention) (notMem_lit (by decide) hc)
  · exact absurd hmention not_mentions_int
  · exact absurd (mentions_str hmention) (notMem_of_ascii (itemId_ascii answer) hc)
  · exact absurd hmention not_mentions_int
  · exact absurd hmention not_mentions_int
  · exact mentions_str hmention
  · exact absurd hmention not_mentions_nil

/-- The kinds that the translation passes over. -/
def Passed (kind : String) : Prop :=
  lit kind ≠ lit "response.output_text.delta" ∧ lit kind ≠ lit "response.completed"

instance (kind : String) : Decidable (Passed kind) := inferInstanceAs (Decidable (_ ∧ _))

theorem eventOfBody_passed {kind : String} (hkind : Passed kind) (n : Nat)
    (payload : Entries Str Json) : eventOfBody (eventFields kind n payload) = .ignored := by
  have htype : Json.field (eventFields kind n payload) "type" = .str (lit kind) :=
    Json.field_cons_self ..
  rw [eventOfBody, htype, if_neg, if_neg]
  · rw [Json.isLit_iff, Json.str.injEq]
    exact hkind.2
  · rw [Json.isLit_iff, Json.str.injEq]
    exact hkind.1

/-- Data under any other kind are ignored, read or not. -/
theorem readBlock_passed {kind : String} {n : Nat} {payload : Entries Str Json} {raw : Bytes}
    {block : Str} (h : Sent P (eventFields kind n payload) raw block) (hkind : Passed kind) :
    readBlock P block = .ok .ignored := by
  by_cases hmentions : ∃ c ∈ separators, Json.Mentions c (.obj (eventFields kind n payload))
  · obtain ⟨c, hc, hmentions⟩ := hmentions
    exact h.broken c hc hmentions
  · rw [h.whole fun c hc hmention => hmentions ⟨c, hc, hmention⟩, eventOfBody_passed hkind]

/-- Events of other kinds, one after the other. -/
theorem exists_passed (n : Nat) (events : List (String × Entries Str Json))
    (hlength : n + events.length ≤ 9) (hkind : ∀ e ∈ events, Passed e.1)
    (hsound : ∀ k < 9, ∀ e ∈ events, Sound P e.1 (eventFields e.1 k e.2)) :
    ∃ raws blocks, (events.mapIdx fun i e => event P e.1 (i + n) e.2) = raws.map some ∧
      List.Forall₂ (fun raw block => ∃ fields, Sent P fields raw block) raws blocks ∧
      ∀ block ∈ blocks, readBlock P block = .ok .ignored := by
  induction events generalizing n with
  | nil => exact ⟨[], [], rfl, .nil, nofun⟩
  | cons e events ih =>
      rw [List.length_cons] at hlength
      obtain ⟨raws, blocks, hraws, hsent, hread⟩ := ih (n + 1) (by omega)
        (fun e he => hkind e (List.mem_cons_of_mem _ he))
        (fun k hk e he => hsound k hk e (List.mem_cons_of_mem _ he))
      obtain ⟨raw, block, hraw, hblock⟩ := exists_sent (hsound n (by omega) e List.mem_cons_self)
      refine ⟨raw :: raws, block :: blocks, ?_, .cons ⟨_, hblock⟩ hsent, ?_⟩
      · rw [List.mapIdx_cons, List.map_cons, ← hraws, event, eventData, Nat.zero_add]
        refine congrArg₂ _ hraw (congrArg₂ _ ?_ rfl)
        funext i e
        rw [Nat.add_right_comm, Nat.add_assoc]
      · have hfirst := readBlock_passed hblock (hkind e List.mem_cons_self)
        exact List.forall_mem_cons.mpr ⟨hfirst, hread⟩

/-- What the nine blocks of an answer say. -/
theorem exists_blocks (hdepth : 7 ≤ P.jsonDepth) :
    ∃ raws before delta after completed,
      providerResponsesStream P answer = raws.map some ∧
      List.Forall₂ (fun raw block => ∃ fields, Sent P fields raw block) raws
        (before ++ (delta :: (after ++ [completed]))) ∧
      (∀ block ∈ before, readBlock P block = .ok .ignored) ∧
      (∀ block ∈ after, readBlock P block = .ok .ignored) ∧
      (∃ raw, Sent P (deltaFields answer) raw delta) ∧
      ∃ raw, Sent P (completedFields answer) raw completed := by
  have hsound (n : Nat) (hn : n < 9) (e : String × Entries Str Json) (he : e ∈ answer.events) :=
    sound_events (P := P) answer hdepth hn e he
  obtain ⟨raws, before, hraws, hsent, hbefore⟩ := exists_passed (P := P) 0
    (answer.events.take 4) (by simp [ProviderAnswer.events])
    (by simp [ProviderAnswer.events]; decide)
    (fun k hk e he => hsound k hk e (List.mem_of_mem_take he))
  obtain ⟨rawsAfter, after, hrawsAfter, hsentAfter, hafter⟩ := exists_passed (P := P) 5
    ((answer.events.drop 5).take 3) (by simp [ProviderAnswer.events])
    (by simp [ProviderAnswer.events]; decide)
    (fun k hk e he => hsound k hk e (List.mem_of_mem_drop (List.mem_of_mem_take he)))
  have hsoundDelta : Sound P "response.output_text.delta" (deltaFields answer) :=
    hsound 4 (by decide) _ (List.mem_of_getElem? (i := 4) rfl)
  have hsoundCompleted : Sound P "response.completed" (completedFields answer) :=
    hsound 8 (by decide) _ (List.mem_of_getElem? (i := 8) rfl)
  obtain ⟨rawDelta, delta, hrawDelta, hdelta⟩ := exists_sent hsoundDelta
  obtain ⟨rawCompleted, completed, hrawCompleted, hcompleted⟩ := exists_sent hsoundCompleted
  refine ⟨raws ++ (rawDelta :: (rawsAfter ++ [rawCompleted])), before, delta, after, completed,
    ?_, ?_, hbefore, hafter, ⟨rawDelta, hdelta⟩, ⟨rawCompleted, hcompleted⟩⟩
  · have hall : providerResponsesStream P answer =
        ((answer.events.take 4).mapIdx fun i e => event P e.1 (i + 0) e.2) ++
          ((canonicalJson P (.obj (deltaFields answer))).map
              (Sse.Reader.eventBytes (Sse.ascii "response.output_text.delta")) ::
            ((((answer.events.drop 5).take 3).mapIdx fun i e => event P e.1 (i + 5) e.2) ++
              [(canonicalJson P (.obj (completedFields answer))).map
                (Sse.Reader.eventBytes (Sse.ascii "response.completed"))])) := rfl
    rw [hall, hraws, hrawsAfter, hrawDelta, hrawCompleted]
    simp
  · exact List.rel_append hsent (.cons ⟨_, hdelta⟩
      (List.rel_append hsentAfter (.cons ⟨_, hcompleted⟩ .nil)))

/-- Blocks that are passed over change nothing. -/
theorem runBlocks_passed (emittedRole : Bool) {blocks : List Str}
    (h : ∀ block ∈ blocks, readBlock P block = .ok .ignored) (more : List Str) :
    runBlocks P emittedRole (blocks ++ more) = runBlocks P emittedRole more := by
  induction blocks with
  | nil => rfl
  | cons block blocks ih =>
      rw [List.cons_append, runBlocks, h block List.mem_cons_self]
      exact ih fun b hb => h b (List.mem_cons_of_mem _ hb)

/-- A last block that is completed, or passed over, adds no text. -/
theorem runBlocks_completed (emittedRole : Bool) {completed : Str}
    (h : readBlock P completed = .ok .completed ∨ readBlock P completed = .ok .ignored) :
    runBlocks P emittedRole [completed] = (closing emittedRole, .finished) ∨
      runBlocks P emittedRole [completed] = ([], .pulling emittedRole) := by
  rcases h with h | h
  · left
    rw [runBlocks, h]
    rfl
  · right
    rw [runBlocks, h]
    rfl

/-- The completed event is read, or lost. -/
theorem readBlock_completed {raw : Bytes} {block : Str}
    (h : Sent P (completedFields answer) raw block) :
    readBlock P block = .ok .completed ∨ readBlock P block = .ok .ignored := by
  by_cases hmentions : ∃ c ∈ separators, Json.Mentions c (.obj (completedFields answer))
  · obtain ⟨c, hc, hmentions⟩ := hmentions
    exact .inr (h.broken c hc hmentions)
  · left
    rw [h.whole fun c hc hmention => hmentions ⟨c, hc, hmention⟩, eventOfBody_completed]

/-- Without a separator in the text, the text is handed on. -/
theorem translateText_of_read {source : Str} {before after : List Str} {delta completed : Str}
    (hsplit : Str.splitBlocks source = (before ++ (delta :: (after ++ [completed])), []))
    (hbefore : ∀ block ∈ before, readBlock P block = .ok .ignored)
    (hafter : ∀ block ∈ after, readBlock P block = .ok .ignored)
    (hdelta : readBlock P delta = .ok (.delta answer.text))
    (hcompleted : readBlock P completed = .ok .completed ∨
      readBlock P completed = .ok .ignored) :
    translateText P source = ([.role, .content answer.text, .stop, .done], .returned) := by
  have hlast := runBlocks_completed true hcompleted
  rw [translateText, hsplit]
  simp only
  rw [runBlocks_passed false hbefore, runBlocks, hdelta]
  simp only [answer.text_encodable, if_true]
  rw [runBlocks_passed true hafter]
  rcases hlast with hlast | hlast
  · rw [hlast]
    rfl
  · rw [hlast]
    rfl

/-- With a separator in the text, nothing of it is handed on. -/
theorem translateText_of_lost {source : Str} {blocks : List Str}
    (hsplit : Str.splitBlocks source = (blocks, []))
    (hblocks : ∀ block ∈ blocks, readBlock P block = .ok .ignored) :
    translateText P source = ([.role, .stop, .done], .returned) := by
  have hrun := runBlocks_passed false hblocks []
  rw [List.append_nil] at hrun
  rw [translateText, hsplit]
  simp only
  rw [hrun]
  rfl

/-- The frames of a whole answer. -/
theorem exists_translated (hdepth : 7 ≤ P.jsonDepth) :
    ∃ raws, providerResponsesStream P answer = raws.map some ∧
      ((∀ c ∈ answer.text, c ∉ separators) →
        translate P .fresh raws =
          ([.role, .content answer.text, .stop, .done], .returned)) ∧
      ((∃ c ∈ answer.text, c ∈ separators) →
        translate P .fresh raws = ([.role, .stop, .done], .returned)) := by
  obtain ⟨raws, before, delta, after, completed, hraws, hsent, hbefore, hafter,
    ⟨rawDelta, hdelta⟩, ⟨rawCompleted, hcompleted⟩⟩ := exists_blocks (P := P) answer hdepth
  obtain ⟨source, htranslate, hsplit⟩ := translate_sent hsent
  refine ⟨raws, hraws, fun hnone => ?_, ?_⟩
  · rw [htranslate]
    apply translateText_of_read answer hsplit hbefore hafter _
      (readBlock_completed answer hcompleted)
    rw [hdelta.whole, eventOfBody_delta]
    exact fun c hc hmentions => hnone c (mem_text_of_mentions_delta answer hc hmentions) hc
  · rintro ⟨c, hmem, hc⟩
    rw [htranslate]
    apply translateText_of_lost hsplit
    have hdeltaLost := hdelta.broken c hc (mentions_delta answer hmem)
    have hcompletedLost := hcompleted.broken c hc (mentions_completed answer hmem)
    rw [List.forall_mem_append, List.forall_mem_cons, List.forall_mem_append,
      List.forall_mem_singleton]
    exact ⟨hbefore, hdeltaLost, hafter, hcompletedLost⟩

/-- The chunks of a stream are determined. -/
theorem carriesText_of_raws {ctx : Context} {clock : Nat → Int} {raws : List Bytes}
    (hraws : providerResponsesStream P answer = raws.map some) :
    CarriesText P ctx clock answer ↔ (translate P .fresh raws).2 = .returned ∧
      (translate P .fresh raws).1.flatMap frameText = answer.text := by
  have hinjective : Function.Injective (Option.some : Bytes → Option Bytes) :=
    Option.some_injective _
  constructor
  · rintro ⟨chunks, hchunks, hreturned, htext⟩
    have hsame : raws = chunks := hinjective.list_map (hraws.symm.trans hchunks)
    rw [contentDeltas_outputs] at htext
    rw [hsame]
    exact ⟨hreturned, htext⟩
  · rintro ⟨hreturned, htext⟩
    rw [← contentDeltas_outputs ctx clock] at htext
    exact ⟨raws, hraws, hreturned, htext⟩

/-- A text survives exactly without a line or paragraph separator and without a next-line
character. -/
theorem carriesText_iff (ctx : Context) (clock : Nat → Int) (hdepth : 7 ≤ P.jsonDepth) :
    CarriesText P ctx clock answer ↔ ∀ c ∈ answer.text, c ∉ separators := by
  obtain ⟨raws, hraws, hread, hlost⟩ := exists_translated (P := P) answer hdepth
  rw [carriesText_of_raws answer hraws]
  constructor
  · rintro ⟨-, htext⟩ c hmem hc
    rw [hlost ⟨c, hmem, hc⟩] at htext
    have hempty : answer.text = [] := htext.symm
    rw [hempty] at hmem
    cases hmem
  · intro hnone
    rw [hread hnone]
    refine ⟨rfl, ?_⟩
    simp [frameText]

theorem encodable_sampleResponse : Str.encodable (lit "resp_1") = true := by decide

/-- The answer with some text, for concrete runs. -/
def answerOf (text : Str) (h : text.encodable = true) : ProviderAnswer where
  responseId := lit "resp_1"
  model := lit "basic"
  text := text
  itemToken := lit "AAAA"
  createdAt := 1700000000
  completedAt := 1700000001
  responseId_encodable := encodable_sampleResponse
  model_encodable := by decide
  text_encodable := h
  itemToken_urlSafe := by decide
  createdAt_written := by decide
  completedAt_written := by decide

/-- The identifiers of concrete runs. -/
def Context.sample : Context :=
  ⟨lit "resp_1", lit "basic", encodable_sampleResponse, by decide⟩

theorem carriesText_hello :
    CarriesText Platform.sample Context.sample (fun _ => 0)
      (answerOf (lit "hello") (by decide)) := by
  apply (carriesText_iff _ _ _ (by decide)).mpr
  exact fun c hmem hc => notMem_lit (by decide) hc hmem

/-- A text of two lines that a line separator parts. -/
def parted : Str := [cp 97, cp 0x2028, cp 98]

/-- The line separator loses the whole text. -/
theorem not_carriesText_parted :
    ¬ ∀ (P : Platform) (ctx : Context) (clock : Nat → Int) (answer : ProviderAnswer),
      CarriesText P ctx clock answer := by
  intro hall
  have hcarries := hall Platform.sample Context.sample (fun _ => 0) (answerOf parted (by decide))
  obtain ⟨raws, hraws, -, hlost⟩ :=
    exists_translated (P := Platform.sample) (answerOf parted (by decide)) (by decide)
  obtain ⟨-, htext⟩ := (carriesText_of_raws _ hraws).mp hcarries
  rw [hlost ⟨cp 0x2028, by decide, by decide⟩] at htext
  cases htext

end Text

end ProviderStream

end MediaBridge.Gateway
