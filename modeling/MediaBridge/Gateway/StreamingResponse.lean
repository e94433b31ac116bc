import MediaBridge.Foundation.Occurrences
import MediaBridge.Gateway.LegacyState
import MediaBridge.Gateway.Streams

/-!
# Reading the identifier of a stream

`_extract_sse_response_id` and `GuardedResponsesDownstream._streaming_response` in
`media_bridge_gateway/downstream.py`: chunks are held back until an event with an identifier has
been found, and are then handed on with the chunks that follow.

## Implementation notes

`findId` is the loop before the response exists and `drain` the loop of the generator behind it.
What `httpx` raises while it reads is the ending of an `Upstream`.
-/

namespace MediaBridge.Gateway

open Foundation MediaBridge.Core

namespace StreamingResponse

/-- How the body of the upstream's response comes to its end. -/
inductive UpstreamEnd
  | ended
  | timeout
  | requestError
deriving DecidableEq

/-- What `response.aiter_bytes()` yields. -/
structure Upstream where
  statusCode : Nat
  chunks : List Bytes
  ending : UpstreamEnd

/-- The settings of a downstream that `_streaming_response` reads. -/
structure Settings where
  errorPrefix : Str
  maxResponseBytes : Nat

/-- An exception of `_streaming_response`. -/
inductive StreamingError
  | downstream (code safeMessage : Str)
  | timeout
  | requestError
  | integerTooLong
  | recursion
deriving DecidableEq

/-- The identifier of an event. -/
def objectId (event : Entries Str Json) : Option Str :=
  match (Json.field event "id").str? with
  | some directId => some directId
  | none =>
      match Json.field event "response" with
      | .obj response => (Json.field response "id").str?
      | _ => none

/-- What a line says. -/
def eventId (P : Platform) (line : Str) : Except StreamingError (Option Str) :=
  if Str.startsWith line (lit "data:") then
    let data := Str.strip (line.drop 5)
    if data = [] ∨ data = lit "[DONE]" then .ok none
    else
      match JsonText.loads P.float P.jsonDepth data with
      | .ok (.obj event) => .ok (objectId event)
      | .ok _ => .ok none
      | .error .decode => .ok none
      | .error .intTooLong => .error .integerTooLong
      | .error .recursion => .error .recursion
  else .ok none

/-- The loop over the lines. -/
def firstId (P : Platform) : List Str → Except StreamingError (Option Str)
  | [] => .ok none
  | line :: lines =>
      match eventId P line with
      | .ok none => firstId P lines
      | found => found

/-- `_extract_sse_response_id`. -/
def extractSseResponseId (P : Platform) (body : Bytes) : Except StreamingError (Option Str) :=
  match Utf8.decode body with
  | none => .ok none
  | some text => firstId P (Str.splitlines text)

/-- How many bytes may be held back. -/
def Settings.bufferLimit (s : Settings) : Nat := min s.maxResponseBytes (64 * 1024)

/-- `_invalid_response`. -/
def Settings.invalidResponse (s : Settings) : StreamingError :=
  .downstream (s.errorPrefix ++ lit "_response_invalid")
    (lit "Downstream response did not contain a valid response identifier.")

/-- The local variables after the loop that looks for the identifier. -/
structure Found where
  responseId : Str
  buffered : List Bytes
  rest : List Bytes

/-- The loop that looks for the identifier. -/
def findId (P : Platform) (s : Settings) (ending : UpstreamEnd) (total : Nat)
    (buffered : List Bytes) : List Bytes → Except StreamingError Found
  | [] =>
      match ending with
      | .ended => .error s.invalidResponse
      | .timeout => .error .timeout
      | .requestError => .error .requestError
  | chunk :: rest =>
      if s.bufferLimit < total + chunk.length then .error s.invalidResponse
      else
        match extractSseResponseId P (buffered ++ [chunk]).flatten with
        | .error e => .error e
        | .ok none => findId P s ending (total + chunk.length) (buffered ++ [chunk]) rest
        | .ok (some responseId) => .ok ⟨responseId, buffered ++ [chunk], rest⟩

/-- The second loop of `stream_body`. -/
def drain (s : Settings) (ending : UpstreamEnd) (total : Nat) : List Bytes → Source
  | [] =>
      match ending with
      | .ended => ⟨[], .ended⟩
      | .timeout =>
          ⟨[], .downstreamError (s.errorPrefix ++ lit "_timeout")
            (lit "Downstream request timed out.")⟩
      | .requestError =>
          ⟨[], .downstreamError (s.errorPrefix ++ lit "_transport")
            (lit "Downstream transport failed.")⟩
  | chunk :: rest =>
      if s.maxResponseBytes < total + chunk.length then
        ⟨[], .downstreamError (s.errorPrefix ++ lit "_response_oversized")
          (lit "Downstream response exceeded the configured limit.")⟩
      else
        let r := drain s ending (total + chunk.length) rest
        ⟨chunk :: r.chunks, r.ending⟩

/-- `stream_body`. -/
def streamBody (s : Settings) (ending : UpstreamEnd) (found : Found) : Source :=
  let r := drain s ending found.buffered.flatten.length found.rest
  ⟨found.buffered ++ r.chunks, r.ending⟩

/-- `_streaming_response`. -/
def streamingResponse (P : Platform) (s : Settings) (upstream : Upstream) :
    Except StreamingError (GatewayResponse × Source) :=
  match findId P s upstream.ending 0 [] upstream.chunks with
  | .error e => .error e
  | .ok found =>
      if responseIdPattern found.responseId then
        .ok (⟨[], lit "text/event-stream", found.responseId, upstream.statusCode, true⟩,
          streamBody s upstream.ending found)
      else .error s.invalidResponse

/-- The first event with an identifier: what is before it, its line up to the white space at the
end, and the number of bytes up to there. -/
structure FirstIdentifier (P : Platform) (data : Bytes) (before event blanks : Str) (size : Nat)
    (id : Str) : Prop where
  starts : Str.EndsLine before
  line : ∀ c ∈ event, Str.isLineBreak c = false
  tight : event.getLast?.any CodePoint.isSpace = false
  blank : ∀ c ∈ blanks, c.isSpace = true ∧ Str.isLineBreak c = false
  complete : Utf8.decode data = some (before ++ (event ++ blanks)) ∨
    ∃ n c, Utf8.decode (data.take n) = some (before ++ (event ++ blanks ++ [c])) ∧
      Str.isLineBreak c = true
  earlier : ∀ line ∈ Str.splitlines before, ∀ other, eventId P line ≠ .ok (some other)
  found : eventId P event = .ok (some id)
  text : Utf8.decode (data.take size) = some (before ++ event)
  size_le : size ≤ data.length

/-- The stream holds the upstream's bytes, or the ones before an error if there are too many. -/
def Relays (s : Settings) (data : Bytes) (stream : Source) : Prop :=
  (data.length ≤ s.maxResponseBytes →
      stream.chunks.flatten = data ∧ stream.ending = .ended) ∧
    (s.maxResponseBytes < data.length → stream.chunks.flatten <+: data ∧
      ∃ code safeMessage, stream.ending = .downstreamError code safeMessage)

/-- The response is accepted with the identifier of a complete event, and is relayed. -/
def Faithful (P : Platform) (s : Settings) (upstream : Upstream) (size : Nat) (id : Str) : Prop :=
  ∃ found response stream,
    findId P s upstream.ending 0 [] upstream.chunks = .ok found ∧
      size ≤ found.buffered.flatten.length ∧
      streamingResponse P s upstream = .ok (response, stream) ∧ response.responseId = id ∧
      Relays s upstream.chunks.flatten stream

/-- The chunks let the first identifier be found. -/
structure CutsWell (P : Platform) (s : Settings) (chunks : List Bytes) (before : Str)
    (size : Nat) : Prop where
  readable : ∀ line ∈ Str.splitlines before, eventId P line = .ok none
  reached : ∃ k, size ≤ (chunks.take k).flatten.length ∧
    (chunks.take k).flatten.length ≤ s.bufferLimit ∧
    (Utf8.decode (chunks.take k).flatten).isSome = true
  early : ∀ k, (chunks.take k).flatten.length < size → ∀ text line,
    Utf8.decode (chunks.take k).flatten = some text →
    (Str.splitlines text).getLast? = some line → eventId P line = .ok none

section Reading

variable {P : Platform} {data : Bytes} {before event blanks id : Str} {size : Nat}

theorem decode_take_le {m n : Nat} {text more : Str} (hle : m ≤ n)
    (htext : Utf8.decode (data.take m) = some text)
    (hmore : Utf8.decode (data.take n) = some more) : ∃ rest, more = text ++ rest := by
  obtain ⟨suffix, hsuffix⟩ := (List.take_prefix_take_left hle : data.take m <+: data.take n)
  rw [← hsuffix, Utf8.decode_append htext] at hmore
  obtain ⟨rest, -, hrest⟩ := Option.map_eq_some_iff.mp hmore
  exact ⟨rest, hrest.symm⟩

/-- Lines without an identifier are passed over. -/
theorem firstId_append {lines : List Str} (h : ∀ line ∈ lines, eventId P line = .ok none)
    (more : List Str) : firstId P (lines ++ more) = firstId P more := by
  induction lines with
  | nil => rfl
  | cons line lines ih =>
      obtain ⟨hline, hlines⟩ := List.forall_mem_cons.mp h
      rw [List.cons_append, firstId, hline]
      exact ih hlines

theorem firstId_singleton (line : Str) : firstId P [line] = eventId P line := by
  rw [firstId]
  split
  · rename_i hnone
    rw [hnone]
    rfl
  · rfl

/-- The line that gives the identifier, where no line before it could give one. -/
theorem firstId_append_cons_eq {lines more : List Str} {line other : Str}
    (hearlier : ∀ line ∈ lines, ∀ other, eventId P line ≠ .ok (some other))
    (hline : eventId P line = .ok (some id))
    (h : firstId P (lines ++ line :: more) = .ok (some other)) :
    (∀ line ∈ lines, eventId P line = .ok none) ∧ other = id := by
  induction lines with
  | nil =>
      rw [List.nil_append, firstId, hline] at h
      cases h
      exact ⟨nofun, rfl⟩
  | cons first lines ih =>
      obtain ⟨hfirst, hlines⟩ := List.forall_mem_cons.mp hearlier
      rw [List.cons_append, firstId] at h
      split at h
      · rename_i hnone
        obtain ⟨hall, hid⟩ := ih hlines h
        exact ⟨List.forall_mem_cons.mpr ⟨hnone, hall⟩, hid⟩
      · exact absurd h (hfirst other)

/-- White space after an event changes nothing. -/
theorem eventId_append_blank (hfound : eventId P event = .ok (some id)) {more : Str}
    (hmore : ∀ c ∈ more, c.isSpace = true) : eventId P (event ++ more) = .ok (some id) := by
  have hdata : Str.startsWith event (lit "data:") = true := by
    by_contra hnot
    rw [eventId, if_neg hnot] at hfound
    cases hfound
  obtain ⟨rest, rfl⟩ := (Str.startsWith_iff ..).mp hdata
  have hlong : Str.startsWith (lit "data:" ++ rest ++ more) (lit "data:") = true := by
    rw [Str.startsWith_iff, List.append_assoc]
    exact List.prefix_append _ _
  have hdrop : (lit "data:" ++ rest ++ more).drop 5 = rest ++ more := by
    rw [List.append_assoc]
    rfl
  have hstrip : Str.strip ((lit "data:" ++ rest ++ more).drop 5) =
      Str.strip ((lit "data:" ++ rest).drop 5) := by
    rw [hdrop, Str.strip_append_of_forall_isSpace rest hmore]
    rfl
  rw [eventId, if_pos hdata] at hfound
  rw [eventId, if_pos hlong, hstrip]
  exact hfound

theorem FirstIdentifier.ne_nil (h : FirstIdentifier P data before event blanks size id) :
    event ≠ [] := by
  rintro rfl
  have hfound := h.found
  rw [eventId, if_neg (by decide)] at hfound
  cases hfound

theorem FirstIdentifier.size_pos (h : FirstIdentifier P data before event blanks size id) :
    0 < size := by
  apply Nat.pos_of_ne_zero
  rintro rfl
  have hnil : some [] = some (before ++ event) := h.text
  rw [eq_comm, Option.some.injEq, List.append_eq_nil_iff] at hnil
  exact h.ne_nil hnil.2

/-- Lines after the ones before the event. -/
theorem FirstIdentifier.splitlines_eq (h : FirstIdentifier P data before event blanks size id)
    (more : Str) : Str.splitlines (before ++ (event ++ more)) =
      Str.splitlines before ++ Str.splitlines (event ++ more) := by
  obtain ⟨lines, hlines, heq⟩ := Str.splitlines_append_of_endsLine h.starts (event ++ more)
  rw [hlines, heq]
  obtain ⟨c, rest, rfl⟩ := List.exists_cons_of_ne_nil h.ne_nil
  have hc := h.line c List.mem_cons_self
  rintro hhead
  cases hhead
  cases hc

/-- A text that goes on after the event, within its line or beyond it. -/
theorem FirstIdentifier.continued (h : FirstIdentifier P data before event blanks size id)
    {n : Nat} (hn : size ≤ n) {text : Str} (htext : Utf8.decode (data.take n) = some text) :
    (∃ pad left, blanks = pad ++ left ∧ text = before ++ (event ++ pad)) ∨
      ∃ c more, Str.isLineBreak c = true ∧
        text = before ++ (event ++ blanks ++ [c]) ++ more := by
  obtain ⟨rest, rfl⟩ := decode_take_le hn h.text htext
  have hwithin {whole : Str} {tail : Str} (hwhole : whole = before ++ (event ++ tail))
      (hpre : ∃ left, whole = before ++ event ++ rest ++ left) : ∃ left, tail = rest ++ left := by
    obtain ⟨left, hleft⟩ := hpre
    refine ⟨left, ?_⟩
    rw [hwhole, List.append_assoc, List.append_assoc] at hleft
    exact List.append_cancel_left (List.append_cancel_left hleft)
  obtain hwhole | ⟨m, c, hline, hc⟩ := h.complete
  · have hdata : Utf8.decode (data.take (max n data.length)) =
        some (before ++ (event ++ blanks)) := by
      rw [List.take_of_length_le (Nat.le_max_right ..)]
      exact hwhole
    obtain ⟨left, hleft⟩ := hwithin rfl (decode_take_le (Nat.le_max_left ..) htext hdata)
    exact .inl ⟨rest, left, hleft, List.append_assoc ..⟩
  · obtain hle | hle := Nat.le_total n m
    · have hpre := decode_take_le hle htext hline
      rw [List.append_assoc event] at hpre
      obtain ⟨left, hleft⟩ := hwithin rfl hpre
      obtain rfl | ⟨left, d, rfl⟩ := List.eq_nil_or_concat left
      · rw [List.append_nil] at hleft
        refine .inr ⟨c, [], hc, ?_⟩
        rw [← hleft]
        simp
      · rw [List.concat_eq_append, ← List.append_assoc] at hleft
        exact .inl ⟨rest, left, (List.append_inj' hleft rfl).1, List.append_assoc ..⟩
    · obtain ⟨more, hmore⟩ := decode_take_le hle hline htext
      exact .inr ⟨c, more, hc, hmore⟩

/-- From the end of the event on, its line gives the identifier. -/
theorem FirstIdentifier.lines_of_le (h : FirstIdentifier P data before event blanks size id)
    {n : Nat} (hn : size ≤ n) {text : Str} (htext : Utf8.decode (data.take n) = some text) :
    ∃ line more, Str.splitlines text = Str.splitlines before ++ line :: more ∧
      eventId P line = .ok (some id) := by
  have hfree {pad : Str} (hpad : ∀ c ∈ pad, c ∈ blanks) :
      ∀ c ∈ event ++ pad, Str.isLineBreak c = false := by
    rw [List.forall_mem_append]
    exact ⟨h.line, fun c hc => (h.blank c (hpad c hc)).2⟩
  obtain ⟨pad, left, hblanks, rfl⟩ | ⟨c, more, hc, rfl⟩ := h.continued hn htext
  · have hpad : ∀ c ∈ pad, c ∈ blanks := fun c hmem =>
      hblanks ▸ List.mem_append_left _ hmem
    refine ⟨event ++ pad, [], ?_, eventId_append_blank h.found fun c hmem =>
      (h.blank c (hpad c hmem)).1⟩
    rw [h.splitlines_eq, Str.splitlines_of_forall (by simp [h.ne_nil]) (hfree hpad)]
  · obtain ⟨lines, hlines, -⟩ := Str.splitlines_append_of_endsLine
      (s := event ++ blanks ++ [c]) (.inr ⟨c, by simp, hc⟩) more
    refine ⟨event ++ blanks, lines, ?_, eventId_append_blank h.found fun c hmem =>
      (h.blank c hmem).1⟩
    rw [Str.splitlines_append_break (hfree fun _ hmem => hmem) hc] at hlines
    rw [List.append_assoc before, List.append_assoc, List.append_assoc, h.splitlines_eq,
      ← List.append_assoc blanks, ← List.append_assoc event, ← List.append_assoc event, hlines]
    rfl

/-- Before the end of the event, the last line decides. -/
theorem FirstIdentifier.extract_of_lt (h : FirstIdentifier P data before event blanks size id)
    (hreadable : ∀ line ∈ Str.splitlines before, eventId P line = .ok none)
    {n : Nat} (hn : n < size) {text : Str} (htext : Utf8.decode (data.take n) = some text) :
    firstId P (Str.splitlines text) =
      match (Str.splitlines text).getLast? with
      | some line => eventId P line
      | none => .ok none := by
  by_cases hempty : text = []
  · rw [hempty]
    rfl
  · obtain ⟨more, hmore⟩ := decode_take_le hn.le htext h.text
    obtain ⟨init, line, line', rest, hlines, hwhole⟩ :=
      Str.splitlines_append_exists hempty more
    have hevent : Str.splitlines (before ++ event) = Str.splitlines before ++ [event] := by
      have hadd := h.splitlines_eq []
      rw [List.append_nil, Str.splitlines_of_forall h.ne_nil h.line] at hadd
      exact hadd
    rw [← hmore, hevent] at hwhole
    have hinit : init <+: Str.splitlines before := by
      have hpre : init <+: Str.splitlines before ++ [event] := hwhole ▸ List.prefix_append _ _
      have hlength := congrArg List.length hwhole
      simp only [List.length_append, List.length_cons, List.length_nil] at hlength
      exact List.prefix_of_prefix_length_le hpre (List.prefix_append _ _) (by omega)
    rw [hlines, firstId_append (fun l hl => hreadable l (hinit.subset hl)), firstId_singleton,
      List.getLast?_concat]

end Reading

section Runs

variable {P : Platform} {s : Settings} {ending : UpstreamEnd} {chunks : List Bytes}

/-- The loop stops at the first chunk with which the text says an identifier. -/
theorem findId_eq_ok_iff {total : Nat} {buffered : List Bytes}
    (htotal : total = buffered.flatten.length) {found : Found} :
    findId P s ending total buffered chunks = .ok found ↔
      ∃ k < chunks.length,
        (∀ j < k, extractSseResponseId P (buffered ++ chunks.take (j + 1)).flatten = .ok none) ∧
        extractSseResponseId P (buffered ++ chunks.take (k + 1)).flatten =
          .ok (some found.responseId) ∧
        (buffered ++ chunks.take (k + 1)).flatten.length ≤ s.bufferLimit ∧
        found.buffered = buffered ++ chunks.take (k + 1) ∧
        found.rest = chunks.drop (k + 1) := by
  subst htotal
  induction chunks generalizing buffered with
  | nil =>
      constructor
      · intro h
        cases ending <;> cases h
      · rintro ⟨k, hk, -⟩
        exact absurd hk (Nat.not_lt_zero _)
  | cons chunk rest ih =>
      have hlength : buffered.flatten.length + chunk.length =
          (buffered ++ [chunk]).flatten.length := by
        simp
      have htake (j : Nat) : buffered ++ (chunk :: rest).take (j + 1) =
          (buffered ++ [chunk]) ++ rest.take j := by
        simp
      rw [findId, hlength]
      split
      · rename_i hover
        constructor
        · nofun
        · rintro ⟨k, -, -, -, hsize, -⟩
          rw [htake, List.flatten_append, List.length_append] at hsize
          omega
      · rename_i hfits
        split
        · rename_i e hread
          constructor
          · nofun
          · rintro ⟨k, -, hnone, hsome, -⟩
            have hfirst := htake 0
            rw [List.take_zero, List.append_nil] at hfirst
            cases k with
            | zero => rw [hfirst, hread] at hsome; cases hsome
            | succ k =>
                have hzero := hnone 0 (Nat.succ_pos k)
                rw [hfirst, hread] at hzero
                cases hzero
        · rename_i hread
          rw [ih]
          constructor
          · rintro ⟨k, hk, hnone, hsome, hsize, hbuffered, hrest⟩
            refine ⟨k + 1, Nat.succ_lt_succ hk, ?_, ?_, ?_, ?_, hrest⟩
            · rintro (_ | j) hj
              · rw [htake, List.take_zero, List.append_nil]
                exact hread
              · rw [htake]
                exact hnone j (Nat.lt_of_succ_lt_succ hj)
            · rw [htake]
              exact hsome
            · rw [htake]
              exact hsize
            · rw [htake]
              exact hbuffered
          · rintro ⟨k, hk, hnone, hsome, hsize, hbuffered, hrest⟩
            cases k with
            | zero =>
                rw [htake, List.take_zero, List.append_nil, hread] at hsome
                cases hsome
            | succ k =>
                rw [htake] at hsome hsize hbuffered
                refine ⟨k, Nat.lt_of_succ_lt_succ hk, fun j hj => ?_, hsome, hsize, hbuffered,
                  hrest⟩
                have hnext := hnone (j + 1) (Nat.succ_lt_succ hj)
                rw [htake] at hnext
                exact hnext
        · rename_i responseId hread
          constructor
          · intro h
            cases h
            refine ⟨0, Nat.succ_pos _, nofun, ?_, ?_, rfl, rfl⟩
            · rw [htake, List.take_zero, List.append_nil]
              exact hread
            · rw [htake, List.take_zero, List.append_nil]
              exact Nat.not_lt.mp hfits
          · rintro ⟨k, -, hnone, hsome, -, hbuffered, hrest⟩
            cases k with
            | zero =>
                rw [htake, List.take_zero, List.append_nil, hread] at hsome
                cases hsome
                obtain ⟨responseId, buffered', rest'⟩ := found
                cases hbuffered
                cases hrest
                rfl
            | succ k =>
                have hzero := hnone 0 (Nat.succ_pos k)
                rw [htake, List.take_zero, List.append_nil, hread] at hzero
                cases hzero

theorem findId_start_eq_ok_iff {found : Found} :
    findId P s ending 0 [] chunks = .ok found ↔
      ∃ k < chunks.length,
        (∀ j < k, extractSseResponseId P (chunks.take (j + 1)).flatten = .ok none) ∧
        extractSseResponseId P (chunks.take (k + 1)).flatten = .ok (some found.responseId) ∧
        (chunks.take (k + 1)).flatten.length ≤ s.bufferLimit ∧
        found.buffered = chunks.take (k + 1) ∧ found.rest = chunks.drop (k + 1) :=
  @findId_eq_ok_iff P s ending chunks 0 [] rfl found

/-- Chunks that fit are handed on. -/
theorem drain_of_le {total : Nat} (h : total + chunks.flatten.length ≤ s.maxResponseBytes) :
    drain s .ended total chunks = ⟨chunks, .ended⟩ := by
  induction chunks generalizing total with
  | nil => rfl
  | cons chunk rest ih =>
      rw [List.flatten_cons, List.length_append] at h
      rw [drain, if_neg (by omega), ih (by omega)]

theorem drain_isPrefix (total : Nat) : (drain s ending total chunks).chunks <+: chunks := by
  induction chunks generalizing total with
  | nil => cases ending <;> exact List.nil_prefix
  | cons chunk rest ih =>
      rw [drain]
      split
      · exact List.nil_prefix
      · exact (List.prefix_cons_inj chunk).mpr (ih _)

/-- More than the limit ends in an error. -/
theorem drain_of_lt {total : Nat} (htotal : total ≤ s.maxResponseBytes)
    (h : s.maxResponseBytes < total + chunks.flatten.length) :
    ∃ code safeMessage, (drain s ending total chunks).ending =
      .downstreamError code safeMessage := by
  induction chunks generalizing total with
  | nil => exact absurd h (Nat.not_lt.mpr htotal)
  | cons chunk rest ih =>
      rw [List.flatten_cons, List.length_append] at h
      rw [drain]
      split
      · exact ⟨_, _, rfl⟩
      · rename_i hfits
        exact ih (Nat.not_lt.mp hfits) (by omega)

/-- What has been held back and what follows it are relayed. -/
theorem relays_streamBody {found : Found} (hchunks : found.buffered ++ found.rest = chunks)
    (hsize : found.buffered.flatten.length ≤ s.maxResponseBytes) :
    Relays s chunks.flatten (streamBody s .ended found) := by
  have hflatten : chunks.flatten = found.buffered.flatten ++ found.rest.flatten := by
    rw [← hchunks, List.flatten_append]
  have hlength : chunks.flatten.length =
      found.buffered.flatten.length + found.rest.flatten.length := by
    rw [hflatten, List.length_append]
  constructor
  · intro hle
    rw [streamBody, drain_of_le (by omega)]
    exact ⟨congrArg List.flatten hchunks, rfl⟩
  · intro hlt
    refine ⟨?_, drain_of_lt hsize (by omega)⟩
    have hcut : (drain s .ended found.buffered.flatten.length found.rest).chunks <+: found.rest :=
      drain_isPrefix _
    obtain ⟨left, hleft⟩ := hcut
    refine ⟨left.flatten, ?_⟩
    rw [← List.flatten_append, streamBody, List.append_assoc, hleft, hchunks]

theorem length_flatten_take_le (chunks : List Bytes) {j k : Nat} (h : j ≤ k) :
    (chunks.take j).flatten.length ≤ (chunks.take k).flatten.length := by
  obtain ⟨left, hleft⟩ := (List.take_prefix_take_left h : chunks.take j <+: chunks.take k)
  rw [← hleft, List.flatten_append, List.length_append]
  exact Nat.le_add_right _ _

theorem flatten_take_eq (chunks : List Bytes) (k : Nat) :
    (chunks.take k).flatten = chunks.flatten.take (chunks.take k).flatten.length := by
  have hsplit : (chunks.take k).flatten ++ (chunks.drop k).flatten = chunks.flatten := by
    rw [← List.flatten_append, List.take_append_drop]
  rw [← hsplit, List.take_left]

end Runs

section Acceptance

variable {P : Platform} {s : Settings} {chunks : List Bytes}

/-- The whole function, by the number of chunks that are held back. -/
theorem streamingResponse_eq_of_findId {ending : UpstreamEnd} {status : Nat} {found : Found}
    (h : findId P s ending 0 [] chunks = .ok found) :
    streamingResponse P s ⟨status, chunks, ending⟩ =
      if responseIdPattern found.responseId then
        .ok (⟨[], lit "text/event-stream", found.responseId, status, true⟩,
          streamBody s ending found)
      else .error s.invalidResponse := by
  rw [streamingResponse, h]

variable {before event blanks id : Str} {size status : Nat}

theorem FirstIdentifier.extract_of_le
    (h : FirstIdentifier P chunks.flatten before event blanks size id) {k : Nat}
    (hk : size ≤ (chunks.take k).flatten.length) {text : Str}
    (htext : Utf8.decode (chunks.take k).flatten = some text) :
    ∃ line more, extractSseResponseId P (chunks.take k).flatten =
        firstId P (Str.splitlines before ++ line :: more) ∧
      eventId P line = .ok (some id) := by
  rw [flatten_take_eq] at htext
  obtain ⟨line, more, hlines, hline⟩ := h.lines_of_le hk htext
  refine ⟨line, more, ?_, hline⟩
  rw [flatten_take_eq, extractSseResponseId, htext, ← hlines]

/-- No chunk that ends before the event gives an identifier. -/
theorem FirstIdentifier.none_of_lt
    (h : FirstIdentifier P chunks.flatten before event blanks size id)
    (hreadable : ∀ line ∈ Str.splitlines before, eventId P line = .ok none) {k : Nat}
    (hk : (chunks.take k).flatten.length < size) :
    extractSseResponseId P (chunks.take k).flatten = .ok none ↔
      ∀ text line, Utf8.decode (chunks.take k).flatten = some text →
        (Str.splitlines text).getLast? = some line → eventId P line = .ok none := by
  rw [extractSseResponseId]
  cases hdecode : Utf8.decode (chunks.take k).flatten with
  | none => exact ⟨fun _ => nofun, fun _ => rfl⟩
  | some text =>
      have hlast := h.extract_of_lt hreadable hk (flatten_take_eq chunks k ▸ hdecode)
      simp only [hlast, Option.some.injEq]
      constructor
      · rintro heq text line rfl hline
        rw [hline] at heq
        exact heq
      · intro hall
        cases hline : (Str.splitlines text).getLast? with
        | none => rfl
        | some line => exact hall text line rfl hline

/-- A stream that is accepted with the identifier of a complete event is cut well. -/
theorem FirstIdentifier.cutsWell_of_faithful
    (h : FirstIdentifier P chunks.flatten before event blanks size id)
    (hfaithful : Faithful P s ⟨status, chunks, .ended⟩ size id) :
    responseIdPattern id = true ∧ CutsWell P s chunks before size := by
  obtain ⟨found, response, stream, hfind, hsize, hresponse, rfl, -⟩ := hfaithful
  obtain ⟨k, -, hnone, hsome, hlimit, hbuffered, -⟩ := findId_start_eq_ok_iff.mp hfind
  have hsize : size ≤ (chunks.take (k + 1)).flatten.length := hbuffered ▸ hsize
  rw [streamingResponse_eq_of_findId hfind] at hresponse
  obtain ⟨text, htext⟩ : ∃ text, Utf8.decode (chunks.take (k + 1)).flatten = some text := by
    cases hdecode : Utf8.decode (chunks.take (k + 1)).flatten with
    | some text => exact ⟨text, rfl⟩
    | none =>
        rw [extractSseResponseId, hdecode] at hsome
        cases hsome
  obtain ⟨line, more, hextract, hline⟩ := h.extract_of_le hsize htext
  obtain ⟨hreadable, -⟩ := firstId_append_cons_eq h.earlier hline (hextract.symm.trans hsome)
  split at hresponse
  · rename_i hpattern
    cases hresponse
    refine ⟨hpattern, hreadable, ⟨k + 1, hsize, hlimit, ?_⟩, fun j hj => ?_⟩
    · rw [htext]
      rfl
    · have hlt : j < k + 1 := by
        by_contra hnot
        have hle := length_flatten_take_le chunks (Nat.not_lt.mp hnot)
        omega
      refine (h.none_of_lt hreadable hj).mp ?_
      cases j with
      | zero => rfl
      | succ j => exact hnone j (Nat.lt_of_succ_lt_succ hlt)
  · cases hresponse

/-- Where the chunks are cut well, the stream is accepted and relayed. -/
theorem FirstIdentifier.faithful_of_cutsWell
    (h : FirstIdentifier P chunks.flatten before event blanks size id)
    (hpattern : responseIdPattern id = true) (hcuts : CutsWell P s chunks before size) :
    Faithful P s ⟨status, chunks, .ended⟩ size id := by
  classical
  obtain ⟨hreadable, hreached, hearly⟩ := hcuts
  -- the first chunk end that shows the whole event
  have hleast := Nat.find_spec hreached
  have hmin {j : Nat} (hj : j < Nat.find hreached) := Nat.find_min hreached hj
  generalize Nat.find hreached = k at hleast hmin
  obtain ⟨hsize, hlimit, htext⟩ := hleast
  obtain ⟨text, htext⟩ := Option.isSome_iff_exists.mp htext
  obtain ⟨line, more, hextract, hline⟩ := h.extract_of_le hsize htext
  have hsome : extractSseResponseId P (chunks.take k).flatten = .ok (some id) := by
    rw [hextract, firstId_append hreadable, firstId, hline]
  cases k with
  | zero => exact absurd hsize (Nat.not_le.mpr h.size_pos)
  | succ k =>
      have hnone : ∀ j < k, extractSseResponseId P (chunks.take (j + 1)).flatten = .ok none := by
        intro j hj
        by_cases hlt : (chunks.take (j + 1)).flatten.length < size
        · exact (h.none_of_lt hreadable hlt).mpr (hearly (j + 1) hlt)
        · have hnot := hmin (Nat.succ_lt_succ hj)
          have hfits := (length_flatten_take_le chunks (Nat.succ_le_succ hj.le)).trans hlimit
          rw [extractSseResponseId]
          cases hdecode : Utf8.decode (chunks.take (j + 1)).flatten with
          | none => rfl
          | some text => exact absurd ⟨Nat.not_lt.mp hlt, hfits, by rw [hdecode]; rfl⟩ hnot
      have hk : k < chunks.length := by
        by_contra hnot
        refine hmin (Nat.lt_succ_self k) ?_
        have hall : chunks.take k = chunks.take (k + 1) := by
          rw [List.take_of_length_le (Nat.not_lt.mp hnot),
            List.take_of_length_le (Nat.le_succ_of_le (Nat.not_lt.mp hnot))]
        rw [hall, htext]
        exact ⟨hsize, hlimit, rfl⟩
      have hfind : findId P s .ended 0 [] chunks =
          .ok ⟨id, chunks.take (k + 1), chunks.drop (k + 1)⟩ :=
        findId_start_eq_ok_iff.mpr ⟨k, hk, hnone, hsome, hlimit, rfl, rfl⟩
      refine ⟨_, _, _, hfind, hsize,
        (streamingResponse_eq_of_findId hfind).trans (if_pos hpattern), rfl, ?_⟩
      exact relays_streamBody (List.take_append_drop ..) (hlimit.trans (Nat.min_le_left ..))

/-- Whether a stream is accepted with the first identifier, and relayed, depends on how it is
cut. -/
theorem faithful_iff_cutsWell
    (h : FirstIdentifier P chunks.flatten before event blanks size id) :
    Faithful P s ⟨status, chunks, .ended⟩ size id ↔
      responseIdPattern id = true ∧ CutsWell P s chunks before size :=
  ⟨h.cutsWell_of_faithful, fun hcuts => h.faithful_of_cutsWell hcuts.1 hcuts.2⟩

section Samples

/-- The bytes of a text. -/
def sampleBytes (s : Str) : Bytes := s.map fun c => Utf8.byte c.val

def sampleSettings : Settings := ⟨lit "provider", 1048576⟩

def sampleEvent : Str := lit "data: \x7b\"id\":\"c\"\x7d"

/-- A data line that is not JSON, but starts with an object. -/
def sampleLine : Str := lit "data: \x7b\"id\":\"a\"\x7d \x7b\"id\":\"b\"\x7d\n"

/-- A stream in two chunks, cut in the line that is not JSON. -/
def sampleCut : List Bytes :=
  [sampleBytes (sampleLine.take 16), sampleBytes (sampleLine.drop 16 ++ sampleEvent ++ [cp 10])]

theorem sampleEvent_line : ∀ c ∈ sampleEvent, Str.isLineBreak c = false := by
  have hall : sampleEvent.all (fun c => !Str.isLineBreak c) = true := by decide +kernel
  simpa using hall

theorem sample_firstIdentifier :
    FirstIdentifier Platform.sample (sampleBytes (sampleEvent ++ [cp 10])) [] sampleEvent [] 16
      (lit "c") where
  starts := .inl rfl
  line := sampleEvent_line
  tight := by decide +kernel
  blank := List.forall_mem_nil _
  complete := .inr ⟨17, cp 10, by decide +kernel, by decide +kernel⟩
  earlier := List.forall_mem_nil _
  found := by decide +kernel
  text := by decide +kernel
  size_le := by decide +kernel

theorem faithful_iff_cutsWell_sample :
    Faithful Platform.sample sampleSettings
        ⟨200, [sampleBytes (sampleEvent ++ [cp 10])], .ended⟩ 16 (lit "c") ↔
      responseIdPattern (lit "c") = true ∧
        CutsWell Platform.sample sampleSettings [sampleBytes (sampleEvent ++ [cp 10])] [] 16 :=
  faithful_iff_cutsWell sample_firstIdentifier

theorem sampleCut_firstIdentifier :
    FirstIdentifier Platform.sample sampleCut.flatten sampleLine sampleEvent [] 44
      (lit "c") where
  starts := .inr ⟨cp 10, by decide +kernel, by decide +kernel⟩
  line := sampleEvent_line
  tight := by decide +kernel
  blank := List.forall_mem_nil _
  complete := .inr ⟨45, cp 10, by decide +kernel, by decide +kernel⟩
  earlier := by
    have hlines : Str.splitlines sampleLine = [sampleLine.dropLast] := by decide +kernel
    have hnone : eventId Platform.sample sampleLine.dropLast = .ok none := by decide +kernel
    rw [hlines, List.forall_mem_singleton, hnone]
    exact nofun
  found := by decide +kernel
  text := by decide +kernel
  size_le := by decide +kernel

/-- Cut in a line that is not JSON, the stream is accepted with an identifier that no event has. -/
theorem identifier_of_cut_line :
    FirstIdentifier Platform.sample sampleCut.flatten sampleLine sampleEvent [] 44 (lit "c") ∧
      responseIdPattern (lit "c") = true ∧
      (streamingResponse Platform.sample sampleSettings
        ⟨200, [sampleCut.flatten], .ended⟩).toOption.map (·.1.responseId) = some (lit "c") ∧
      (streamingResponse Platform.sample sampleSettings
        ⟨200, sampleCut, .ended⟩).toOption.map (·.1.responseId) = some (lit "a") ∧
      ¬ Faithful Platform.sample sampleSettings ⟨200, sampleCut, .ended⟩ 44 (lit "c") := by
  have hcut : (streamingResponse Platform.sample sampleSettings
      ⟨200, sampleCut, .ended⟩).toOption.map (·.1.responseId) = some (lit "a") := by
    decide +kernel
  refine ⟨sampleCut_firstIdentifier, by decide +kernel, by decide +kernel, hcut, ?_⟩
  rintro ⟨found, response, stream, -, -, hresponse, hid, -⟩
  rw [hresponse] at hcut
  have hother : response.responseId = lit "a" := Option.some.inj hcut
  rw [hid] at hother
  revert hother
  decide

end Samples

end Acceptance

end StreamingResponse

end MediaBridge.Gateway
