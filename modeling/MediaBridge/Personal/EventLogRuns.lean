import MediaBridge.Personal.EventLog

/-!
# Runs of the event log

Every append adds its event or leaves the log as it was, and the log is read as the last events
that were appended. What breaks this is an event with a line separator that JSON leaves as it is,
and one with a text or a number that cannot be written.
-/

namespace MediaBridge.Personal.EventLog

open Foundation MediaBridge.Core JsonText Expiring

section Events

variable {H : StateHost} {fields : Entries Str Json} {data : Bytes} {text : Str}

/-- A character at which the reader ends a line, and that is written as it is. -/
def IsSeparator (c : CodePoint) : Prop := c.val = 0x85 ∨ c.val = 0x2028 ∨ c.val = 0x2029

instance (c : CodePoint) : Decidable (IsSeparator c) := inferInstanceAs (Decidable (_ ∨ _ ∨ _))

/-- No separator in the name, nor in the value. -/
def Unbroken (e : Str × Json) : Prop :=
  (∀ c ∈ e.1, ¬ IsSeparator c) ∧ ∀ s, e.2 = .str s → ∀ c ∈ s, ¬ IsSeparator c

/-- The name can be encoded, and a number has not too many digits. -/
def Writes (e : Str × Json) : Prop :=
  Str.encodable e.1 = true ∧ ∀ n, e.2 = .int n → tooLong n.natAbs = false

theorem forM_checkField_eq_ok_iff :
    fields.forM (checkField H) = .ok () ↔ ∀ e ∈ fields, checkField H e = .ok () := by
  induction fields with
  | nil => simp [pure, Except.pure]
  | cons e rest ih =>
      rw [List.forM, List.forall_mem_cons]
      constructor
      · intro h
        obtain ⟨⟨⟩, he, hrest⟩ := ok_of_bind h
        exact ⟨he, ih.mp hrest⟩
      · rintro ⟨he, hrest⟩
        rw [he]
        exact ih.mpr hrest

theorem eventData_eq_ok_iff : eventData H fields = .ok data ↔
    ∃ text, dumpsSpaced H.interpreter.platform.float eventStyle fields = some text ∧
      Utf8.encode text = some data := by
  unfold eventData
  constructor
  · intro h
    split at h
    · cases h
    next text htext =>
      split at h
      · cases h
      next found hfound =>
        cases h
        exact ⟨text, htext, hfound⟩
  · rintro ⟨text, htext, hdata⟩
    simp only [htext, hdata]

/-- What an accepted event is. -/
theorem validateEvent_eq_ok_iff {event : Json} : validateEvent H event = .ok fields ↔
    event = .obj fields ∧ (∀ e ∈ fields, checkField H e = .ok ()) ∧
      ∃ data, eventData H fields = .ok data ∧ data.length ≤ maxEventBytes := by
  constructor
  · intro h
    cases event with
    | obj found =>
        rw [validateEvent] at h
        obtain ⟨⟨⟩, hchecks, h⟩ := ok_of_bind h
        obtain ⟨data, hdata, h⟩ := ok_of_bind h
        split_ifs at h with hlong
        cases h
        exact ⟨rfl, forM_checkField_eq_ok_iff.mp hchecks, data, hdata, not_lt.mp hlong⟩
    | _ => cases h
  · rintro ⟨rfl, hchecks, data, hdata, hlong⟩
    rw [validateEvent, forM_checkField_eq_ok_iff.mpr hchecks]
    simp only [bind, Except.bind, hdata]
    exact if_neg (not_lt.mpr hlong)

/-- The values that the checks of a field accept. -/
theorem value_of_checkField {e : Str × Json} (h : checkField H e = .ok ()) :
    e.2 = .null ∨ (∃ b, e.2 = .bool b) ∨ (∃ n, e.2 = .int n) ∨
      ∃ s, e.2 = .str s ∧ Str.encodable s = true := by
  obtain ⟨key, v⟩ := e
  unfold checkField at h
  cases v with
  | null => exact .inl rfl
  | bool b => exact .inr (.inl ⟨b, rfl⟩)
  | int n => exact .inr (.inr (.inl ⟨n, rfl⟩))
  | str s =>
      refine .inr (.inr (.inr ⟨s, rfl, ?_⟩))
      by_contra hbad
      simp only [Utf8.encode, hbad, if_false] at h
      split_ifs at h
  | float bits =>
      simp only at h
      split_ifs at h
  | arr items =>
      simp only at h
      split_ifs at h
  | obj fields =>
      simp only at h
      split_ifs at h

theorem opening_of_checkField {F : FloatText} {style : Style} {e : Str × Json}
    (h : checkField H e = .ok ()) : Opening F style e.2 := by
  obtain ⟨key, v⟩ := e
  intro text htext
  obtain rfl | ⟨b, rfl⟩ | ⟨n, rfl⟩ | ⟨s, rfl, hs⟩ := value_of_checkField h
  · exact dumps_head .null htext
  · exact dumps_head (.bool b) htext
  · exact dumps_head (.int n) htext
  · exact dumps_head (.str hs) htext

theorem readsBack_of_checkField {F : FloatText} {style : Style} {e : Str × Json}
    (h : checkField H e = .ok ()) : ReadsBack F style e.2 := by
  obtain ⟨key, v⟩ := e
  obtain rfl | ⟨b, rfl⟩ | ⟨n, rfl⟩ | ⟨s, rfl, hs⟩ := value_of_checkField h
  · exact readsBack_constant F rfl (by decide) fun _ => rfl
  · cases b
    · exact readsBack_constant F rfl (by decide) fun _ => rfl
    · exact readsBack_constant F rfl (by decide) fun _ => rfl
  · exact readsBack_int F style n
  · exact readsBack_str F style hs

/-- An event that passes the checks of its fields, and that can be written, has its bytes. -/
theorem exists_eventData (hchecks : ∀ e ∈ fields, checkField H e = .ok ())
    (hwrites : ∀ e ∈ fields, Writes e) : ∃ data, eventData H fields = .ok data := by
  have hwritable : ∀ e ∈ fields, Writable e.2 := by
    rintro ⟨key, v⟩ he
    obtain rfl | ⟨b, rfl⟩ | ⟨n, rfl⟩ | ⟨s, rfl, hs⟩ := value_of_checkField (hchecks _ he)
    · exact .null
    · exact .bool b
    · exact .int ((hwrites _ he).2 n rfl)
    · exact .str hs
  have hdumps (e : Str × Json) (he : e ∈ fields) :=
    (hwritable e he).exists_dumps H.interpreter.platform.float eventStyle
  obtain ⟨texts, htexts, -⟩ := exists_dumpsFields (K := fun _ => True) (fun _ _ => trivial) hdumps
  obtain ⟨text, htext⟩ : ∃ text,
      dumpsSpaced H.interpreter.platform.float eventStyle fields = some text := by
    rw [dumpsSpaced, htexts]
    exact ⟨_, rfl⟩
  have hencodable : Str.encodable text = true := by
    refine Str.encodable_iff.mpr (forall_mem_dumpsSpaced ?_ ?_ ?_ htext)
    · intro c hc
      have := hc.2
      simp only [CodePoint.isSurrogate, Bool.and_eq_false_iff, decide_eq_false_iff_not]
      omega
    · exact fun e he => Str.encodable_iff.mp (encodable_stringText (hwrites e he).1)
    · intro e he t ht
      obtain ⟨u, hu, hencodable⟩ := hdumps e he
      cases hu.symm.trans ht
      exact Str.encodable_iff.mp hencodable
  exact ⟨_, eventData_eq_ok_iff.mpr ⟨text, htext, if_pos hencodable⟩⟩

/-- The order of the names does not count for what is written. -/
theorem eventData_ordered (h : eventData H fields = .ok data) :
    eventData H (orderedFields true fields) = .ok data := by
  obtain ⟨text, htext, hdata⟩ := eventData_eq_ok_iff.mp h
  refine eventData_eq_ok_iff.mpr ⟨text, ?_, hdata⟩
  obtain ⟨texts, htexts, htext⟩ := Option.bind_eq_some_iff.mp htext
  rw [dumpsSpaced, dumpsFields_ordered true htexts, Option.bind_eq_bind, Option.bind_some]
  rw [← htext]
  simp only [eventStyle, orderedFields_orderedFields]

theorem validateEvent_ordered (h : validateEvent H (.obj fields) = .ok fields) :
    validateEvent H (.obj (orderedFields true fields)) = .ok (orderedFields true fields) := by
  obtain ⟨-, hchecks, data, hdata, hlong⟩ := validateEvent_eq_ok_iff.mp h
  exact validateEvent_eq_ok_iff.mpr
    ⟨rfl, fun e he => hchecks e (mem_orderedFields.mp he), data, eventData_ordered hdata, hlong⟩

section Lines

/-- A line of the log. -/
structure Line (H : StateHost) (fields : Entries Str Json) : Prop where
  valid : validateEvent H (.obj fields) = .ok fields
  nodup : (Entries.keys fields).Nodup
  keys : ∀ e ∈ fields, Str.encodable e.1 = true
  unbroken : ∀ e ∈ fields, Unbroken e

theorem isLineBreak_of_isPrintable {c : CodePoint} (h : IsPrintable c) :
    Str.isLineBreak c = false := by
  have := h.1
  have := h.2
  simp only [Str.isLineBreak, Bool.or_eq_false_iff, Bool.and_eq_false_iff, decide_eq_false_iff_not,
    beq_eq_false_iff_ne]
  omega

theorem isLineBreak_of_mem_stringText {ensureAscii : Bool} {s : Str}
    (hs : ∀ c ∈ s, ¬ IsSeparator c) {c : CodePoint} (hc : c ∈ stringText ensureAscii s) :
    Str.isLineBreak c = false := by
  rcases mem_stringText hc with hprint | ⟨hhigh, hmem⟩
  · exact isLineBreak_of_isPrintable hprint
  · have := hs c hmem
    simp only [IsSeparator, not_or] at this
    simp only [Str.isLineBreak, Bool.or_eq_false_iff, Bool.and_eq_false_iff,
      decide_eq_false_iff_not, beq_eq_false_iff_ne]
    omega

/-- The value of a field has no line boundary in its text. -/
theorem isLineBreak_of_mem_dumps {F : FloatText} {style : Style} {e : Str × Json}
    (hcheck : checkField H e = .ok ()) (hunbroken : Unbroken e)
    (htext : dumps F style e.2 = some text) : ∀ c ∈ text, Str.isLineBreak c = false := by
  have hconstant {s : Str} (hs : s.all (fun c => !Str.isLineBreak c) = true) :
      ∀ c ∈ s, Str.isLineBreak c = false := by
    intro c hc
    simpa using List.all_eq_true.mp hs c hc
  obtain ⟨key, v⟩ := e
  obtain rfl | ⟨b, rfl⟩ | ⟨n, rfl⟩ | ⟨s, rfl, hs⟩ := value_of_checkField hcheck
  · cases htext
    exact hconstant (by decide)
  · cases b
    · cases htext
      exact hconstant (by decide)
    · cases htext
      exact hconstant (by decide)
  · simp only [dumps] at htext
    split_ifs at htext
    cases htext
    exact fun c hc => isLineBreak_of_isPrintable (isPrintable_intText hc)
  · cases htext
    exact fun c hc => isLineBreak_of_mem_stringText (hunbroken.2 s rfl) hc

/-- The text of an event is one line, which is read as the event with its names in order. -/
theorem Line.row (h : Line H fields) (hdepth : 1 ≤ H.interpreter.platform.jsonDepth) :
    ∃ text data, eventData H fields = .ok data ∧ Utf8.encode text = some data ∧
      (∀ c ∈ text, Str.isLineBreak c = false) ∧
      readRow H text = .ok (orderedFields true fields) := by
  obtain ⟨-, hchecks, data, hdata, -⟩ := validateEvent_eq_ok_iff.mp h.valid
  obtain ⟨text, htext, hencode⟩ := eventData_eq_ok_iff.mp hdata
  have hflat : Json.depthFields fields ≤ 0 := by
    rw [Json.depthFields_le_iff]
    intro e he
    obtain hv | ⟨b, hv⟩ | ⟨n, hv⟩ | ⟨s, hv, -⟩ := value_of_checkField (hchecks e he) <;>
      simp [hv, Json.depth]
  have hshallow : Json.depth (.obj fields) ≤ H.interpreter.platform.jsonDepth := by
    rw [Json.depth]
    omega
  have hloads := loads_dumpsSpaced h.nodup (fun e he => opening_of_checkField (hchecks e he))
    (fun e he => scanString_stringText (h.keys e he))
    (fun e he => readsBack_of_checkField (hchecks e he)) htext hshallow
  refine ⟨text, data, hdata, hencode, ?_, ?_⟩
  · exact forall_mem_dumpsSpaced (fun _ => isLineBreak_of_isPrintable)
      (fun e he c => isLineBreak_of_mem_stringText (h.unbroken e he).1)
      (fun e he t ht => isLineBreak_of_mem_dumps (hchecks e he) (h.unbroken e he) ht) htext
  · have hvalid := validateEvent_ordered h.valid
    simp only [eventStyle] at hloads
    simp only [readRow, hloads, hvalid]

theorem Line.ordered (h : Line H fields) : Line H (orderedFields true fields) where
  valid := validateEvent_ordered h.valid
  nodup := ((orderedFields_perm true fields).map Prod.fst).nodup_iff.mpr h.nodup
  keys e he := h.keys e (mem_orderedFields.mp he)
  unbroken e he := h.unbroken e (mem_orderedFields.mp he)

/-- The content depends only on the bytes of the events. -/
theorem logContent_eq_ok_iff {entries : List (Entries Str Json)} {data : Bytes} :
    logContent H entries = .ok data ↔ ∃ lines : List Bytes,
      entries.map (eventData H) = lines.map .ok ∧
      (lines.map (· ++ [10])).flatten = data := by
  unfold logContent
  constructor
  · intro h
    cases hmap : entries.mapM (eventData H) with
    | error e =>
        rw [hmap] at h
        cases h
    | ok lines =>
        rw [hmap] at h
        cases h
        exact ⟨lines, mapM_eq_ok_iff.mp hmap, rfl⟩
  · rintro ⟨lines, hmap, rfl⟩
    rw [mapM_eq_ok_iff.mpr hmap]
    rfl

/-- The content of a log is read as its events, each with its names in order. -/
theorem read_logContent (hdepth : 1 ≤ H.interpreter.platform.jsonDepth)
    {entries : List (Entries Str Json)} (hlines : ∀ fields ∈ entries, Line H fields) {data : Bytes}
    (h : logContent H entries = .ok data) :
    read H (some data) = .ok (entries.map (orderedFields true)) := by
  -- the texts of the lines, and what they are read as
  have htexts : ∃ text, Utf8.encode text = some data ∧
      (∀ c ∈ text, c ≠ Str.carriageReturn) ∧
      (Str.splitlines text).mapM (readRow H) = .ok (entries.map (orderedFields true)) := by
    induction entries generalizing data with
    | nil =>
        cases h
        exact ⟨[], rfl, List.forall_mem_nil _, rfl⟩
    | cons fields rest ih =>
        obtain ⟨hline, hrest⟩ := List.forall_mem_cons.mp hlines
        obtain ⟨line, first, hfirst, hencode, hbreak, hrow⟩ := hline.row hdepth
        obtain ⟨lines, hmap, rfl⟩ := logContent_eq_ok_iff.mp h
        rw [List.map_cons, hfirst] at hmap
        cases lines with
        | nil => cases hmap
        | cons found lines =>
            rw [List.map_cons, List.cons.injEq, Except.ok.injEq] at hmap
            obtain ⟨rfl, hmap⟩ := hmap
            obtain ⟨text, htext, hreturn, hrows⟩ :=
              ih hrest (logContent_eq_ok_iff.mpr ⟨lines, hmap, rfl⟩)
            refine ⟨line ++ Str.lineFeed :: text, ?_, ?_, ?_⟩
            · rw [List.map_cons, List.flatten_cons, List.append_assoc]
              exact Utf8.encode_append hencode (Utf8.encode_append (s := [Str.lineFeed]) rfl htext)
            · intro c hc
              rcases List.mem_append.mp hc with hc | hc
              · rintro rfl
                exact absurd (hbreak _ hc) (by decide)
              · rcases List.mem_cons.mp hc with rfl | hc
                · decide
                · exact hreturn c hc
            · rw [Str.splitlines_append_cons hbreak (by decide) (by decide), List.mapM_cons, hrow,
                hrows]
              rfl
  obtain ⟨text, hencode, hreturn, hrows⟩ := htexts
  have hdecode : Utf8.decode data = some text := Utf8.decodeWith_encode false hencode
  simp only [read, hdecode, Str.universalNewlines_eq_self hreturn, hrows]

end Lines

section Appending

/-- The log raises its own error, or it cannot encode a text. -/
theorem checkField_error {e : Str × Json} {error : EventError} (h : checkField H e = .error error) :
    (∃ code, error = .log code) ∨ H.interpreter.unicode.lower e.1 ∉ forbiddenFieldNames ∧
      ∃ s, e.2 = .str s ∧ Str.encodable s = false := by
  obtain ⟨key, v⟩ := e
  unfold checkField at h
  simp only at h
  split_ifs at h with hname
  · cases h
    exact .inl ⟨_, rfl⟩
  · split at h
    · cases h
    · cases h
    · cases h
    · split at h
      next s _ hencode =>
        refine .inr ⟨hname, s, rfl, ?_⟩
        unfold Utf8.encode at hencode
        split_ifs at hencode with hencodable
        exact Bool.eq_false_iff.mpr hencodable
      · split_ifs at h
        cases h
        exact .inl ⟨_, rfl⟩
    · cases h
      exact .inl ⟨_, rfl⟩

/-- What an event must be for the log to keep its promises: no text that cannot be encoded is
reached by the checks, and if they accept all fields, the event can be written, and read again. -/
structure Clean (H : StateHost) (writable : Bool) (fields : Entries Str Json) : Prop where
  reached : ∀ before e after s, fields = before ++ e :: after →
    (∀ f ∈ before, checkField H f = .ok ()) →
    H.interpreter.unicode.lower e.1 ∉ forbiddenFieldNames → e.2 = .str s → Str.encodable s = true
  writes : (∀ e ∈ fields, checkField H e = .ok ()) → ∀ e ∈ fields, Writes e
  unbroken : writable = true → validateEvent H (.obj fields) = .ok fields →
    ∀ e ∈ fields, Unbroken e

/-- A clean event is accepted, or refused with the error of the log. -/
theorem Clean.validate {writable : Bool} (h : Clean H writable fields) :
    validateEvent H (.obj fields) = .ok fields ∨
      ∃ code, validateEvent H (.obj fields) = .error (.log code) := by
  cases hchecks : fields.forM (checkField H) with
  | error error =>
      obtain ⟨before, e, after, rfl, hbefore, he⟩ : ∃ before e after,
          fields = before ++ e :: after ∧ (∀ f ∈ before, checkField H f = .ok ()) ∧
            checkField H e = .error error := by
        clear h
        induction fields with
        | nil => cases hchecks
        | cons e rest ih =>
            rw [List.forM] at hchecks
            cases he : checkField H e with
            | error found =>
                rw [he] at hchecks
                cases hchecks
                exact ⟨[], e, rest, rfl, List.forall_mem_nil _, he⟩
            | ok u =>
                rw [he] at hchecks
                obtain ⟨before, f, after, rfl, hbefore, hf⟩ := ih hchecks
                exact ⟨e :: before, f, after, rfl, List.forall_mem_cons.mpr ⟨he, hbefore⟩, hf⟩
      right
      obtain ⟨code, rfl⟩ | ⟨hname, s, hs, hbad⟩ := checkField_error he
      · refine ⟨code, ?_⟩
        rw [validateEvent, hchecks]
        rfl
      · rw [h.reached before e after s rfl hbefore hname hs] at hbad
        cases hbad
  | ok u =>
      have hall := forM_checkField_eq_ok_iff.mp hchecks
      obtain ⟨data, hdata⟩ := exists_eventData hall (h.writes hall)
      by_cases hlong : maxEventBytes < data.length
      · right
        refine ⟨"event_invalid", ?_⟩
        rw [validateEvent, hchecks]
        simp only [bind, Except.bind, hdata]
        exact if_pos hlong
      · left
        exact validateEvent_eq_ok_iff.mpr ⟨rfl, hall, data, hdata, not_lt.mp hlong⟩

theorem exists_logContent {entries : List (Entries Str Json)}
    (h : ∀ fields ∈ entries, validateEvent H (.obj fields) = .ok fields) :
    ∃ data, logContent H entries = .ok data := by
  obtain ⟨lines, hlines⟩ := exists_mapM_ok (f := eventData H) fun fields hfields =>
    (validateEvent_eq_ok_iff.mp (h fields hfields)).2.2.imp fun _ hdata => hdata.1
  exact ⟨_, by rw [logContent, hlines]; rfl⟩

end Appending

end Events

section Runs

/-- A call of `append`, with whether the file can be written. -/
structure Call where
  event : Json
  writable : Bool

/-- What a call gives, and the file before and after it. -/
structure Outcome where
  result : Except EventError Unit
  before : Option Bytes
  after : Option Bytes

/-- A log after some calls: its file, the events that were appended, the oldest first, and what
the calls gave. -/
structure LogRun where
  content : Option Bytes
  accepted : List (Entries Str Json)
  outcomes : List Outcome

/-- The fields of an event. -/
def eventFields : Json → Entries Str Json
  | .obj fields => fields
  | _ => []

variable (H : StateHost) (maxEntries : Nat)

/-- The log after one more call. -/
def LogRun.after (r : LogRun) (c : Call) : LogRun :=
  let a := append H maxEntries c.event c.writable r.content
  { content := a.2
    accepted :=
      match a.1 with
      | .ok () => r.accepted ++ [eventFields c.event]
      | .error _ => r.accepted
    outcomes := r.outcomes ++ [⟨a.1, r.content, a.2⟩] }

/-- A log that starts empty, and the calls of `append`. -/
def eventLog : Machine LogRun Call where
  initial r := r = ⟨none, [], []⟩
  step r c r' := c.event.WellFormed ∧ r' = r.after H maxEntries c

/-- The event of the call is clean. -/
def Loggable (_ : LogRun) (c : Call) : Prop :=
  ∀ fields, c.event = .obj fields → Clean H c.writable fields

/-- What is promised of a log. -/
structure RoundTrips (r : LogRun) : Prop where
  /-- A call succeeds, or it raises the error of the log, and leaves the log as it was. -/
  atomic : ∀ o ∈ r.outcomes,
    o.result = .ok () ∨ (∃ code, o.result = .error (.log code)) ∧ o.after = o.before
  /-- The last events are read, in order, each with the fields it was given. -/
  reads : ∃ rows, read H r.content = .ok rows ∧
    List.Forall₂ List.Perm rows (lastN maxEntries r.accepted)
  /-- An event that is valid is appended whenever the file can be written. -/
  appends : ∀ event fields, validateEvent H event = .ok fields →
    (append H maxEntries event true r.content).1 = .ok ()

variable {H maxEntries} {r : LogRun}

/-- The invariant of a run. -/
structure Stored (H : StateHost) (maxEntries : Nat) (r : LogRun) : Prop where
  lines : ∀ fields ∈ r.accepted, Line H fields
  content : r.content = none ∧ r.accepted = [] ∨
    ∃ data, r.content = some data ∧ logContent H (lastN maxEntries r.accepted) = .ok data
  atomic : ∀ o ∈ r.outcomes,
    o.result = .ok () ∨ (∃ code, o.result = .error (.log code)) ∧ o.after = o.before

theorem lastN_map {α β : Type} (f : α → β) (n : Nat) (l : List α) :
    lastN n (l.map f) = (lastN n l).map f := by
  rw [lastN, lastN, List.length_map, List.map_drop]

/-- Trimming before an addition does not show after it. -/
theorem lastN_lastN_append {α : Type} (n : Nat) (l : List α) (a : α) :
    lastN n (lastN n l ++ [a]) = lastN n (l ++ [a]) := by
  by_cases h : l.length ≤ n
  · rw [lastN_of_length_le h]
  · rw [lastN, lastN, lastN, List.length_append, List.length_append, List.length_drop,
      List.drop_append, List.drop_append, List.drop_drop]
    simp only [List.length_singleton, List.length_drop]
    congr 2 <;> omega

theorem Stored.read (h : Stored H maxEntries r) (hdepth : 1 ≤ H.interpreter.platform.jsonDepth) :
    read H r.content = .ok ((lastN maxEntries r.accepted).map (orderedFields true)) := by
  obtain ⟨hnone, hempty⟩ | ⟨data, hsome, hdata⟩ := h.content
  · rw [hnone, hempty, lastN_nil]
    rfl
  · rw [hsome]
    exact read_logContent hdepth
      (fun fields hfields => h.lines fields ((lastN_suffix _).subset hfields)) hdata

/-- What is written when a valid event is added. -/
theorem Stored.append (h : Stored H maxEntries r)
    (hdepth : 1 ≤ H.interpreter.platform.jsonDepth) {event : Json} {fields : Entries Str Json}
    (hvalid : validateEvent H event = .ok fields) (writable : Bool) :
    ∃ data, logContent H (lastN maxEntries (r.accepted ++ [fields])) = .ok data ∧
      append H maxEntries event writable r.content =
        if writable then (.ok (), some data)
        else (.error (.log "event_write_failed"), r.content) := by
  obtain ⟨rfl, -, data, hfields, -⟩ := validateEvent_eq_ok_iff.mp hvalid
  obtain ⟨content, hcontent⟩ : ∃ data, logContent H (lastN maxEntries (r.accepted ++ [fields])) =
      .ok data := by
    apply exists_logContent
    intro found hfound
    rcases List.mem_append.mp ((lastN_suffix _).subset hfound) with hmem | hmem
    · exact (h.lines found hmem).valid
    · exact List.mem_singleton.mp hmem ▸ hvalid
  refine ⟨content, hcontent, ?_⟩
  -- the events that were read have the bytes of those that were written
  have hordered : ((lastN maxEntries r.accepted).map (orderedFields true)).map (eventData H) =
      (lastN maxEntries r.accepted).map (eventData H) := by
    rw [List.map_map]
    apply List.map_congr_left
    intro found hfound
    have hline := h.lines found ((lastN_suffix _).subset hfound)
    obtain ⟨-, -, data, hdata, -⟩ := validateEvent_eq_ok_iff.mp hline.valid
    exact (eventData_ordered hdata).trans hdata.symm
  have hsame : logContent H (lastN maxEntries
      ((lastN maxEntries r.accepted).map (orderedFields true) ++ [fields])) = .ok content := by
    obtain ⟨lines, hlines, hdata⟩ := logContent_eq_ok_iff.mp hcontent
    refine logContent_eq_ok_iff.mpr ⟨lines, ?_, hdata⟩
    rw [← hlines, ← lastN_map (eventData H), ← lastN_map (eventData H), List.map_append,
      List.map_append, hordered, ← lastN_map (eventData H), List.map_singleton,
      lastN_lastN_append]
  have hread := h.read hdepth
  simp only [EventLog.append, bind, Except.bind, hvalid, hread, hsame]

/-- A call with a clean event keeps the invariant. -/
theorem Stored.after (h : Stored H maxEntries r) (hdepth : 1 ≤ H.interpreter.platform.jsonDepth)
    {c : Call} (hwell : c.event.WellFormed) (hclean : Loggable H r c) :
    Stored H maxEntries (r.after H maxEntries c) := by
  -- a call that raises leaves the log as it was
  have hrefused (code : String) {content : Option Bytes}
      (happend : EventLog.append H maxEntries c.event c.writable r.content =
        (.error (.log code), content)) (hsame : content = r.content) :
      Stored H maxEntries (r.after H maxEntries c) := by
    subst hsame
    rw [LogRun.after, happend]
    refine ⟨h.lines, h.content, ?_⟩
    intro o ho
    rcases List.mem_append.mp ho with ho | ho
    · exact h.atomic o ho
    · rw [List.mem_singleton.mp ho]
      exact .inr ⟨⟨code, rfl⟩, rfl⟩
  cases hevent : c.event with
  | obj fields =>
      have hfields := hclean fields hevent
      rcases hfields.validate with hvalid | ⟨code, hinvalid⟩
      · obtain ⟨data, hdata, happend⟩ := h.append hdepth hvalid c.writable
        rw [← hevent] at happend
        cases hwritable : c.writable with
        | false =>
            rw [hwritable, if_neg Bool.false_ne_true, ← hwritable] at happend
            exact hrefused _ happend rfl
        | true =>
            rw [hwritable, if_pos rfl] at happend
            rw [LogRun.after, hwritable, happend, hevent]
            rw [hevent, Json.WellFormed] at hwell
            have hline : Line H fields :=
              ⟨hvalid, hwell.1, fun e he => (hfields.writes
                (validateEvent_eq_ok_iff.mp hvalid).2.1 e he).1, hfields.unbroken hwritable hvalid⟩
            refine ⟨?_, .inr ⟨data, rfl, hdata⟩, ?_⟩
            · intro found hfound
              rcases List.mem_append.mp hfound with hmem | hmem
              · exact h.lines found hmem
              · exact List.mem_singleton.mp hmem ▸ hline
            · intro o ho
              rcases List.mem_append.mp ho with ho | ho
              · exact h.atomic o ho
              · rw [List.mem_singleton.mp ho]
                exact .inl rfl
      · apply hrefused code _ rfl
        simp only [EventLog.append, bind, Except.bind, hevent, hinvalid]
  | _ =>
      apply hrefused "event_invalid" _ rfl
      simp only [EventLog.append, bind, Except.bind, hevent, validateEvent]

theorem Stored.roundTrips (h : Stored H maxEntries r)
    (hdepth : 1 ≤ H.interpreter.platform.jsonDepth) : RoundTrips H maxEntries r where
  atomic := h.atomic
  reads := by
    refine ⟨_, h.read hdepth, ?_⟩
    rw [List.forall₂_map_left_iff]
    exact List.forall₂_same.mpr fun fields _ => orderedFields_perm true fields
  appends event fields hvalid := by
    obtain ⟨data, -, happend⟩ := h.append hdepth hvalid true
    rw [happend, if_pos rfl]

/-- A log whose events are clean keeps its promises in every state of every run. -/
theorem roundTrips_of_loggable (hdepth : 1 ≤ H.interpreter.platform.jsonDepth)
    (h : (eventLog H maxEntries).Reachable (Loggable H) r) : RoundTrips H maxEntries r := by
  apply Stored.roundTrips _ hdepth
  apply h.invariant
  · rintro s rfl
    exact ⟨List.forall_mem_nil _, .inl ⟨rfl, rfl⟩, List.forall_mem_nil _⟩
  · rintro s c s' hstored hclean ⟨hwell, rfl⟩
    exact hstored.after hdepth hwell hclean

end Runs

section Sample

/-- An event with a note. -/
def noteEvent (s : Str) : Json := .obj [(lit "note", .str s)]

theorem wellFormed_noteEvent (s : Str) : (noteEvent s).WellFormed := by
  simp [noteEvent, Json.WellFormed, Json.WellFormedFields, Entries.keys]

/-- Two notes in a log that keeps one. -/
theorem roundTrips_of_loggable_sample :
    RoundTrips sampleStateHost 1
      (((⟨none, [], []⟩ : LogRun).after sampleStateHost 1 ⟨noteEvent (lit "first"), true⟩).after
        sampleStateHost 1 ⟨noteEvent (lit "second"), true⟩) := by
  have hloggable (r : LogRun) (s : Str) (hs : Str.encodable s = true)
      (hplain : s.all (fun c => !decide (IsSeparator c)) = true) :
      Loggable sampleStateHost r ⟨noteEvent s, true⟩ := by
    intro fields hfields
    cases hfields
    refine ⟨?_, ?_, ?_⟩
    · intro before e after t heq _ _ ht
      have he : e ∈ [(lit "note", Json.str s)] := heq ▸ by simp
      rw [List.mem_singleton.mp he] at ht
      cases ht
      exact hs
    · rintro - e he
      rw [List.mem_singleton.mp he]
      exact ⟨show Str.encodable (lit "note") = true by decide, nofun⟩
    · rintro - - e he
      rw [List.mem_singleton.mp he]
      refine ⟨?_, ?_⟩
      · intro c hc
        have hname : (lit "note").all (fun c => !decide (IsSeparator c)) = true := by decide
        simpa using List.all_eq_true.mp hname c hc
      · intro t ht c hc
        cases ht
        simpa using List.all_eq_true.mp hplain c hc
  have hfirst := (Machine.Reachable.start (M := eventLog sampleStateHost 1) rfl).next
    (hloggable _ (lit "first") (by decide) (by decide)) ⟨wellFormed_noteEvent _, rfl⟩
  exact roundTrips_of_loggable (by decide) (hfirst.next
    (hloggable _ (lit "second") (by decide) (by decide)) ⟨wellFormed_noteEvent _, rfl⟩)

/-- The error that is raised, if any. -/
def raised {α : Type} : Except EventError α → Option EventError
  | .ok _ => none
  | .error e => some e

/-- A note with a line separator is appended, and the log cannot be read. -/
theorem separator_breaks_log :
    ∃ r, (eventLog sampleStateHost 1).Reachable Machine.anyStep r ∧
      r.outcomes.map (raised ∘ Outcome.result) = [none] ∧
      raised (read sampleStateHost r.content) = some (.log "event_log_invalid") ∧
      ¬ RoundTrips sampleStateHost 1 r := by
  have hread : raised (read sampleStateHost ((⟨none, [], []⟩ : LogRun).after sampleStateHost 1
      ⟨noteEvent [cp 0x2028], true⟩).content) = some (.log "event_log_invalid") := by
    decide +kernel
  refine ⟨_, (Machine.Reachable.start (M := eventLog sampleStateHost 1) rfl).next trivial
    ⟨wellFormed_noteEvent [cp 0x2028], rfl⟩, by decide +kernel, hread, fun h => ?_⟩
  obtain ⟨rows, hrows, -⟩ := h.reads
  rw [hrows] at hread
  cases hread

end Sample

end MediaBridge.Personal.EventLog
