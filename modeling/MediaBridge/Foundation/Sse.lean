import MediaBridge.Foundation.Utf8

/-!
# Reading server-sent events

How a client takes a byte stream apart into events: lines end with a line feed, a
carriage return or both; a line sets a field; an empty line dispatches the event.

## Implementation notes

The reader works on bytes, since all characters with a meaning are ASCII. It ignores a
byte order mark at the start of the stream, and the fields `id` and `retry`, which no
event carries.
-/

namespace MediaBridge.Foundation

namespace Sse

def lineFeed : Byte := 10

def carriageReturn : Byte := 13

/-- The bytes of an ASCII constant. -/
def ascii (text : String) : Bytes := (lit text).map fun c => Utf8.byte c.val

/-- A dispatched event: its type, and the lines of its data. -/
structure Event where
  eventType : Bytes
  data : List Bytes
deriving DecidableEq

/-- The reader between two bytes. -/
structure Reader where
  line : Bytes
  afterReturn : Bool
  eventType : Bytes
  data : List Bytes
  events : List Event
deriving DecidableEq

def Reader.fresh : Reader := ⟨[], false, [], [], []⟩

/-- The name of a field, and its value without one leading space. -/
def field (line : Bytes) : Bytes × Bytes :=
  let name := line.takeWhile fun b => b ≠ 58
  let value := (line.drop name.length).drop 1
  (name, if value.head? = some 32 then value.tail else value)

namespace Reader

/-- An empty line: the event is dispatched when it has data. -/
def dispatch (r : Reader) : Reader :=
  if r.data.isEmpty then { r with eventType := [] }
  else { r with
    eventType := []
    data := []
    events := r.events ++ [⟨r.eventType, r.data⟩] }

/-- A line that is not empty. -/
def setField (r : Reader) (line : Bytes) : Reader :=
  let (name, value) := field line
  if name = ascii "event" then { r with eventType := value }
  else if name = ascii "data" then { r with data := r.data ++ [value] }
  else r

/-- The end of a line. -/
def endLine (r : Reader) : Reader :=
  let ended := { r with line := [] }
  if r.line.isEmpty then ended.dispatch else ended.setField r.line

/-- One byte. -/
def push (r : Reader) (b : Byte) : Reader :=
  if b = lineFeed then
    if r.afterReturn then { r with afterReturn := false } else r.endLine
  else if b = carriageReturn then { r.endLine with afterReturn := true }
  else { r with line := r.line ++ [b], afterReturn := false }

/-- Some more bytes. -/
def read (r : Reader) (data : Bytes) : Reader := data.foldl push r

end Reader

/-- A stream without its byte order mark. -/
def dropMark (data : Bytes) : Bytes :=
  if [0xEF, 0xBB, 0xBF] <+: data then data.drop 3 else data

/-- The reader after a whole stream. -/
def readStream (data : Bytes) : Reader := Reader.fresh.read (dropMark data)

namespace Reader

theorem read_append (r : Reader) (s t : Bytes) : r.read (s ++ t) = (r.read s).read t :=
  List.foldl_append

/-- A line of ordinary bytes, which a line feed ends. -/
theorem read_line (r : Reader) {line : Bytes} (hne : line ≠ [])
    (h : ∀ b ∈ line, b ≠ lineFeed ∧ b ≠ carriageReturn) :
    r.read (line ++ [lineFeed]) =
      { r with line := r.line ++ line, afterReturn := false }.endLine := by
  have hread (r : Reader) (s : Bytes) (hs : ∀ b ∈ s, b ≠ lineFeed ∧ b ≠ carriageReturn) :
      s ≠ [] → r.read s = { r with line := r.line ++ s, afterReturn := false } := by
    induction s generalizing r with
    | nil => exact fun hnil => absurd rfl hnil
    | cons b rest ih =>
        intro _
        obtain ⟨⟨hfeed, hreturn⟩, hrest⟩ := List.forall_mem_cons.mp hs
        have hpush : r.push b = { r with line := r.line ++ [b], afterReturn := false } := by
          rw [push, if_neg hfeed, if_neg hreturn]
        change (r.push b).read rest = _
        rw [hpush]
        cases rest with
        | nil => rfl
        | cons c rest =>
            rw [ih _ hrest (List.cons_ne_nil _ _)]
            simp
  have hfeed (r : Reader) (hr : r.afterReturn = false) : r.read [lineFeed] = r.endLine := by
    change r.push lineFeed = _
    rw [push, if_pos rfl, hr]
    rfl
  rw [read_append, hread r line h hne]
  exact hfeed _ rfl

/-- A line with a feed only, at the start of a line. -/
theorem read_blank (r : Reader) (hline : r.line = []) (hreturn : r.afterReturn = false) :
    r.read [lineFeed] = r.dispatch := by
  obtain ⟨line, afterReturn, eventType, data, events⟩ := r
  simp only at hline hreturn
  subst hline hreturn
  rfl

/-- The reader after the line that names an event, whatever line was open before it. -/
def named (r : Reader) (name : Bytes) : Reader :=
  { r with line := r.line ++ (ascii "event: " ++ name), afterReturn := false }.endLine

theorem named_eq (r : Reader) (name : Bytes) :
    r.named name =
      { r with line := [], afterReturn := false }.setField
        (r.line ++ (ascii "event: " ++ name)) := by
  have hne : (r.line ++ (ascii "event: " ++ name)).isEmpty = false := by
    rw [List.isEmpty_eq_false_iff]
    simp [ascii, lit]
  rw [named, endLine]
  simp only [hne]
  rfl

theorem setField_fixed (r : Reader) (line : Bytes) :
    (r.setField line).line = r.line ∧ (r.setField line).afterReturn = r.afterReturn ∧
      (r.setField line).events = r.events := by
  unfold setField
  simp only
  split
  · exact ⟨rfl, rfl, rfl⟩
  · split <;> exact ⟨rfl, rfl, rfl⟩

theorem setField_data (r : Reader) (text : Bytes) :
    r.setField (ascii "data: " ++ text) = { r with data := r.data ++ [text] } := by
  have hfield : field (ascii "data: " ++ text) = (ascii "data", text) := by
    have hbytes : ascii "data: " = [100, 97, 116, 97, 58, 32] := by decide
    rw [hbytes]
    simp only [List.cons_append, List.nil_append, field]
    rfl
  rw [setField, hfield]
  rfl

/-- A byte that ends no line. -/
def Plain (data : Bytes) : Prop := ∀ b ∈ data, b ≠ lineFeed ∧ b ≠ carriageReturn

/-- An event with a name and one line of data. -/
def eventBytes (name text : Bytes) : Bytes :=
  ascii "event: " ++ name ++ [lineFeed] ++ (ascii "data: " ++ text ++ [lineFeed]) ++ [lineFeed]

theorem plain_append {s t : Bytes} (hs : Plain s) (ht : Plain t) : Plain (s ++ t) :=
  List.forall_mem_append.mpr ⟨hs, ht⟩

theorem plain_event : Plain (ascii "event: ") := by
  unfold Plain
  decide +kernel

theorem plain_data : Plain (ascii "data: ") := by
  unfold Plain
  decide +kernel

/-- The line of data and the blank line after it. -/
theorem read_data (eventType : Bytes) (data : List Bytes) (events : List Event) {text : Bytes}
    (htext : Plain text) :
    (Reader.mk [] false eventType data events).read
        (ascii "data: " ++ text ++ [lineFeed] ++ [lineFeed]) =
      ⟨[], false, [], [], events ++ [⟨eventType, data ++ [text]⟩]⟩ := by
  have hne : ascii "data: " ++ text ≠ [] := by simp [ascii, lit]
  have hempty : (ascii "data: " ++ text).isEmpty = false := by
    rw [List.isEmpty_eq_false_iff]
    exact hne
  have hend : (Reader.mk (ascii "data: " ++ text) false eventType data events).endLine =
      ⟨[], false, eventType, data ++ [text], events⟩ := by
    rw [endLine]
    simp only [hempty, Bool.false_eq_true, if_false, setField_data]
  rw [read_append, read_line _ hne (plain_append plain_data htext), List.nil_append, hend,
    read_blank _ rfl rfl, dispatch]
  simp

/-- What a reader makes of an event, whatever line or event was open before it. -/
theorem read_eventBytes (r : Reader) {name text : Bytes} (hname : Plain name)
    (htext : Plain text) :
    r.read (eventBytes name text) =
      ⟨[], false, [], [],
        r.events ++ [⟨(r.named name).eventType, (r.named name).data ++ [text]⟩]⟩ := by
  have hne : ascii "event: " ++ name ≠ [] := by simp [ascii, lit]
  obtain ⟨hline, hreturn, hevents⟩ :=
    setField_fixed { r with line := [], afterReturn := false }
      (r.line ++ (ascii "event: " ++ name))
  rw [← named_eq] at hline hreturn hevents
  have hnamed : r.named name =
      ⟨[], false, (r.named name).eventType, (r.named name).data, r.events⟩ := by
    cases hcases : r.named name
    rw [hcases] at hline hreturn hevents
    cases hline
    cases hreturn
    cases hevents
    rfl
  rw [eventBytes, List.append_assoc, read_append,
    read_line _ hne (plain_append plain_event hname)]
  change (r.named name).read _ = _
  rw [hnamed, read_data _ _ _ htext]

end Reader

/-- The byte order mark of a stream is settled by its first bytes. -/
theorem dropMark_append {data more : Bytes} (h : more.head? = some 101) :
    dropMark (data ++ more) = dropMark data ++ more := by
  unfold dropMark
  match data with
  | [] =>
      cases more with
      | nil => cases h
      | cons b rest =>
          cases h
          simp
  | [a] =>
      cases more with
      | nil => cases h
      | cons b rest =>
          cases h
          simp
  | [a, b] =>
      cases more with
      | nil => cases h
      | cons c rest =>
          cases h
          simp
  | a :: b :: c :: rest =>
      by_cases hmark : a = 0xEF ∧ b = 0xBB ∧ c = 0xBF
      · obtain ⟨rfl, rfl, rfl⟩ := hmark
        simp
      · have hnot (tail : Bytes) : ¬ [0xEF, 0xBB, 0xBF] <+: a :: b :: c :: tail := by
          intro hpre
          simp only [List.cons_prefix_cons, List.nil_prefix, and_true] at hpre
          exact hmark ⟨hpre.1.symm, hpre.2.1.symm, hpre.2.2.symm⟩
        rw [if_neg (hnot rest), List.cons_append, List.cons_append, List.cons_append,
          if_neg (hnot (rest ++ more))]

end Sse

end MediaBridge.Foundation
