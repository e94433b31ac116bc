import MediaBridge.Foundation.Dict
import MediaBridge.Foundation.Text

/-!
# JSON values as Python sees them

The values `json.loads` returns: `None`, booleans, integers of any size,
floats, strings, lists and string-keyed dictionaries.

## Implementation notes

A float is its IEEE bit pattern, since the modelled program never computes
with one. Dictionaries are entry lists; `WellFormed` says that keys are unique
at every depth, which is what a Python dictionary guarantees.
-/

namespace MediaBridge.Foundation

/-- A value of Python's `json` module. -/
inductive Json
  | null
  | bool (b : Bool)
  | int (n : Int)
  | float (bits : BitVec 64)
  | str (s : Str)
  | arr (items : List Json)
  | obj (fields : List (Str × Json))

namespace Json

/-- `d.get(key)`: `None` stands for an absent key as well. -/
def field (fields : Entries Str Json) (key : String) : Json :=
  (Entries.get? fields (lit key)).getD .null

/-- `v is None`. -/
def isNull : Json → Bool
  | .null => true
  | _ => false

/-- The string, when the value is one. -/
def str? : Json → Option Str
  | .str s => some s
  | _ => none

/-- `v == "text"`. -/
def isLit (v : Json) (text : String) : Bool :=
  match v with
  | .str s => decide (s = lit text)
  | _ => false

/-- `hash(v)` succeeds: lists and dictionaries have no hash. -/
def hashable : Json → Bool
  | .arr _ => false
  | .obj _ => false
  | _ => true

/-- `isinstance(v, dict)` together with its entries. -/
def obj? : Json → Option (Entries Str Json)
  | .obj fields => some fields
  | _ => none

/-- `set(d).issubset({...})`. -/
def keysWithin (fields : Entries Str Json) (allowed : List String) : Bool :=
  fields.all fun e => allowed.any fun k => decide (e.1 = lit k)

mutual

/-- Every dictionary in the value has unique keys. -/
def WellFormed : Json → Prop
  | .arr items => WellFormedItems items
  | .obj fields => (Entries.keys fields).Nodup ∧ WellFormedFields fields
  | _ => True

/-- Every item of a list is well formed. -/
def WellFormedItems : List Json → Prop
  | [] => True
  | v :: rest => WellFormed v ∧ WellFormedItems rest

/-- Every value of a dictionary is well formed. -/
def WellFormedFields : List (Str × Json) → Prop
  | [] => True
  | (_, v) :: rest => WellFormed v ∧ WellFormedFields rest

end

mutual

/-- How many containers are open at the deepest value. -/
def depth : Json → Nat
  | .arr items => depthItems items + 1
  | .obj fields => depthFields fields + 1
  | _ => 0

/-- The greatest depth among the items of a list. -/
def depthItems : List Json → Nat
  | [] => 0
  | v :: rest => max (depth v) (depthItems rest)

/-- The greatest depth among the values of a dictionary. -/
def depthFields : List (Str × Json) → Nat
  | [] => 0
  | (_, v) :: rest => max (depth v) (depthFields rest)

end

/-- Induction over a value: the hypothesis covers each item of a list and each
value of a dictionary. -/
theorem induct {P : Json → Prop} (null : P .null) (bool : ∀ b, P (.bool b))
    (int : ∀ n, P (.int n)) (float : ∀ bits, P (.float bits)) (str : ∀ s, P (.str s))
    (arr : ∀ items, (∀ v ∈ items, P v) → P (.arr items))
    (obj : ∀ fields, (∀ e ∈ fields, P e.2) → P (.obj fields)) (v : Json) : P v :=
  @Json.rec P (fun items => ∀ v ∈ items, P v) (fun fields => ∀ e ∈ fields, P e.2)
    (fun e => P e.2)
    null bool int float str arr obj
    (fun _ h => by cases h)
    (fun _ _ hv hrest w hw => by
      rcases List.mem_cons.mp hw with rfl | h
      · exact hv
      · exact hrest w h)
    (fun _ h => by cases h)
    (fun _ _ he hrest w hw => by
      rcases List.mem_cons.mp hw with rfl | h
      · exact he
      · exact hrest w h)
    (fun _ _ h => h) v

@[simp] theorem isNull_null : isNull .null = true := rfl

theorem isNull_iff (v : Json) : v.isNull = true ↔ v = .null := by
  cases v <;> simp [isNull]

theorem isLit_iff (v : Json) (text : String) : v.isLit text = true ↔ v = .str (lit text) := by
  cases v <;> simp [isLit]

theorem str?_eq_some_iff (v : Json) (s : Str) : v.str? = some s ↔ v = .str s := by
  cases v <;> simp [str?]

/-- A key that is read as something other than `None` is present. -/
theorem get?_of_field {fields : Entries Str Json} {key : String} {v : Json}
    (h : field fields key = v) (hv : v ≠ .null) :
    Entries.get? fields (lit key) = some v := by
  cases hget : Entries.get? fields (lit key) with
  | none => simp [field, hget] at h; exact absurd h.symm hv
  | some w => simpa [field, hget] using h

@[simp] theorem field_nil (key : String) : field [] key = .null := rfl

@[simp] theorem field_cons_self (key : String) (v : Json) (rest : Entries Str Json) :
    field ((lit key, v) :: rest) key = v := by
  simp [field]

theorem field_cons_of_ne {k key : String} (h : lit k ≠ lit key) (v : Json)
    (rest : Entries Str Json) : field ((lit k, v) :: rest) key = field rest key := by
  rw [field, Entries.get?_cons, if_neg h, field]

theorem wellFormedFields_of_mem {fields : List (Str × Json)} (h : WellFormedFields fields) :
    ∀ e ∈ fields, WellFormed e.2 := by
  induction fields with
  | nil => intro e he; cases he
  | cons p rest ih =>
      obtain ⟨k, v⟩ := p
      intro e he
      rcases List.mem_cons.mp he with rfl | hmem
      · exact h.1
      · exact ih h.2 e hmem

theorem wellFormedItems_of_mem {items : List Json} (h : WellFormedItems items) :
    ∀ v ∈ items, WellFormed v := by
  induction items with
  | nil => intro v hv; cases hv
  | cons w rest ih =>
      intro v hv
      rcases List.mem_cons.mp hv with rfl | hmem
      · exact h.1
      · exact ih h.2 v hmem

theorem depth_le_of_mem_items {items : List Json} {v : Json} (h : v ∈ items) :
    depth v ≤ depthItems items := by
  induction items with
  | nil => cases h
  | cons w rest ih =>
      rcases List.mem_cons.mp h with rfl | hmem
      · exact le_max_left _ _
      · exact (ih hmem).trans (le_max_right _ _)

theorem depth_le_of_mem_fields {fields : List (Str × Json)} {e : Str × Json}
    (h : e ∈ fields) : depth e.2 ≤ depthFields fields := by
  induction fields with
  | nil => cases h
  | cons p rest ih =>
      obtain ⟨k, v⟩ := p
      rcases List.mem_cons.mp h with rfl | hmem
      · exact le_max_left _ _
      · exact (ih hmem).trans (le_max_right _ _)

end Json

end MediaBridge.Foundation
