import MediaBridge.Foundation.Json
import MediaBridge.Foundation.Unicode

/-!
# Media references in a JSON payload

`_contains_media_reference`, which the normalizer and the guard at the provider
boundary both have, word for word.

## Implementation notes

The Python function calls itself once per level, so that a deep value exhausts
the interpreter's recursion limit. `budget` is the number of nested calls the
limit still allows. `HoldsReference` says what the function looks for, without
an order of traversal and without a limit.
-/

namespace MediaBridge.Core

open Foundation

/-- The outcome of a traversal: it may also run out of stack. -/
inductive Scan
  | clean
  | found
  | tooDeep
deriving DecidableEq, Repr

namespace MediaReference

variable (U : UnicodeData)

/-- A text that starts like a data URL of an image or a PDF. -/
def startsAsData (s : Str) : Bool :=
  Str.startsWith (U.lower s) (lit "data:image/") ||
    Str.startsWith (U.lower s) (lit "data:application/pdf")

/-- `item.get("type") in {"input_image", "input_file", "image_url"}`. -/
def markedByType (fields : Entries Str Json) : Bool :=
  (Json.field fields "type").isLit "input_image" ||
    (Json.field fields "type").isLit "input_file" ||
    (Json.field fields "type").isLit "image_url"

/-- The keys whose string value is a locator. -/
def locatorKeys : List String := ["image_url", "file_data", "file_id", "file_url", "asset_id"]

/-- One of the locator keys holds a string that is not empty. -/
def namesLocator (fields : Entries Str Json) : Bool :=
  locatorKeys.any fun key =>
    match (Json.field fields key).str? with
    | some s => !s.isEmpty
    | none => false

mutual

/-- `_contains_media_reference(value)` with `budget` nested calls left. -/
def containsMediaReference : Nat → Json → Scan
  | 0, _ => .tooDeep
  | _ + 1, .str s => if startsAsData U s then .found else .clean
  | budget + 1, .arr items => scanItems budget items
  | budget + 1, .obj fields =>
      if markedByType fields || namesLocator fields then .found
      else scanValues budget fields
  | _ + 1, .null => .clean
  | _ + 1, .bool _ => .clean
  | _ + 1, .int _ => .clean
  | _ + 1, .float _ => .clean

/-- `any(_contains_media_reference(item) for item in value)`. -/
def scanItems : Nat → List Json → Scan
  | _, [] => .clean
  | budget, v :: rest =>
      match containsMediaReference budget v with
      | .clean => scanItems budget rest
      | other => other

/-- `any(_contains_media_reference(child) for child in item.values())`. -/
def scanValues : Nat → List (Str × Json) → Scan
  | _, [] => .clean
  | budget, (_, v) :: rest =>
      match containsMediaReference budget v with
      | .clean => scanValues budget rest
      | other => other

end

/-- A reference somewhere in the value. -/
inductive HoldsReference : Json → Prop
  | text {s : Str} : startsAsData U s = true → HoldsReference (.str s)
  | marked {fields} : markedByType fields = true → HoldsReference (.obj fields)
  | locator {fields} : namesLocator fields = true → HoldsReference (.obj fields)
  | item {items v} : v ∈ items → HoldsReference v → HoldsReference (.arr items)
  | value {fields : Entries Str Json} {e} : e ∈ fields → HoldsReference e.2 →
      HoldsReference (.obj fields)

variable {U}

/-- Over a list, the first item that is not clean decides. -/
theorem scanItems_eq_clean_iff {budget : Nat} {items : List Json} :
    scanItems U budget items = .clean ↔
      ∀ v ∈ items, containsMediaReference U budget v = .clean := by
  induction items with
  | nil => simp [scanItems]
  | cons v rest ih =>
      rw [scanItems, List.forall_mem_cons]
      cases h : containsMediaReference U budget v with
      | clean => simpa using ih
      | found => simp
      | tooDeep => simp

theorem scanValues_eq_clean_iff {budget : Nat} {fields : List (Str × Json)} :
    scanValues U budget fields = .clean ↔
      ∀ e ∈ fields, containsMediaReference U budget e.2 = .clean := by
  induction fields with
  | nil => simp [scanValues]
  | cons e rest ih =>
      obtain ⟨k, v⟩ := e
      rw [scanValues, List.forall_mem_cons]
      cases h : containsMediaReference U budget v with
      | clean => simpa using ih
      | found => simp
      | tooDeep => simp

theorem startsAsData_eq_false_iff {s : Str} :
    startsAsData U s = false ↔
      ¬ lit "data:image/" <+: U.lower s ∧ ¬ lit "data:application/pdf" <+: U.lower s := by
  simp [startsAsData, Str.startsWith]

/-- A text that does not start like a data URL in ASCII does not start like one. -/
theorem startsAsData_eq_false {s : Str} (himage : ¬ lit "data:image/" <+: Str.asciiLower s)
    (hpdf : ¬ lit "data:application/pdf" <+: Str.asciiLower s) : startsAsData U s = false := by
  rw [startsAsData_eq_false_iff]
  exact ⟨fun h => himage (U.asciiLower_of_lower _ _ (by decide) h),
    fun h => hpdf (U.asciiLower_of_lower _ _ (by decide) h)⟩

theorem containsMediaReference_str_eq_clean_iff {n : Nat} {s : Str} :
    containsMediaReference U (n + 1) (.str s) = .clean ↔ startsAsData U s = false := by
  rw [containsMediaReference]
  cases startsAsData U s <;> simp

theorem containsMediaReference_arr_eq_clean_iff {n : Nat} {items : List Json} :
    containsMediaReference U (n + 1) (.arr items) = .clean ↔
      ∀ v ∈ items, containsMediaReference U n v = .clean := by
  rw [containsMediaReference, scanItems_eq_clean_iff]

theorem containsMediaReference_obj_eq_clean_iff {n : Nat} {fields : List (Str × Json)} :
    containsMediaReference U (n + 1) (.obj fields) = .clean ↔
      (markedByType fields || namesLocator fields) = false ∧
        ∀ e ∈ fields, containsMediaReference U n e.2 = .clean := by
  rw [containsMediaReference]
  split
  · rename_i h
    simp [h]
  · rename_i h
    rw [scanValues_eq_clean_iff]
    simp [Bool.eq_false_iff.mpr h]

/-- The marks of a dictionary only depend on its type and on the locator keys. -/
theorem marked_eq_of_get? {fields fields' : Entries Str Json}
    (h : ∀ key ∈ "type" :: locatorKeys,
      Entries.get? fields (lit key) = Entries.get? fields' (lit key)) :
    (markedByType fields || namesLocator fields) =
      (markedByType fields' || namesLocator fields') := by
  have hfield : ∀ key ∈ "type" :: locatorKeys,
      Json.field fields key = Json.field fields' key := by
    intro key hkey
    rw [Json.field, Json.field, h key hkey]
  have htype := hfield "type" List.mem_cons_self
  have hnames : namesLocator fields = namesLocator fields' := by
    rw [namesLocator, namesLocator, Bool.eq_iff_iff, List.any_eq_true, List.any_eq_true]
    constructor
    · rintro ⟨key, hkey, hvalue⟩
      exact ⟨key, hkey, hfield key (List.mem_cons_of_mem _ hkey) ▸ hvalue⟩
    · rintro ⟨key, hkey, hvalue⟩
      exact ⟨key, hkey, hfield key (List.mem_cons_of_mem _ hkey) ▸ hvalue⟩
  rw [hnames, markedByType, markedByType, htype]

theorem exists_of_scanItems {budget : Nat} {items : List Json} {r : Scan}
    (h : scanItems U budget items = r) (hr : r ≠ .clean) :
    ∃ v ∈ items, containsMediaReference U budget v = r := by
  induction items with
  | nil => exact absurd h.symm hr
  | cons v rest ih =>
      rw [scanItems] at h
      cases hv : containsMediaReference U budget v with
      | clean =>
          rw [hv] at h
          obtain ⟨w, hw, hr⟩ := ih h
          exact ⟨w, List.mem_cons_of_mem _ hw, hr⟩
      | found =>
          rw [hv] at h
          exact ⟨v, List.mem_cons_self, h ▸ hv⟩
      | tooDeep =>
          rw [hv] at h
          exact ⟨v, List.mem_cons_self, h ▸ hv⟩

theorem exists_of_scanValues {budget : Nat} {fields : List (Str × Json)} {r : Scan}
    (h : scanValues U budget fields = r) (hr : r ≠ .clean) :
    ∃ e ∈ fields, containsMediaReference U budget e.2 = r := by
  induction fields with
  | nil => exact absurd h.symm hr
  | cons e rest ih =>
      obtain ⟨k, v⟩ := e
      rw [scanValues] at h
      cases hv : containsMediaReference U budget v with
      | clean =>
          rw [hv] at h
          obtain ⟨w, hw, hr⟩ := ih h
          exact ⟨w, List.mem_cons_of_mem _ hw, hr⟩
      | found =>
          rw [hv] at h
          exact ⟨(k, v), List.mem_cons_self, h ▸ hv⟩
      | tooDeep =>
          rw [hv] at h
          exact ⟨(k, v), List.mem_cons_self, h ▸ hv⟩

/-- What the traversal reports as found is a reference. -/
theorem holds_of_found {v : Json} :
    ∀ {budget : Nat}, containsMediaReference U budget v = .found → HoldsReference U v := by
  induction v using Json.induct with
  | str s =>
      intro budget h
      cases budget with
      | zero => cases h
      | succ n =>
          rw [containsMediaReference] at h
          split at h
          · rename_i hs
            exact .text hs
          · cases h
  | arr items ih =>
      intro budget h
      cases budget with
      | zero => cases h
      | succ n =>
          obtain ⟨v, hv, hf⟩ := exists_of_scanItems (by simpa [containsMediaReference] using h)
            (by decide)
          exact .item hv (ih v hv hf)
  | obj fields ih =>
      intro budget h
      cases budget with
      | zero => cases h
      | succ n =>
          rw [containsMediaReference] at h
          split at h
          · rename_i hs
            rcases Bool.or_eq_true_iff.mp hs with hm | hl
            · exact .marked hm
            · exact .locator hl
          · obtain ⟨e, he, hf⟩ := exists_of_scanValues h (by decide)
            exact .value he (ih e he hf)
  | null | bool _ | int _ | float _ =>
      intro budget h
      cases budget <;> simp [containsMediaReference] at h

/-- A traversal that ends without a finding has seen the whole value. -/
theorem not_holds_of_clean {v : Json} (hv : HoldsReference U v) :
    ∀ {budget : Nat}, containsMediaReference U budget v ≠ .clean := by
  induction hv with
  | text hs => intro budget h; cases budget <;> simp [containsMediaReference, hs] at h
  | marked hm => intro budget h; cases budget <;> simp [containsMediaReference, hm] at h
  | locator hl => intro budget h; cases budget <;> simp [containsMediaReference, hl] at h
  | item hmem _ ih =>
      intro budget h
      cases budget with
      | zero => cases h
      | succ n => exact ih (scanItems_eq_clean_iff.mp h _ hmem)
  | value hmem _ ih =>
      intro budget h
      cases budget with
      | zero => cases h
      | succ n =>
          rw [containsMediaReference] at h
          split at h
          · cases h
          · exact ih (scanValues_eq_clean_iff.mp h _ hmem)

/-- The stack suffices for a value that is not nested more deeply than it. -/
theorem ne_tooDeep_of_depth {v : Json} :
    ∀ {budget : Nat}, v.depth < budget → containsMediaReference U budget v ≠ .tooDeep := by
  induction v using Json.induct with
  | arr items ih =>
      intro budget hd h
      cases budget with
      | zero => cases hd
      | succ n =>
          obtain ⟨v, hv, ht⟩ := exists_of_scanItems (by simpa [containsMediaReference] using h)
            (by decide)
          have hle := Json.depth_le_of_mem_items hv
          simp only [Json.depth] at hd
          exact ih v hv (by omega) ht
  | obj fields ih =>
      intro budget hd h
      cases budget with
      | zero => cases hd
      | succ n =>
          rw [containsMediaReference] at h
          split at h
          · cases h
          · obtain ⟨e, he, ht⟩ := exists_of_scanValues h (by decide)
            have hle := Json.depth_le_of_mem_fields he
            simp only [Json.depth] at hd
            exact ih e he (by omega) ht
  | str s =>
      intro budget hd h
      cases budget with
      | zero => cases hd
      | succ n => rw [containsMediaReference] at h; split at h <;> cases h
  | null | bool _ | int _ | float _ =>
      intro budget hd h
      cases budget with
      | zero => cases hd
      | succ n => simp [containsMediaReference] at h

/-- With stack to spare, the traversal decides whether there is a reference. -/
theorem found_iff_holds {v : Json} {budget : Nat} (hd : v.depth < budget) :
    containsMediaReference U budget v = .found ↔ HoldsReference U v := by
  refine ⟨holds_of_found, fun h => ?_⟩
  cases hr : containsMediaReference U budget v with
  | clean => exact absurd hr (not_holds_of_clean h)
  | found => rfl
  | tooDeep => exact absurd hr (ne_tooDeep_of_depth hd)

end MediaReference

end MediaBridge.Core
