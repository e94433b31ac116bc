import MediaBridge.Foundation.JsonSorted

/-!
# The entries of a value at any depth

What is said of every entry of every dictionary in a value, however deep it is nested.
-/

namespace MediaBridge.Foundation.Json

/-- A dictionary of a value, at any depth. -/
inductive HasObject : Json → List (Str × Json) → Prop
  | here (fields : List (Str × Json)) : HasObject (.obj fields) fields
  | item {items : List Json} {v : Json} {fields : List (Str × Json)} : v ∈ items →
      HasObject v fields → HasObject (.arr items) fields
  | value {entries : List (Str × Json)} {e : Str × Json} {fields : List (Str × Json)} :
      e ∈ entries → HasObject e.2 fields → HasObject (.obj entries) fields

/-- Every entry of every dictionary in a value has a property. -/
def Everywhere (p : Str → Json → Prop) (v : Json) : Prop :=
  ∀ fields, HasObject v fields → ∀ e ∈ fields, p e.1 e.2

variable {p q : Str → Json → Prop} {v : Json} {items : List Json} {fields : List (Str × Json)}

theorem everywhere_of_flat (h : ∀ fields, ¬ HasObject v fields) : Everywhere p v :=
  fun fields hfields => absurd hfields (h fields)

theorem everywhere_arr_iff : Everywhere p (.arr items) ↔ ∀ v ∈ items, Everywhere p v := by
  constructor
  · exact fun h v hv fields hfields => h fields (.item hv hfields)
  · rintro h fields (_ | ⟨hv, hfields⟩ | _)
    exact h _ hv fields hfields

theorem everywhere_obj_iff :
    Everywhere p (.obj fields) ↔ ∀ e ∈ fields, p e.1 e.2 ∧ Everywhere p e.2 := by
  constructor
  · intro h e he
    exact ⟨h fields (.here fields) e he, fun inner hinner => h inner (.value he hinner)⟩
  · rintro h inner (_ | _ | ⟨he, hinner⟩)
    · exact fun e he => (h e he).1
    · exact (h _ he).2 inner hinner

/-- The order of the keys does not matter. -/
theorem everywhere_sorted (hp : ∀ key v, p key v.sorted ↔ p key v) :
    Everywhere p v.sorted ↔ Everywhere p v := by
  induction v using Json.induct with
  | null => rw [sorted_null]
  | bool b => rw [sorted_bool]
  | int n => rw [sorted_int]
  | float bits => rw [sorted_float]
  | str s => rw [sorted_str]
  | arr items ih =>
      rw [sorted_arr, everywhere_arr_iff, everywhere_arr_iff, List.forall_mem_map]
      exact forall₂_congr ih
  | obj fields ih =>
      have hmem : ∀ e, e ∈ sortedEntries fields ↔ e ∈ fields.map fun e => (e.1, e.2.sorted) :=
        fun e => (sortedEntries_perm fields).mem_iff
      have hobj : sorted (.obj fields) = .obj (sortedEntries fields) := sorted_obj fields
      rw [hobj, everywhere_obj_iff, everywhere_obj_iff]
      simp only [hmem, List.forall_mem_map]
      exact forall₂_congr fun e he => and_congr (hp e.1 e.2) (ih e he)

end MediaBridge.Foundation.Json
