import MediaBridge.Foundation.JsonRoundTrip
import Mathlib.Data.List.Forall2

/-!
# Texts with sorted keys

A value that is written with `sort_keys=True` is read back with the entries of its
dictionaries in the order of their keys. Reading a key gives the same value.
-/

namespace MediaBridge.Foundation

namespace Entries

variable {κ ν : Type*} [DecidableEq κ]

/-- With unique keys, the order of the entries does not matter to a reader. -/
theorem get?_of_perm {d e : Entries κ ν} (hperm : d.Perm e) (hd : (keys d).Nodup) (k : κ) :
    get? d k = get? e k := by
  have he : (keys e).Nodup := (hperm.map Prod.fst).nodup_iff.mp hd
  ext v
  rw [get?_eq_some_iff hd, get?_eq_some_iff he, hperm.mem_iff]

theorem get?_map {ω : Type*} (f : ν → ω) (d : Entries κ ν) (k : κ) :
    get? (d.map fun e => (e.1, f e.2)) k = (get? d k).map f := by
  induction d with
  | nil => rfl
  | cons e rest ih =>
      rw [List.map_cons, get?_cons, get?_cons]
      split_ifs
      · rfl
      · exact ih

end Entries

namespace JsonText

theorem orderedFields_perm {ν : Type} (sortKeys : Bool) (fields : List (Str × ν)) :
    (orderedFields sortKeys fields).Perm fields := by
  cases sortKeys with
  | false => exact .refl _
  | true => exact List.perm_insertionSort _ _

theorem orderedFields_orderedFields {ν : Type} (sortKeys : Bool) (fields : List (Str × ν)) :
    orderedFields sortKeys (orderedFields sortKeys fields) = orderedFields sortKeys fields := by
  cases sortKeys with
  | false => rfl
  | true =>
      have : Std.Total fun a b : Str × ν => a.1 ≤ b.1 := ⟨fun a b => le_total a.1 b.1⟩
      have : IsTrans (Str × ν) fun a b => a.1 ≤ b.1 := ⟨fun _ _ _ => le_trans⟩
      exact (List.pairwise_insertionSort (fun a b : Str × ν => a.1 ≤ b.1) fields).insertionSort_eq

/-- Two lists of entries with the same keys are sorted in the same way. -/
theorem forall₂_orderedFields {ν ω : Type} {R : Str × ν → Str × ω → Prop}
    (hkey : ∀ a b, R a b → a.1 = b.1) {sortKeys : Bool} {l : List (Str × ν)}
    {m : List (Str × ω)} (h : List.Forall₂ R l m) :
    List.Forall₂ R (orderedFields sortKeys l) (orderedFields sortKeys m) := by
  have hinsert {a b} (hab : R a b) {l m} (h : List.Forall₂ R l m) :
      List.Forall₂ R (l.orderedInsert (fun a b => a.1 ≤ b.1) a)
        (m.orderedInsert (fun a b => a.1 ≤ b.1) b) := by
    induction h with
    | nil => exact .cons hab .nil
    | @cons x y l m hxy hrest ih =>
        rw [List.orderedInsert, List.orderedInsert, hkey a b hab, hkey x y hxy]
        split_ifs
        · exact .cons hab (.cons hxy hrest)
        · exact .cons hxy ih
  cases sortKeys with
  | false => exact h
  | true =>
      change List.Forall₂ R (l.insertionSort _) (m.insertionSort _)
      induction h with
      | nil => exact .nil
      | cons hab _ ih => exact hinsert hab ih

end JsonText

namespace Json

open JsonText (orderedFields orderedFields_perm)

mutual

/-- The value with the entries of every dictionary in the order of their keys. -/
def sorted : Json → Json
  | .null => .null
  | .bool b => .bool b
  | .int n => .int n
  | .float bits => .float bits
  | .str s => .str s
  | .arr items => .arr (sortedItems items)
  | .obj fields => .obj (orderedFields true (sortedFields fields))

/-- The items of a list, sorted inside. -/
def sortedItems : List Json → List Json
  | [] => []
  | v :: rest => sorted v :: sortedItems rest

/-- The entries of a dictionary, sorted inside. -/
def sortedFields : List (Str × Json) → List (Str × Json)
  | [] => []
  | (k, v) :: rest => (k, sorted v) :: sortedFields rest

end

theorem sortedItems_eq (items : List Json) : sortedItems items = items.map sorted := by
  induction items with
  | nil => rfl
  | cons v rest ih => exact congrArg (sorted v :: ·) ih

theorem sortedFields_eq (fields : List (Str × Json)) :
    sortedFields fields = fields.map fun e => (e.1, e.2.sorted) := by
  induction fields with
  | nil => rfl
  | cons e rest ih => exact congrArg ((e.1, e.2.sorted) :: ·) ih

@[simp] theorem sorted_null : sorted .null = .null := rfl

@[simp] theorem sorted_bool (b : Bool) : sorted (.bool b) = .bool b := rfl

@[simp] theorem sorted_int (n : Int) : sorted (.int n) = .int n := rfl

@[simp] theorem sorted_float (bits : BitVec 64) : sorted (.float bits) = .float bits := rfl

@[simp] theorem sorted_str (s : Str) : sorted (.str s) = .str s := rfl

theorem sorted_arr (items : List Json) : sorted (.arr items) = .arr (items.map sorted) :=
  congrArg Json.arr (sortedItems_eq items)

theorem sorted_obj (fields : List (Str × Json)) :
    sorted (.obj fields) =
      .obj (orderedFields true (fields.map fun e => (e.1, e.2.sorted))) :=
  congrArg (fun entries => Json.obj (orderedFields true entries)) (sortedFields_eq fields)

/-- The entries of a sorted dictionary. -/
def sortedEntries (fields : List (Str × Json)) : List (Str × Json) :=
  orderedFields true (fields.map fun e => (e.1, e.2.sorted))

theorem sortedEntries_perm (fields : List (Str × Json)) :
    (sortedEntries fields).Perm (fields.map fun e => (e.1, e.2.sorted)) :=
  orderedFields_perm true _

theorem keys_sortedEntries (fields : List (Str × Json)) :
    (Entries.keys (sortedEntries fields)).Perm (Entries.keys fields) := by
  have h := (sortedEntries_perm fields).map Prod.fst
  rwa [List.map_map] at h

/-- A key of a sorted dictionary holds the sorted value. -/
theorem get?_sortedEntries {fields : List (Str × Json)} (h : (Entries.keys fields).Nodup)
    (k : Str) : Entries.get? (sortedEntries fields) k = (Entries.get? fields k).map sorted := by
  rw [Entries.get?_of_perm (sortedEntries_perm fields), Entries.get?_map]
  exact (keys_sortedEntries fields).nodup_iff.mpr h

theorem field_sortedEntries {fields : List (Str × Json)} (h : (Entries.keys fields).Nodup)
    (key : String) : field (sortedEntries fields) key = (field fields key).sorted := by
  rw [field, field, get?_sortedEntries h]
  cases Entries.get? fields (lit key) with
  | none => exact sorted_null.symm
  | some v => rfl

/-- Dictionaries that differ in the order of their keys have the same values. -/
theorem field_of_sorted_eq {fields others : List (Str × Json)}
    (h : (obj fields).sorted = (obj others).sorted) (hfields : (Entries.keys fields).Nodup)
    (hothers : (Entries.keys others).Nodup) (key : String) :
    (field fields key).sorted = (field others key).sorted := by
  have hentries : sortedEntries fields = sortedEntries others := by
    rw [sorted_obj, sorted_obj, obj.injEq] at h
    exact h
  rw [← field_sortedEntries hfields, ← field_sortedEntries hothers, hentries]

/-- What is in the order of its keys already stays as it is. -/
@[simp] theorem sorted_sorted (v : Json) : v.sorted.sorted = v.sorted := by
  induction v using Json.induct with
  | null => simp
  | bool b => simp
  | int n => simp
  | float bits => simp
  | str s => simp
  | arr items ih =>
      rw [sorted_arr, sorted_arr, List.map_map]
      exact congrArg Json.arr (List.map_congr_left ih)
  | obj fields ih =>
      have hvalues : (sortedEntries fields).map (fun e => (e.1, e.2.sorted)) =
          sortedEntries fields := by
        conv_rhs => rw [← List.map_id (sortedEntries fields)]
        apply List.map_congr_left
        intro e he
        obtain ⟨f, hf, rfl⟩ := List.mem_map.mp ((sortedEntries_perm fields).mem_iff.mp he)
        exact Prod.ext rfl (ih f hf)
      have horder : orderedFields true (sortedEntries fields) = sortedEntries fields :=
        JsonText.orderedFields_orderedFields true _
      rw [sorted_obj]
      exact (sorted_obj _).trans (congrArg Json.obj ((congrArg _ hvalues).trans horder))

@[simp] theorem isLit_sorted (v : Json) (text : String) : v.sorted.isLit text = v.isLit text := by
  cases v <;> simp [isLit, sorted_arr, sorted_obj]

@[simp] theorem str?_sorted (v : Json) : v.sorted.str? = v.str? := by
  cases v <;> simp [str?, sorted_arr, sorted_obj]

theorem depthItems_le_iff {items : List Json} {d : Nat} :
    depthItems items ≤ d ↔ ∀ v ∈ items, v.depth ≤ d := by
  induction items with
  | nil => simp [depthItems]
  | cons v rest ih => rw [depthItems, Nat.max_le, ih, List.forall_mem_cons]

theorem depthFields_le_iff {fields : List (Str × Json)} {d : Nat} :
    depthFields fields ≤ d ↔ ∀ e ∈ fields, e.2.depth ≤ d := by
  induction fields with
  | nil => simp [depthFields]
  | cons e rest ih => rw [depthFields, Nat.max_le, ih, List.forall_mem_cons]

theorem depth_sorted_le {v : Json} {d : Nat} (h : v.depth ≤ d) : v.sorted.depth ≤ d := by
  induction v using Json.induct generalizing d with
  | null => simpa using h
  | bool b => simpa using h
  | int n => simpa using h
  | float bits => simpa using h
  | str s => simpa using h
  | arr items ih =>
      rw [sorted_arr]
      rw [depth] at h ⊢
      have hitems : ∀ v ∈ items, v.depth ≤ d - 1 := depthItems_le_iff.mp (by omega)
      have hsorted : depthItems (items.map sorted) ≤ d - 1 := by
        apply depthItems_le_iff.mpr
        intro v hv
        obtain ⟨w, hw, rfl⟩ := List.mem_map.mp hv
        exact ih w hw (hitems w hw)
      omega
  | obj fields ih =>
      rw [sorted_obj]
      rw [depth] at h ⊢
      have hfields : ∀ e ∈ fields, e.2.depth ≤ d - 1 := depthFields_le_iff.mp (by omega)
      have hsorted : depthFields (sortedEntries fields) ≤ d - 1 := by
        apply depthFields_le_iff.mpr
        intro e he
        obtain ⟨f, hf, rfl⟩ := List.mem_map.mp ((sortedEntries_perm fields).mem_iff.mp he)
        exact ih f hf (hfields f hf)
      rw [sortedEntries] at hsorted
      omega

end Json

namespace JsonText

open Json (sorted sortedEntries)

theorem Plain.sorted {v : Json} (h : Plain v) : Plain v.sorted := by
  induction h with
  | null => simpa using Plain.null
  | bool b => simpa using Plain.bool b
  | int n => simpa using Plain.int n
  | str hs => simpa using Plain.str hs
  | arr _ ih =>
      rw [Json.sorted_arr]
      refine .arr fun v hv => ?_
      obtain ⟨w, hw, rfl⟩ := List.mem_map.mp hv
      exact ih w hw
  | @obj fields hnodup hkeys _ ih =>
      rw [Json.sorted_obj]
      have hmem {e : Str × Json} (he : e ∈ sortedEntries fields) :
          ∃ f ∈ fields, (f.1, f.2.sorted) = e :=
        List.mem_map.mp ((Json.sortedEntries_perm fields).mem_iff.mp he)
      refine .obj ((Json.keys_sortedEntries fields).nodup_iff.mpr hnodup) ?_ ?_
      · intro e he
        obtain ⟨f, hf, rfl⟩ := hmem he
        exact hkeys f hf
      · intro e he
        obtain ⟨f, hf, rfl⟩ := hmem he
        exact ih f hf

section Forall

variable {F : FloatText} {style : Style}

/-- What stands beside a member of the second list. -/
theorem exists_of_forall₂ {α β : Type} {R : α → β → Prop} {l : List α} {m : List β}
    (h : List.Forall₂ R l m) {b : β} (hb : b ∈ m) : ∃ a ∈ l, R a b := by
  induction h with
  | nil => cases hb
  | cons hab _ ih =>
      rcases List.mem_cons.mp hb with rfl | hb
      · exact ⟨_, List.mem_cons_self, hab⟩
      · obtain ⟨a, ha, hR⟩ := ih hb
        exact ⟨a, List.mem_cons_of_mem _ ha, hR⟩

/-- What stands beside a member of the first list. -/
theorem exists_of_forall₂_left {α β : Type} {R : α → β → Prop} {l : List α} {m : List β}
    (h : List.Forall₂ R l m) {a : α} (ha : a ∈ l) : ∃ b ∈ m, R a b :=
  exists_of_forall₂ (R := fun b a => R a b) h.flip ha

theorem dumpsItems_eq_some_iff {items : List Json} {texts : List Str} :
    dumpsItems F style items = some texts ↔
      List.Forall₂ (fun v text => dumps F style v = some text) items texts := by
  induction items generalizing texts with
  | nil => cases texts <;> simp [dumpsItems]
  | cons v rest ih =>
      rw [dumpsItems]
      constructor
      · intro h
        obtain ⟨text, htext, h⟩ := Option.bind_eq_some_iff.mp h
        obtain ⟨more, hmore, h⟩ := Option.bind_eq_some_iff.mp h
        cases h
        exact .cons htext (ih.mp hmore)
      · rintro (_ | ⟨htext, hmore⟩)
        rw [htext, ih.mpr hmore]
        rfl

theorem dumpsFields_eq_some_iff {fields : List (Str × Json)} {texts : List (Str × Str)} :
    dumpsFields F style fields = some texts ↔
      List.Forall₂ (fun e t => e.1 = t.1 ∧ dumps F style e.2 = some t.2) fields texts := by
  induction fields generalizing texts with
  | nil => cases texts <;> simp [dumpsFields]
  | cons e rest ih =>
      rw [dumpsFields]
      constructor
      · intro h
        obtain ⟨text, htext, h⟩ := Option.bind_eq_some_iff.mp h
        obtain ⟨more, hmore, h⟩ := Option.bind_eq_some_iff.mp h
        cases h
        exact .cons ⟨rfl, htext⟩ (ih.mp hmore)
      · rintro (_ | ⟨⟨hkey, htext⟩, hmore⟩)
        rw [htext, ih.mpr hmore, hkey]
        rfl

/-- Sorting while writing is writing the sorted value. -/
theorem dumps_sorted (hstyle : style.sortKeys = true) {v : Json} {text : Str}
    (h : dumps F style v = some text) :
    dumps F { style with sortKeys := false } v.sorted = some text := by
  induction v using Json.induct generalizing text with
  | null => simpa [dumps] using h
  | bool b => cases b <;> simpa [dumps] using h
  | int n => simpa [dumps] using h
  | float bits => simpa [dumps] using h
  | str s => simpa [dumps] using h
  | arr items ih =>
      rw [dumps] at h
      obtain ⟨texts, htexts, h⟩ := Option.bind_eq_some_iff.mp h
      cases h
      have hsorted : dumpsItems F { style with sortKeys := false } (items.map sorted) =
          some texts := by
        rw [dumpsItems_eq_some_iff, List.forall₂_map_left_iff]
        have hboth := (List.forall₂_and_left _ _).mpr ⟨ih, dumpsItems_eq_some_iff.mp htexts⟩
        exact hboth.imp fun v text hv => hv.1 hv.2
      rw [Json.sorted_arr, dumps, hsorted]
      rfl
  | obj fields ih =>
      rw [dumps, hstyle] at h
      obtain ⟨texts, htexts, h⟩ := Option.bind_eq_some_iff.mp h
      cases h
      have hsorted : dumpsFields F { style with sortKeys := false } (sortedEntries fields) =
          some (orderedFields true texts) := by
        rw [dumpsFields_eq_some_iff]
        apply forall₂_orderedFields fun _ _ hab => hab.1
        rw [List.forall₂_map_left_iff]
        have hboth := (List.forall₂_and_left _ _).mpr ⟨ih, dumpsFields_eq_some_iff.mp htexts⟩
        exact hboth.imp fun e text he => ⟨he.2.1, he.1 he.2.2⟩
      rw [Json.sorted_obj, dumps]
      change (dumpsFields F { style with sortKeys := false } (sortedEntries fields)).bind _ = _
      rw [hsorted]
      rfl

end Forall

/-- A text with sorted keys is read as the sorted value. -/
theorem loads_dumps_sorted {F : FloatText} {style : Style} (hstyle : style.sortKeys = true)
    {v : Json} (hv : Plain v) {text : Str} (h : dumps F style v = some text) {depth : Nat}
    (hdepth : v.depth ≤ depth) : loads F depth text = .ok v.sorted :=
  loads_dumps (by rfl) hv.sorted (dumps_sorted hstyle h)
    (Json.depth_sorted_le hdepth)

end JsonText

end MediaBridge.Foundation
