import MediaBridge.Foundation.Raise
import Mathlib.Data.List.Nodup

/-!
# Collecting results over a list

A fallible function on every item of a list: the collected results are those of the items,
in order. And lists of groups that have no member in common.
-/

namespace MediaBridge.Foundation

variable {α β ε : Type}

/-- The results of a function that may give none. -/
theorem mapM_eq_some_iff {f : α → Option β} {items : List α} {results : List β} :
    items.mapM f = some results ↔ items.map f = results.map some := by
  induction items generalizing results with
  | nil => cases results <;> simp
  | cons item items ih =>
      rw [List.mapM_cons, List.map_cons]
      constructor
      · intro h
        obtain ⟨result, hresult, h⟩ := Option.bind_eq_some_iff.mp h
        obtain ⟨rest, hrest, h⟩ := Option.bind_eq_some_iff.mp h
        cases h
        rw [hresult, ih.mp hrest, List.map_cons]
      · intro h
        cases results with
        | nil => cases h
        | cons result rest =>
            obtain ⟨hresult, hrest⟩ := List.cons.inj h
            rw [hresult, ih.mpr hrest]
            rfl

/-- The results of a function that may raise. -/
theorem mapM_eq_ok_iff {f : α → Except ε β} {items : List α} {results : List β} :
    items.mapM f = .ok results ↔ items.map f = results.map .ok := by
  induction items generalizing results with
  | nil => cases results <;> simp [pure, Except.pure]
  | cons item items ih =>
      rw [List.mapM_cons, List.map_cons]
      constructor
      · intro h
        obtain ⟨result, hresult, h⟩ := ok_of_bind h
        obtain ⟨rest, hrest, h⟩ := ok_of_bind h
        cases h
        rw [hresult, ih.mp hrest, List.map_cons]
      · intro h
        cases results with
        | nil => cases h
        | cons result rest =>
            obtain ⟨hresult, hrest⟩ := List.cons.inj h
            rw [hresult, ih.mpr hrest]
            rfl

/-- Every result comes from an item. -/
theorem mem_iff_of_mapM {f : α → Option β} {items : List α} {results : List β}
    (h : items.mapM f = some results) {result : β} :
    result ∈ results ↔ ∃ item ∈ items, f item = some result := by
  calc
    result ∈ results ↔ some result ∈ results.map some := by simp
    _ ↔ some result ∈ items.map f := by rw [mapM_eq_some_iff.mp h]
    _ ↔ ∃ item ∈ items, f item = some result := List.mem_map

/-- Every item has a result. -/
theorem exists_of_mapM {f : α → Option β} {items : List α} {results : List β}
    (h : items.mapM f = some results) {item : α} (hitem : item ∈ items) :
    ∃ result ∈ results, f item = some result := by
  have hmem : f item ∈ results.map some := by
    rw [← mapM_eq_some_iff.mp h]
    exact List.mem_map_of_mem hitem
  obtain ⟨result, hresult, heq⟩ := List.mem_map.mp hmem
  exact ⟨result, hresult, heq.symm⟩

/-- Every result comes from an item, where the function may raise. -/
theorem mem_iff_of_mapM_ok {f : α → Except ε β} {items : List α} {results : List β}
    (h : items.mapM f = .ok results) {result : β} :
    result ∈ results ↔ ∃ item ∈ items, f item = .ok result := by
  calc
    result ∈ results ↔ .ok result ∈ results.map (@Except.ok ε _) := by simp
    _ ↔ .ok result ∈ items.map f := by rw [mapM_eq_ok_iff.mp h]
    _ ↔ ∃ item ∈ items, f item = .ok result := List.mem_map

/-- Every item has a result, where the function may raise. -/
theorem exists_of_mapM_ok {f : α → Except ε β} {items : List α} {results : List β}
    (h : items.mapM f = .ok results) {item : α} (hitem : item ∈ items) :
    ∃ result ∈ results, f item = .ok result := by
  have hmem : f item ∈ results.map .ok := by
    rw [← mapM_eq_ok_iff.mp h]
    exact List.mem_map_of_mem hitem
  obtain ⟨result, hresult, heq⟩ := List.mem_map.mp hmem
  exact ⟨result, hresult, heq.symm⟩

/-- There are results when no item raises. -/
theorem exists_mapM_ok {f : α → Except ε β} {items : List α}
    (h : ∀ item ∈ items, ∃ result, f item = .ok result) :
    ∃ results, items.mapM f = .ok results := by
  induction items with
  | nil => exact ⟨[], rfl⟩
  | cons item items ih =>
      obtain ⟨result, hresult⟩ := h item List.mem_cons_self
      obtain ⟨rest, hrest⟩ := ih (List.forall_mem_of_forall_mem_cons h)
      refine ⟨result :: rest, mapM_eq_ok_iff.mpr ?_⟩
      rw [List.map_cons, hresult, mapM_eq_ok_iff.mp hrest, List.map_cons]

/-- What can be seen of the items can be seen of their results. -/
theorem map_eq_of_mapM {f : α → Option β} {γ : Type} {seen : β → γ} {source : α → γ}
    {items : List α} {results : List β} (h : items.mapM f = some results)
    (hseen : ∀ item result, f item = some result → seen result = source item) :
    results.map seen = items.map source := by
  induction items generalizing results with
  | nil =>
      cases h
      rfl
  | cons item items ih =>
      cases results with
      | nil => cases mapM_eq_some_iff.mp h
      | cons result rest =>
          obtain ⟨hresult, hrest⟩ := List.cons.inj (mapM_eq_some_iff.mp h)
          rw [List.map_cons, List.map_cons, hseen item result hresult,
            ih (mapM_eq_some_iff.mpr hrest)]

/-- The only group with a member, in groups that have no member in common. -/
theorem filter_eq_singleton {groups : α → List β} [BEq β] [LawfulBEq β] {items : List α}
    (h : (items.flatMap groups).Nodup) {item : α} (hitem : item ∈ items) {member : β}
    (hmember : member ∈ groups item) :
    items.filter (fun other => decide (member ∈ groups other)) = [item] := by
  obtain ⟨before, after, rfl⟩ := List.append_of_mem hitem
  have hdisjoint := (List.nodup_flatMap.mp h).2
  rw [List.pairwise_append, List.pairwise_cons] at hdisjoint
  obtain ⟨-, ⟨hafter, -⟩, hbefore⟩ := hdisjoint
  have hnone₁ : before.filter (fun other => decide (member ∈ groups other)) = [] := by
    apply List.filter_eq_nil_iff.mpr
    intro other hother hmem
    exact hbefore other hother item List.mem_cons_self (of_decide_eq_true hmem) hmember
  have hnone₂ : after.filter (fun other => decide (member ∈ groups other)) = [] := by
    apply List.filter_eq_nil_iff.mpr
    intro other hother hmem
    exact hafter other hother hmember (of_decide_eq_true hmem)
  have hself : (fun other => decide (member ∈ groups other)) item = true :=
    decide_eq_true hmember
  rw [List.filter_append, hnone₁, List.filter_cons, if_pos hself, hnone₂, List.nil_append]

end MediaBridge.Foundation
