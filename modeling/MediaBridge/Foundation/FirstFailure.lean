import MediaBridge.Foundation.Collect
import Mathlib.Data.List.Forall2

/-!
# The first failure of a loop

A fallible function on every item of a list succeeds when it does on each of them, and else raises
what the first failing item raises.
-/

namespace MediaBridge.Foundation

variable {ε α β : Type} {f : α → Except ε β} {items : List α}

/-- The first item that is not fine is bad. -/
def FirstIs (fine bad : α → Prop) (items : List α) : Prop :=
  ∃ before item after, items = before ++ item :: after ∧ (∀ a ∈ before, fine a) ∧ bad item

/-- A loop over the items succeeds exactly when every item does, in order. -/
theorem mapM_ok_iff_forall₂ {results : List β} :
    items.mapM f = .ok results ↔ List.Forall₂ (fun a b => f a = .ok b) items results := by
  rw [mapM_eq_ok_iff, ← List.forall₂_eq_eq_eq, List.forall₂_map_left_iff,
    List.forall₂_map_right_iff]

/-- A loop raises what its first failing item raises. -/
theorem mapM_error_iff {e : ε} : items.mapM f = .error e ↔
    FirstIs (fun a => ∃ b, f a = .ok b) (fun a => f a = .error e) items := by
  induction items with
  | nil =>
      constructor
      · intro h
        cases h
      · rintro ⟨before, item, after, h, -⟩
        cases before <;> cases h
  | cons a items ih =>
      rw [List.mapM_cons, bind_error_iff]
      constructor
      · rintro (h | ⟨b, hb, h⟩)
        · exact ⟨[], a, items, rfl, nofun, h⟩
        · rcases bind_error_iff.mp h with h | ⟨results, -, h⟩
          · obtain ⟨before, item, after, rfl, hfine, hbad⟩ := ih.mp h
            exact ⟨a :: before, item, after, rfl, List.forall_mem_cons.mpr ⟨⟨b, hb⟩, hfine⟩, hbad⟩
          · cases h
      · rintro ⟨before, item, after, h, hfine, hbad⟩
        cases before with
        | nil =>
            cases h
            exact .inl hbad
        | cons b before =>
            cases h
            obtain ⟨⟨b, hb⟩, hfine⟩ := List.forall_mem_cons.mp hfine
            refine .inr ⟨b, hb, bind_error_iff.mpr (.inl ?_)⟩
            exact ih.mpr ⟨before, item, after, rfl, hfine, hbad⟩

theorem map_error_iff {x : Except ε α} {g : α → β} {e : ε} :
    g <$> x = .error e ↔ x = .error e := by
  cases x with
  | error e' => exact ⟨fun h => by cases h; rfl, fun h => by cases h; rfl⟩
  | ok a => exact ⟨nofun, nofun⟩

theorem FirstIs.congr {fine fine' bad bad' : α → Prop} (hfine : ∀ a, fine a ↔ fine' a)
    (hbad : ∀ a, bad a ↔ bad' a) : FirstIs fine bad items ↔ FirstIs fine' bad' items := by
  simp only [FirstIs, hfine, hbad]

end MediaBridge.Foundation
