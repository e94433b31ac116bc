import MediaBridge.Foundation.Text
import Mathlib.Algebra.BigOperators.Group.List.Basic
import Mathlib.Algebra.GroupWithZero.Nat

/-!
# Texts that occur in order

`InOrder texts s` says that the texts stand in `s` one after the other, without
overlap. Blanks between and around them do not matter to their weight, the number
of visible characters.
-/

namespace MediaBridge.Foundation

namespace Str

/-- The texts occur in the string, each after the one before it. -/
def InOrder : List Str → Str → Prop
  | [], _ => True
  | t :: rest, s => ∃ before after, s = before ++ t ++ after ∧ InOrder rest after

/-- How many characters of the texts are not white space. -/
def weight (texts : List Str) : Nat := (texts.map fun t => (solid t).length).sum

@[simp] theorem weight_nil : weight [] = 0 := rfl

@[simp] theorem weight_cons (t : Str) (rest : List Str) :
    weight (t :: rest) = (solid t).length + weight rest := by
  simp [weight]

@[simp] theorem weight_append (l l' : List Str) : weight (l ++ l') = weight l + weight l' := by
  simp [weight]

theorem weight_flatMap {α : Type*} (f : α → List Str) (l : List α) :
    weight (l.flatMap f) = (l.map fun a => weight (f a)).sum := by
  induction l with
  | nil => rfl
  | cons a rest ih => simp [ih]

theorem weight_flatMap_eq_zero {α : Type*} {f : α → List Str} {l : List α}
    (h : ∀ a ∈ l, weight (f a) = 0) : weight (l.flatMap f) = 0 := by
  induction l with
  | nil => rfl
  | cons a rest ih =>
      obtain ⟨ha, hrest⟩ := List.forall_mem_cons.mp h
      rw [List.flatMap_cons, weight_append, ha, ih hrest]

theorem solid_length_eq_zero_iff (s : Str) : (solid s).length = 0 ↔ s.strip = [] := by
  rw [strip_eq_nil_iff, List.length_eq_zero_iff]

theorem weight_eq_zero_iff {texts : List Str} :
    weight texts = 0 ↔ ∀ t ∈ texts, t.strip = [] := by
  induction texts with
  | nil => simp
  | cons t rest ih =>
      rw [weight_cons, Nat.add_eq_zero_iff, ih, solid_length_eq_zero_iff, List.forall_mem_cons]

theorem weight_strip (texts : List Str) : weight (texts.map strip) = weight texts := by
  simp only [weight, List.map_map, Function.comp_def, solid_strip]

/-- The texts that are not blank carry all the weight. -/
theorem weight_map_strip (texts : List Str) :
    weight ((texts.map strip).filter fun t => !t.isEmpty) = weight texts := by
  induction texts with
  | nil => rfl
  | cons t rest ih =>
      rw [List.map_cons, List.filter_cons, weight_cons]
      split
      · rw [weight_cons, ih, solid_strip]
      · rename_i hblank
        have ht : t.strip = [] := by simpa using hblank
        rw [ih, (solid_length_eq_zero_iff t).mpr ht, Nat.zero_add]

/-- Joining with a blank separator adds no weight. -/
theorem solid_join_length {sep : Str} (hsep : solid sep = []) (texts : List Str) :
    (solid (join sep texts)).length = weight texts := by
  induction texts with
  | nil => rfl
  | cons t rest ih =>
      cases rest with
      | nil => simp
      | cons u rest =>
          rw [join_cons_cons, solid_append, solid_append, hsep, List.append_nil,
            List.length_append, ih]
          exact (weight_cons ..).symm

namespace InOrder

variable {texts : List Str} {s : Str}

theorem append_left (h : InOrder texts s) (p : Str) : InOrder texts (p ++ s) := by
  cases texts with
  | nil => trivial
  | cons t rest =>
      obtain ⟨before, after, rfl, hrest⟩ := h
      exact ⟨p ++ before, after, by simp, hrest⟩

/-- Joined texts occur in order. -/
theorem join (sep : Str) (texts : List Str) : InOrder texts (Str.join sep texts) := by
  induction texts with
  | nil => trivial
  | cons t rest ih =>
      cases rest with
      | nil => exact ⟨[], [], by simp, trivial⟩
      | cons u rest =>
          refine ⟨[], sep ++ Str.join sep (u :: rest), ?_, ih.append_left sep⟩
          rw [join_cons_cons]
          simp

theorem sublist {texts' : List Str} (h : InOrder texts s) (hsub : texts'.Sublist texts) :
    InOrder texts' s := by
  induction hsub generalizing s with
  | slnil => trivial
  | cons t _ ih =>
      obtain ⟨before, after, rfl, hrest⟩ := h
      exact (ih hrest).append_left _
  | cons_cons t _ ih =>
      obtain ⟨before, after, rfl, hrest⟩ := h
      exact ⟨before, after, rfl, ih hrest⟩

/-- Empty texts occur everywhere. -/
theorem of_filter (h : InOrder (texts.filter fun t => !t.isEmpty) s) : InOrder texts s := by
  induction texts generalizing s with
  | nil => trivial
  | cons t rest ih =>
      rw [List.filter_cons] at h
      split at h
      · obtain ⟨before, after, rfl, hrest⟩ := h
        exact ⟨before, after, rfl, ih hrest⟩
      · rename_i hempty
        obtain rfl : t = [] := by simpa using hempty
        exact ⟨[], s, rfl, ih h⟩

/-- Texts in order weigh no more than the string they occur in. -/
theorem weight_le (h : InOrder texts s) : weight texts ≤ (solid s).length := by
  induction texts generalizing s with
  | nil => exact Nat.zero_le _
  | cons t rest ih =>
      obtain ⟨before, after, rfl, hrest⟩ := h
      calc
        weight (t :: rest) = (solid t).length + weight rest := weight_cons ..
        _ ≤ (solid t).length + (solid after).length := Nat.add_le_add_left (ih hrest) _
        _ ≤ (solid (before ++ t ++ after)).length := by
          simp only [solid_append, List.length_append]
          omega

end InOrder

end Str

end MediaBridge.Foundation
