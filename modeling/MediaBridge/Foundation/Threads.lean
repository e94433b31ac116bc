import Mathlib.Data.List.Basic

/-!
# Lists of threads

A thread keeps its place in the list; a step of a thread replaces it, and a thread that begins
is appended. `Alone` says that threads that stand in some relation are one and the same.
-/

namespace MediaBridge.Foundation.Threads

variable {α : Type*} {l : List α} {i j : Nat} {a b x : α}

/-- What stands in a place after a step: what stood there, or the thread that went on. -/
theorem getElem?_set (h : (l.set i x)[j]? = some b) :
    (j ≠ i ∧ l[j]? = some b) ∨ (j = i ∧ b = x) := by
  by_cases hij : i = j
  · subst hij
    obtain ⟨hlt, -⟩ := List.getElem?_eq_some_iff.mp h
    rw [List.length_set] at hlt
    rw [List.getElem?_set_self hlt] at h
    exact .inr ⟨rfl, (Option.some.inj h).symm⟩
  · rw [List.getElem?_set_ne hij] at h
    exact .inl ⟨Ne.symm hij, h⟩

/-- The thread that went on stands in its place. -/
theorem getElem?_set_self (h : l[i]? = some a) : (l.set i x)[i]? = some x := by
  obtain ⟨hlt, -⟩ := List.getElem?_eq_some_iff.mp h
  exact List.getElem?_set_self hlt

/-- The other threads are still there. -/
theorem mem_set_of_ne (h : l[i]? = some a) (hb : b ∈ l) (hne : b ≠ a) : b ∈ l.set i x := by
  obtain ⟨j, hj⟩ := List.mem_iff_getElem?.mp hb
  have hij : i ≠ j := by
    rintro rfl
    exact hne (Option.some.inj (hj.symm.trans h))
  rw [List.mem_iff_getElem?]
  exact ⟨j, (List.getElem?_set_ne hij).trans hj⟩

theorem mem_set_self (h : l[i]? = some a) : x ∈ l.set i x :=
  List.mem_of_getElem? (getElem?_set_self h)

/-- What stands in a place after a thread has begun. -/
theorem getElem?_append_singleton (h : (l ++ [x])[i]? = some b) : l[i]? = some b ∨ b = x := by
  rcases List.mem_append.mp (List.mem_of_getElem? h) with hmem | hmem
  · rw [List.getElem?_append] at h
    split at h
    · exact .inl h
    · exact .inr (List.mem_singleton.mp (List.mem_of_getElem? h))
  · exact .inr (List.mem_singleton.mp hmem)

/-- A step changes a count by what it does to its thread. -/
theorem countP_set (p : α → Bool) (h : l[i]? = some a) :
    (l.set i x).countP p + (if p a then 1 else 0) = l.countP p + if p x then 1 else 0 := by
  obtain ⟨hlt, ha⟩ := List.getElem?_eq_some_iff.mp h
  have hpos : (if p a then 1 else 0) ≤ l.countP p := by
    split
    · next hpa => exact List.countP_pos_iff.mpr ⟨a, List.mem_of_getElem? h, hpa⟩
    · exact Nat.zero_le _
  rw [List.countP_set hlt, ha]
  omega

/-- Threads that stand in the relation are one and the same. -/
def Alone (R : α → α → Prop) (l : List α) : Prop :=
  ∀ (i j : Nat) (a b : α), l[i]? = some a → l[j]? = some b → R a b → i = j

variable {R : α → α → Prop}

theorem alone_nil : Alone R [] := by
  intro i j a b hi
  rw [List.getElem?_nil] at hi
  cases hi

/-- A thread may begin that stands in the relation to none. -/
theorem Alone.append (h : Alone R l) (hx : ¬ R x x) (hnot : ∀ b ∈ l, ¬ R x b ∧ ¬ R b x) :
    Alone R (l ++ [x]) := by
  intro i j a b hi hj hab
  rcases getElem?_append_singleton hi with hold | ha
  · rcases getElem?_append_singleton hj with hold' | hb
    · exact h i j a b hold hold' hab
    · rw [hb] at hab
      exact absurd hab (hnot a (List.mem_of_getElem? hold)).2
  · rw [ha] at hab
    rcases getElem?_append_singleton hj with hold' | hb
    · exact absurd hab (hnot b (List.mem_of_getElem? hold')).1
    · rw [hb] at hab
      exact absurd hab hx

/-- A thread may go on if it then stands in the relation to no other one. -/
theorem Alone.set (h : Alone R l)
    (hnot : ∀ j b, l[j]? = some b → j ≠ i → ¬ R x b ∧ ¬ R b x) : Alone R (l.set i x) := by
  intro j k a b hj hk hab
  rcases getElem?_set hj with ⟨hji, hold⟩ | ⟨rfl, rfl⟩
  · rcases getElem?_set hk with ⟨hki, hold'⟩ | ⟨rfl, rfl⟩
    · exact h j k a b hold hold' hab
    · exact absurd hab (hnot j a hold hji).2
  · rcases getElem?_set hk with ⟨hki, hold'⟩ | ⟨rfl, -⟩
    · exact absurd hab (hnot k b hold' hki).1
    · rfl

end MediaBridge.Foundation.Threads
