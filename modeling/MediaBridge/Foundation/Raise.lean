import Mathlib.Init

/-!
# Computations that may raise

A Python function that may raise is an `Except` computation. The lemmas here
take a successful computation apart.
-/

namespace MediaBridge.Foundation

variable {ε α β : Type*}

/-- A sequence succeeds exactly when both of its steps do. -/
theorem bind_eq_ok_iff {x : Except ε α} {f : α → Except ε β} {b : β} :
    x.bind f = .ok b ↔ ∃ a, x = .ok a ∧ f a = .ok b := by
  cases x with
  | error e => simp [Except.bind]
  | ok a => simp [Except.bind]

theorem map_eq_ok_iff {x : Except ε α} {f : α → β} {b : β} :
    x.map f = .ok b ↔ ∃ a, x = .ok a ∧ f a = b := by
  cases x with
  | error e => simp [Except.map]
  | ok a => simp [Except.map]

/-- A computation that succeeds has a value. -/
theorem exists_of_isOk {x : Except ε α} (h : x.isOk = true) : ∃ a, x = .ok a := by
  cases x with
  | error e => cases h
  | ok a => exact ⟨a, rfl⟩

/-- What a sequence in `do` notation gives when it succeeds. -/
theorem ok_of_bind {ε α β : Type} {x : Except ε α} {f : α → Except ε β} {b : β}
    (h : x >>= f = .ok b) : ∃ a, x = .ok a ∧ f a = .ok b :=
  bind_eq_ok_iff.mp h

theorem bind_ok_iff {ε α β : Type} {x : Except ε α} {f : α → Except ε β} {b : β} :
    x >>= f = .ok b ↔ ∃ a, x = .ok a ∧ f a = .ok b :=
  bind_eq_ok_iff

/-- What a sequence in `do` notation raises, one of its steps raises. -/
theorem bind_error_iff {ε α β : Type} {x : Except ε α} {f : α → Except ε β} {e : ε} :
    x >>= f = .error e ↔ x = .error e ∨ ∃ a, x = .ok a ∧ f a = .error e := by
  cases x with
  | error e' => simp [bind, Except.bind]
  | ok a => simp [bind, Except.bind]

/-- Another error changes no result. -/
theorem mapError_eq_ok_iff {δ : Type} {x : Except ε α} {f : ε → δ} {a : α} :
    x.mapError f = .ok a ↔ x = .ok a := by
  cases x with
  | error e => exact ⟨nofun, nofun⟩
  | ok b =>
      constructor
      · intro h
        cases h
        rfl
      · intro h
        cases h
        rfl

theorem eq_ok_of_toOption {x : Except ε α} {a : α} (h : x.toOption = some a) : x = .ok a := by
  cases x with
  | error e => cases h
  | ok b =>
      cases h
      rfl

/-- Whatever a computation raises meets a condition. -/
def RaisesOnly (P : ε → Prop) (x : Except ε α) : Prop :=
  ∀ e, x = .error e → P e

namespace RaisesOnly

variable {P Q : ε → Prop}

theorem ok (a : α) : RaisesOnly P (Except.ok a) := nofun

theorem error {e : ε} (h : P e) : RaisesOnly P (Except.error e : Except ε α) := by
  rintro _ ⟨⟩
  exact h

theorem error_iff {e : ε} : RaisesOnly P (Except.error e : Except ε α) ↔ P e :=
  ⟨fun h => h e rfl, .error⟩

theorem mono {x : Except ε α} (h : RaisesOnly P x) (hPQ : ∀ e, P e → Q e) : RaisesOnly Q x :=
  fun e he => hPQ e (h e he)

/-- A sequence raises what one of its steps raises. -/
theorem bind {ε α β : Type} {P : ε → Prop} {x : Except ε α} {f : α → Except ε β}
    (hx : RaisesOnly P x) (hf : ∀ a, RaisesOnly P (f a)) : RaisesOnly P (x >>= f) := by
  intro e he
  cases x with
  | error e' =>
      cases he
      exact hx e rfl
  | ok a => exact hf a e he

end RaisesOnly

end MediaBridge.Foundation
