import Mathlib.Tactic.SplitIfs

/-!
# Steps that may fail or be the last ones

A program changes a state in steps. Each step works, fails, or is in progress when the process dies;
the fate of every step is an input of the run. A step that fails or is broken off may have begun.
A handler sees an error but never a death.

## Implementation notes

A step is known by its label, and a run gives each label one fate. `Keeps` is the rule for what a
program leaves as it is, whatever the fates are.
-/

namespace MediaBridge.Foundation

/-- How a step goes. -/
inductive Fate
  | works
  | fails (begun : Bool)
  | dies (begun : Bool)
deriving DecidableEq

def Fate.isFailure : Fate → Bool
  | .fails _ => true
  | _ => false

def Fate.isDeath : Fate → Bool
  | .dies _ => true
  | _ => false

/-- How a program ends. -/
inductive Ending (ε α : Type)
  | returned (a : α)
  | raised (e : ε)
  | died
deriving DecidableEq

/-- The program did not come to its result. -/
def Ending.Unfinished {ε α : Type} (ending : Ending ε α) : Prop := ∀ a, ending ≠ .returned a

def Ending.isRaised {ε α : Type} : Ending ε α → Bool
  | .raised _ => true
  | _ => false

def Ending.isDied {ε α : Type} : Ending ε α → Bool
  | .died => true
  | _ => false

theorem Ending.isRaised_of_unfinished {ε α : Type} {ending : Ending ε α} (h : ending.Unfinished) :
    ending.isRaised = !ending.isDied := by
  cases ending with
  | returned a => exact absurd rfl (h a)
  | raised e => rfl
  | died => rfl

/-- A program ends as the fate that breaks it makes it end. -/
def Ending.EndsBy {ε : Type} (ending : Ending ε Unit) : Option Fate → Prop
  | none => ending = .returned ()
  | some .works => False
  | some (.fails _) => ending.isRaised = true
  | some (.dies _) => ending.isDied = true

/-- A step: its effect, unless it cannot have one, and what a part of it leaves. -/
structure Effect (σ : Type) where
  apply : σ → Option σ
  torn : σ → σ

/-- A step that is done at once or not at all. -/
def Effect.atomic {σ : Type} (apply : σ → σ) : Effect σ := ⟨fun s => some (apply s), id⟩

/-- A program with steps labelled by `ι`. -/
def Faulty (ι σ ε α : Type) : Type := (ι → Fate) → σ → Ending ε α × σ

namespace Faulty

variable {ι σ ε α β : Type}

protected def bind (x : Faulty ι σ ε α) (f : α → Faulty ι σ ε β) : Faulty ι σ ε β :=
  fun fates s =>
    match x fates s with
    | (.returned a, s') => f a fates s'
    | (.raised e, s') => (.raised e, s')
    | (.died, s') => (.died, s')

instance : Monad (Faulty ι σ ε) where
  pure a := fun _ s => (.returned a, s)
  bind := Faulty.bind

def raise (e : ε) : Faulty ι σ ε α := fun _ s => (.raised e, s)

/-- What the state says. -/
def look (f : σ → α) : Faulty ι σ ε α := fun _ s => (.returned (f s), s)

/-- A step. -/
def perform (label : ι) (error : ε) (step : Effect σ) : Faulty ι σ ε Unit := fun fates s =>
  match fates label with
  | .works =>
      match step.apply s with
      | some s' => (.returned (), s')
      | none => (.raised error, s)
  | .fails begun => (.raised error, if begun then step.torn s else s)
  | .dies begun => (.died, if begun then step.torn s else s)

/-- A step that is taken only if a condition holds. -/
def when_ (condition : Bool) (x : Faulty ι σ ε Unit) : Faulty ι σ ε Unit :=
  if condition then x else pure ()

/-- `try` with a handler. -/
def catching (x : Faulty ι σ ε α) (handler : ε → Faulty ι σ ε α) : Faulty ι σ ε α :=
  fun fates s =>
    match x fates s with
    | (.raised e, s') => handler e fates s'
    | (.returned a, s') => (.returned a, s')
    | (.died, s') => (.died, s')

/-- `try` with a last part, whose error takes the place of what was raised or returned. -/
def ensuring (x : Faulty ι σ ε α) (last : Faulty ι σ ε Unit) : Faulty ι σ ε α :=
  fun fates s =>
    match x fates s with
    | (.died, s') => (.died, s')
    | (ending, s') =>
        match last fates s' with
        | (.returned (), s'') => (ending, s'')
        | (.raised e, s'') => (.raised e, s'')
        | (.died, s'') => (.died, s'')

variable {x : Faulty ι σ ε α} {f : α → Faulty ι σ ε β} {fates : ι → Fate} {s s' : σ}

theorem bind_returned {a : α} (h : x fates s = (.returned a, s')) :
    (x >>= f) fates s = f a fates s' := by
  change Faulty.bind x f fates s = _
  rw [Faulty.bind, h]

theorem bind_raised {e : ε} (h : x fates s = (.raised e, s')) :
    (x >>= f) fates s = (.raised e, s') := by
  change Faulty.bind x f fates s = _
  rw [Faulty.bind, h]

theorem bind_died (h : x fates s = (.died, s')) : (x >>= f) fates s = (.died, s') := by
  change Faulty.bind x f fates s = _
  rw [Faulty.bind, h]

@[simp] theorem look_apply (g : σ → α) :
    (look g : Faulty ι σ ε α) fates s = (.returned (g s), s) := rfl

@[simp] theorem raise_apply (e : ε) : (raise e : Faulty ι σ ε α) fates s = (.raised e, s) := rfl

@[simp] theorem pure_apply (a : α) : (pure a : Faulty ι σ ε α) fates s = (.returned a, s) := rfl

@[simp] theorem when_true (y : Faulty ι σ ε Unit) : when_ true y = y := rfl

@[simp] theorem when_false (y : Faulty ι σ ε Unit) : when_ false y = pure () := rfl

section Performed

variable {label : ι} {error : ε} {step : Effect σ} {begun : Bool}

theorem perform_works (hfate : fates label = .works) (h : step.apply s = some s') :
    perform label error step fates s = (.returned (), s') := by
  simp only [perform, hfate, h]

theorem perform_refused (hfate : fates label = .works) (h : step.apply s = none) :
    perform label error step fates s = (.raised error, s) := by
  simp only [perform, hfate, h]

theorem perform_fails (hfate : fates label = .fails begun) :
    perform label error step fates s = (.raised error, if begun then step.torn s else s) := by
  simp only [perform, hfate]

theorem perform_dies (hfate : fates label = .dies begun) :
    perform label error step fates s = (.died, if begun then step.torn s else s) := by
  simp only [perform, hfate]

end Performed

theorem catching_raised {e : ε} {handler : ε → Faulty ι σ ε α}
    (h : x fates s = (.raised e, s')) : catching x handler fates s = handler e fates s' := by
  rw [catching, h]

theorem catching_returned {a : α} {handler : ε → Faulty ι σ ε α}
    (h : x fates s = (.returned a, s')) : catching x handler fates s = (.returned a, s') := by
  rw [catching, h]

theorem catching_died {handler : ε → Faulty ι σ ε α} (h : x fates s = (.died, s')) :
    catching x handler fates s = (.died, s') := by
  rw [catching, h]

theorem unfinished_raised (e : ε) : (.raised e : Ending ε α).Unfinished := nofun

theorem unfinished_died : (.died : Ending ε α).Unfinished := nofun

/-- A program whose first part does not come to its result is broken off. -/
theorem bind_unfinished (h : (x fates s).1.Unfinished) :
    ((x >>= f) fates s).1.Unfinished ∧ ((x >>= f) fates s).2 = (x fates s).2 := by
  cases hx : x fates s with
  | mk ending s' =>
      rw [hx] at h
      cases ending with
      | returned a => exact absurd rfl (h a)
      | raised e =>
          rw [bind_raised hx]
          exact ⟨unfinished_raised e, rfl⟩
      | died =>
          rw [bind_died hx]
          exact ⟨unfinished_died, rfl⟩

/-- A program whose last part never comes to a result. -/
theorem unfinished_bind (h : ∀ a s, (f a fates s).1.Unfinished) (s : σ) :
    ((x >>= f) fates s).1.Unfinished := by
  cases hx : x fates s with
  | mk ending s' =>
      cases ending with
      | returned a =>
          rw [bind_returned hx]
          exact h a s'
      | raised e =>
          rw [bind_raised hx]
          exact unfinished_raised e
      | died =>
          rw [bind_died hx]
          exact unfinished_died

theorem unfinished_catching {handler : ε → Faulty ι σ ε α} (hx : (x fates s).1.Unfinished)
    (hhandler : ∀ e s, (handler e fates s).1.Unfinished) :
    (catching x handler fates s).1.Unfinished := by
  cases hrun : x fates s with
  | mk ending s' =>
      rw [hrun] at hx
      cases ending with
      | returned a => exact absurd rfl (hx a)
      | raised e =>
          rw [catching_raised hrun]
          exact hhandler e s'
      | died =>
          rw [catching_died hrun]
          exact unfinished_died

/-- An error at the end changes nothing. -/
theorem state_bind_raise (e : ε) :
    ((x >>= fun _ => (raise e : Faulty ι σ ε β)) fates s).2 = (x fates s).2 := by
  cases hx : x fates s with
  | mk ending s' =>
      cases ending with
      | returned a => rw [bind_returned hx, raise_apply]
      | raised e' => rw [bind_raised hx]
      | died => rw [bind_died hx]

section Broken

variable {label : ι} {error : ε} {step : Effect σ}

/-- A step that fails or is the last one. -/
theorem perform_unfinished (h : fates label ≠ .works) :
    (perform label error step fates s).1.Unfinished := by
  cases hfate : fates label with
  | works => exact absurd hfate h
  | fails begun =>
      rw [perform_fails hfate]
      exact unfinished_raised error
  | dies begun =>
      rw [perform_dies hfate]
      exact unfinished_died

/-- A step that is done at once or not at all. -/
theorem perform_untouched (h : fates label ≠ .works) (htorn : ∀ s, step.torn s = s) :
    (perform label error step fates s).2 = s := by
  cases hfate : fates label with
  | works => exact absurd hfate h
  | fails begun =>
      rw [perform_fails hfate, htorn, ite_self]
  | dies begun =>
      rw [perform_dies hfate, htorn, ite_self]

end Broken

/-- A step that keeps a part of the state. -/
theorem perform_view {γ : Type} {view : σ → γ} {label : ι} {error : ε} {step : Effect σ}
    (happly : ∀ s', step.apply s = some s' → view s' = view s)
    (htorn : view (step.torn s) = view s) :
    view (perform label error step fates s).2 = view s := by
  unfold perform
  split
  · split
    · next h => exact happly _ h
    · rfl
  · split
    · exact htorn
    · rfl
  · split
    · exact htorn
    · rfl

section Sequences

/-- Steps one after another. -/
def performAll (error : ι → ε) (effect : ι → Effect σ) : List ι → Faulty ι σ ε Unit
  | [] => pure ()
  | label :: rest => do
      perform label (error label) (effect label)
      performAll error effect rest

/-- The fate that ends a sequence in which some steps cannot have their effect. -/
def brokenBy (fates : ι → Fate) (possible : ι → Bool) : List ι → Option Fate
  | [] => none
  | label :: rest =>
      match fates label with
      | .works => if possible label then brokenBy fates possible rest else some (.fails false)
      | fate => some fate

variable {error : ι → ε} {effect : ι → Effect σ} {possible : ι → Bool}

theorem brokenBy_cons (label : ι) (rest : List ι) :
    brokenBy fates possible (label :: rest) =
      match fates label with
      | .works => if possible label then brokenBy fates possible rest else some (.fails false)
      | fate => some fate := rfl

theorem brokenBy_append (labels more : List ι) :
    brokenBy fates possible (labels ++ more) =
      (brokenBy fates possible labels).or (brokenBy fates possible more) := by
  induction labels with
  | nil => rfl
  | cons label labels ih =>
      rw [List.cons_append, brokenBy_cons, brokenBy_cons, ih]
      cases fates label with
      | works => cases possible label <;> rfl
      | fails begun => rfl
      | dies begun => rfl

/-- Where nothing breaks a sequence, all of its steps work. -/
theorem works_of_brokenBy {labels : List ι} (h : brokenBy fates possible labels = none) :
    ∀ label ∈ labels, fates label = .works ∧ possible label = true := by
  induction labels with
  | nil => nofun
  | cons label labels ih =>
      rw [brokenBy_cons] at h
      cases hfate : fates label with
      | works =>
          simp only [hfate] at h
          split_ifs at h with hpossible
          exact List.forall_mem_cons.mpr ⟨⟨hfate, hpossible⟩, ih h⟩
      | fails begun =>
          rw [hfate] at h
          cases h
      | dies begun =>
          rw [hfate] at h
          cases h

/-- A program whose parts end by fates ends by the first of them. -/
theorem endsBy_bind {x : Faulty ι σ ε Unit} {f : Unit → Faulty ι σ ε Unit} {b c : Option Fate}
    (hx : (x fates s).1.EndsBy b)
    (hf : b = none → (f () fates (x fates s).2).1.EndsBy c) :
    ((x >>= f) fates s).1.EndsBy (b.or c) := by
  cases hrun : x fates s with
  | mk ending s' =>
      rw [hrun] at hx hf
      cases ending with
      | returned u =>
          rw [bind_returned hrun]
          match b, hx with
          | none, _ => exact hf rfl
          | some (.fails _), hx => cases hx
          | some (.dies _), hx => cases hx
      | raised e =>
          rw [bind_raised hrun]
          match b, hx with
          | none, hx => cases hx
          | some (.fails _), _ => rfl
          | some (.dies _), hx => cases hx
      | died =>
          rw [bind_died hrun]
          match b, hx with
          | none, hx => cases hx
          | some (.fails _), hx => cases hx
          | some (.dies _), _ => rfl

theorem endsBy_perform {label : ι} {error : ε} {step : Effect σ}
    (h : (step.apply s).isSome = possible label) :
    (perform label error step fates s).1.EndsBy (brokenBy fates possible [label]) := by
  rw [brokenBy_cons]
  cases hfate : fates label with
  | works =>
      cases hstep : step.apply s with
      | none =>
          rw [hstep, Option.isSome_none] at h
          rw [perform_refused hfate hstep, ← h]
          rfl
      | some s' =>
          rw [hstep, Option.isSome_some] at h
          rw [perform_works hfate hstep, ← h]
          rfl
  | fails begun =>
      rw [perform_fails hfate]
      rfl
  | dies begun =>
      rw [perform_dies hfate]
      rfl

/-- A sequence ends by the fate that breaks it. -/
theorem endsBy_performAll {labels : List ι}
    (hpossible : ∀ label ∈ labels, ∀ s, ((effect label).apply s).isSome = possible label) (s : σ) :
    (performAll error effect labels fates s).1.EndsBy (brokenBy fates possible labels) := by
  induction labels generalizing s with
  | nil => rfl
  | cons label labels ih =>
      have hfirst : brokenBy fates possible (label :: labels) = _ :=
        brokenBy_append [label] labels
      rw [performAll, hfirst]
      obtain ⟨hlabel, hlabels⟩ := List.forall_mem_cons.mp hpossible
      exact endsBy_bind (endsBy_perform (hlabel s)) fun _ => ih hlabels _

end Sequences

section Ensuring

variable {label : ι} {error : ε} {change : σ → σ}

/-- A last step that keeps a part of the state keeps it in the whole program. -/
theorem ensuring_view {γ : Type} {view : σ → γ} (h : ∀ s, view (change s) = view s) :
    view (ensuring x (perform label error (.atomic change)) fates s).2 = view (x fates s).2 := by
  rw [ensuring]
  cases x fates s with
  | mk ending s' =>
      cases ending <;> cases hfate : fates label <;>
        simp [perform, hfate, Effect.atomic, h]

theorem ensuring_unfinished (h : (x fates s).1.Unfinished) :
    (ensuring x (perform label error (.atomic change)) fates s).1.Unfinished := by
  rw [ensuring]
  cases hx : x fates s with
  | mk ending s' =>
      rw [hx] at h
      cases ending with
      | returned a => exact absurd rfl (h a)
      | raised e => cases hfate : fates label <;>
          simp [perform, hfate, Effect.atomic, Ending.Unfinished]
      | died => exact unfinished_died

theorem isRaised_ensuring :
    (ensuring x (perform label error (.atomic change)) fates s).1.isRaised = true ↔
      (x fates s).1.isDied = false ∧ (fates label).isDeath = false ∧
        ((x fates s).1.isRaised = true ∨ (fates label).isFailure = true) := by
  rw [ensuring]
  cases x fates s with
  | mk ending s' =>
      cases ending <;> cases hfate : fates label <;>
        simp [perform, hfate, Effect.atomic, Ending.isRaised, Ending.isDied, Fate.isDeath,
          Fate.isFailure]

end Ensuring

section Returns

variable {a a' : α} {b : β} {label : ι} {error : ε} {step : Effect σ}

theorem bind_returned_iff :
    (x >>= f) fates s = (.returned b, s') ↔
      ∃ a middle, x fates s = (.returned a, middle) ∧ f a fates middle = (.returned b, s') := by
  constructor
  · intro h
    cases hx : x fates s with
    | mk ending middle =>
        cases ending with
        | returned a => exact ⟨a, middle, rfl, (bind_returned hx).symm.trans h⟩
        | raised e =>
            rw [bind_raised hx] at h
            cases h
        | died =>
            rw [bind_died hx] at h
            cases h
  · rintro ⟨a, middle, hx, hf⟩
    rw [bind_returned hx, hf]

theorem look_returned_iff {g : σ → α} :
    (look g : Faulty ι σ ε α) fates s = (.returned a, s') ↔ g s = a ∧ s = s' := by
  change (Ending.returned (g s), s) = _ ↔ _
  rw [Prod.mk.injEq, Ending.returned.injEq]

/-- A step is taken if it works and can have its effect. -/
theorem perform_returned_iff {u : Unit} :
    perform label error step fates s = (.returned u, s') ↔
      fates label = .works ∧ step.apply s = some s' := by
  unfold perform
  cases fates label with
  | works => cases step.apply s <;> simp
  | fails begun => simp
  | dies begun => simp

end Returns

section Keeps

variable {γ : Type} {view : σ → γ}

/-- A program leaves a part of the state as it is, whatever happens. -/
def Keeps (view : σ → γ) (x : Faulty ι σ ε α) : Prop := ∀ fates s, view (x fates s).2 = view s

theorem keeps_pure (a : α) : Keeps view (pure a : Faulty ι σ ε α) := fun _ _ => rfl

theorem keeps_raise (e : ε) : Keeps view (raise e : Faulty ι σ ε α) := fun _ _ => rfl

theorem keeps_look (g : σ → α) : Keeps view (look g : Faulty ι σ ε α) := fun _ _ => rfl

theorem Keeps.bind (hx : Keeps view x) (hf : ∀ a, Keeps view (f a)) : Keeps view (x >>= f) := by
  intro fates s
  have hstep := hx fates s
  cases h : x fates s with
  | mk ending s' =>
      rw [h] at hstep
      cases ending with
      | returned a =>
          rw [bind_returned h]
          exact (hf a fates s').trans hstep
      | raised e =>
          rw [bind_raised h]
          exact hstep
      | died =>
          rw [bind_died h]
          exact hstep

theorem keeps_perform {label : ι} {error : ε} {step : Effect σ}
    (happly : ∀ s s', step.apply s = some s' → view s' = view s)
    (htorn : ∀ s, view (step.torn s) = view s) : Keeps view (perform label error step) :=
  fun _ s => perform_view (happly s) (htorn s)

theorem keeps_performAll {error : ι → ε} {effect : ι → Effect σ} {labels : List ι}
    (happly : ∀ label ∈ labels, ∀ s s', (effect label).apply s = some s' → view s' = view s)
    (htorn : ∀ label ∈ labels, ∀ s, view ((effect label).torn s) = view s) :
    Keeps view (performAll error effect labels) := by
  induction labels with
  | nil => exact keeps_pure ()
  | cons label labels ih =>
      obtain ⟨hlabel, hlabels⟩ := List.forall_mem_cons.mp happly
      obtain ⟨htear, htears⟩ := List.forall_mem_cons.mp htorn
      exact (keeps_perform hlabel htear).bind fun _ => ih hlabels htears

end Keeps

end Faulty

end MediaBridge.Foundation
