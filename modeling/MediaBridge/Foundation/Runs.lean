import Mathlib.Init

/-!
# Runs of a state machine

A machine has initial states and steps labelled by events. `Reachable` collects
the states of all runs whose steps meet a condition on the state before the step
and the event; the condition that is always true gives the runs of the machine.
-/

namespace MediaBridge.Foundation

/-- A labelled transition system. -/
structure Machine (σ ε : Type*) where
  initial : σ → Prop
  step : σ → ε → σ → Prop

namespace Machine

variable {σ ε : Type*} (M : Machine σ ε)

/-- The states reached by steps that all meet `allowed`. -/
inductive Reachable (allowed : σ → ε → Prop) : σ → Prop
  | start {s : σ} : M.initial s → Reachable allowed s
  | next {s s' : σ} {e : ε} : Reachable allowed s → allowed s e → M.step s e s' →
      Reachable allowed s'

/-- No condition on the steps. -/
def anyStep (_ : σ) (_ : ε) : Prop := True

instance (s : σ) (e : ε) : Decidable (anyStep s e) := isTrue trivial

/-- The invariant rule: what holds initially and is kept by every allowed step
holds in every state reached by allowed steps. -/
theorem Reachable.invariant {M : Machine σ ε} {allowed : σ → ε → Prop} {I : σ → Prop}
    (hinit : ∀ s, M.initial s → I s)
    (hstep : ∀ s e s', I s → allowed s e → M.step s e s' → I s') {s : σ}
    (h : M.Reachable allowed s) : I s := by
  induction h with
  | start hs => exact hinit _ hs
  | next _ hallowed hs ih => exact hstep _ _ _ ih hallowed hs

/-- Fewer allowed steps reach fewer states. -/
theorem Reachable.mono {M : Machine σ ε} {allowed allowed' : σ → ε → Prop}
    (h : ∀ s e, allowed s e → allowed' s e) {s : σ} (hs : M.Reachable allowed s) :
    M.Reachable allowed' s := by
  induction hs with
  | start hs => exact .start hs
  | next _ hallowed hs ih => exact .next ih (h _ _ hallowed) hs

/-- A list of events that are steps of a function is a run. -/
theorem Reachable.foldl {M : Machine σ ε} {f : σ → ε → σ} {events : List ε}
    (hstep : ∀ s, ∀ e ∈ events, M.step s e (f s e)) {s : σ} (hs : M.Reachable anyStep s) :
    M.Reachable anyStep (events.foldl f s) := by
  induction events generalizing s with
  | nil => exact hs
  | cons e rest ih =>
      rw [List.foldl_cons]
      apply ih
      · exact fun s e he => hstep s e (List.mem_cons_of_mem _ he)
      · exact hs.next trivial (hstep s e List.mem_cons_self)

/-- A list of events that a partial function follows by allowed steps is a run. -/
theorem Reachable.foldlM {M : Machine σ ε} {allowed : σ → ε → Prop} {f : σ → ε → Option σ}
    (hstep : ∀ s e s', f s e = some s' → allowed s e ∧ M.step s e s') {s s' : σ}
    (hs : M.Reachable allowed s) {events : List ε} (h : events.foldlM f s = some s') :
    M.Reachable allowed s' := by
  induction events generalizing s with
  | nil =>
      cases h
      exact hs
  | cons e rest ih =>
      rw [List.foldlM_cons] at h
      obtain ⟨next, hnext, hrest⟩ := Option.bind_eq_some_iff.mp h
      obtain ⟨hallowed, hmove⟩ := hstep s e next hnext
      exact ih (hs.next hallowed hmove) hrest

/-- A machine beside which an observer keeps what it has seen of the events. -/
def observed {γ : Type*} (M : Machine σ ε) (start : γ) (see : γ → ε → γ) :
    Machine (σ × γ) ε where
  initial p := M.initial p.1 ∧ p.2 = start
  step p e p' := M.step p.1 e p'.1 ∧ p'.2 = see p.2 e

end Machine

/-- A property of every event of a run and the events before it. -/
def EachStep {ε : Type*} (Q : List ε → ε → Prop) (events : List ε) : Prop :=
  ∀ before e after, events = before ++ e :: after → Q before e

theorem eachStep_nil {ε : Type*} (Q : List ε → ε → Prop) : EachStep Q [] :=
  fun _ _ _ h => absurd h.symm (List.append_ne_nil_of_right_ne_nil _ (List.cons_ne_nil _ _))

/-- A run with one more event: the property holds before it, and of it. -/
theorem eachStep_append_singleton {ε : Type*} {Q : List ε → ε → Prop} {events : List ε}
    {last : ε} : EachStep Q (events ++ [last]) ↔ EachStep Q events ∧ Q events last := by
  constructor
  · intro h
    refine ⟨?_, h events last [] rfl⟩
    rintro before e after rfl
    exact h before e (after ++ [last]) (by simp)
  · rintro ⟨h, hlast⟩ before e after heq
    rcases List.eq_nil_or_concat after with rfl | ⟨init, e', rfl⟩
    · obtain ⟨rfl, hsingle⟩ := List.append_inj' heq rfl
      cases hsingle
      exact hlast
    · rw [List.concat_eq_append, ← List.cons_append, ← List.append_assoc] at heq
      obtain ⟨rfl, -⟩ := List.append_inj' heq rfl
      exact h before e init rfl

end MediaBridge.Foundation
