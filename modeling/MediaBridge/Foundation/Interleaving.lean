import MediaBridge.Foundation.Runs
import MediaBridge.Foundation.Threads

/-!
# Interleaved transactions

Transactions on one database that take their steps in any order. A step reads what is committed
when it is taken, and may commit; a step that needs a lock of another transaction waits for it.

## Implementation notes

A transaction is what it has read and has still to do. A lock is held from the step that takes it
until the transaction has ended. `next` is a function, so that a schedule can be evaluated.
-/

namespace MediaBridge.Foundation

/-- Transactions `τ` on a database `σ`. -/
structure TransactionSystem (σ τ : Type*) where
  /-- A transaction can begin so. -/
  begins : τ → Bool
  /-- What one step makes of the database and of the transaction; an ended one takes no step. -/
  next : σ → τ → Option (σ × τ)
  /-- The next step of a transaction has to wait for another one. -/
  waits : τ → τ → Bool
  /-- A transaction can be rolled back. -/
  aborts : τ → Bool := fun _ => true
  ended : τ

/-- What is committed, and the transactions that have begun. -/
structure Sessions (σ τ : Type*) where
  committed : σ
  running : List τ := []
deriving DecidableEq

inductive SessionEvent (τ : Type*)
  | start (t : τ)
  | step (i : Nat)
  | rollback (i : Nat)

namespace TransactionSystem

variable {σ τ : Type*} (T : TransactionSystem σ τ)

/-- The next step of a transaction waits for none of the others. -/
def free (running : List τ) (i : Nat) (t : τ) : Bool :=
  (running.eraseIdx i).all fun u => !T.waits t u

/-- The state after an event, if the event can happen. -/
def apply (s : Sessions σ τ) : SessionEvent τ → Option (Sessions σ τ)
  | .start t => if T.begins t then some { s with running := s.running ++ [t] } else none
  | .step i => s.running[i]?.bind fun t =>
      if T.free s.running i t then
        (T.next s.committed t).map fun after => ⟨after.1, s.running.set i after.2⟩
      else none
  | .rollback i => s.running[i]?.bind fun t =>
      if T.aborts t then some { s with running := s.running.set i T.ended } else none

/-- The runs from a set of databases, with no transaction running. -/
def machine (initial : σ → Prop) : Machine (Sessions σ τ) (SessionEvent τ) where
  initial s := initial s.committed ∧ s.running = []
  step s e s' := T.apply s e = some s'

variable {T} {s s' : Sessions σ τ} {e : SessionEvent τ}

/-- What an event is. -/
inductive Happens (T : TransactionSystem σ τ) (s : Sessions σ τ) :
    SessionEvent τ → Sessions σ τ → Prop
  | start {t : τ} : T.begins t = true →
      Happens T s (.start t) { s with running := s.running ++ [t] }
  | step {i : Nat} {t t' : τ} {committed : σ} : s.running[i]? = some t →
      (∀ j u, s.running[j]? = some u → j ≠ i → T.waits t u = false) →
      T.next s.committed t = some (committed, t') →
      Happens T s (.step i) ⟨committed, s.running.set i t'⟩
  | rollback {i : Nat} {t : τ} : s.running[i]? = some t → T.aborts t = true →
      Happens T s (.rollback i) { s with running := s.running.set i T.ended }

theorem happens_of_apply (h : T.apply s e = some s') : Happens T s e s' := by
  cases e with
  | start t =>
      simp only [apply, Option.ite_none_right_eq_some, Option.some.injEq] at h
      obtain ⟨hbegins, rfl⟩ := h
      exact .start hbegins
  | step i =>
      simp only [apply, Option.bind_eq_some_iff, Option.ite_none_right_eq_some,
        Option.map_eq_some_iff] at h
      obtain ⟨t, ht, hfree, ⟨committed, t'⟩, hnext, rfl⟩ := h
      refine .step ht ?_ hnext
      intro j u hu hji
      have hmem : u ∈ s.running.eraseIdx i := List.mem_eraseIdx_iff_getElem?.mpr ⟨j, hji, hu⟩
      have hwait := List.all_eq_true.mp hfree u hmem
      simpa using hwait
  | rollback i =>
      simp only [apply, Option.bind_eq_some_iff, Option.ite_none_right_eq_some,
        Option.some.injEq] at h
      obtain ⟨t, ht, haborts, rfl⟩ := h
      exact .rollback ht haborts

/-- A schedule whose events can happen, and are allowed, is a run. -/
theorem reachable_of_schedule {initial : σ → Prop}
    {allowed : Sessions σ τ → SessionEvent τ → Prop} [∀ s e, Decidable (allowed s e)]
    {committed : σ} (h : initial committed) (events : List (SessionEvent τ))
    (hs : events.foldlM (fun s e => if allowed s e then T.apply s e else none)
      { committed := committed } = some s) : (T.machine initial).Reachable allowed s := by
  refine Machine.Reachable.foldlM ?_ (.start ⟨h, rfl⟩) hs
  intro s e s' hstep
  exact Option.ite_none_right_eq_some.mp hstep

/-- The rule of assertions: a property of the database and one of each transaction, both kept by
every step, its own and those of the others. -/
theorem Happens.keeps {J : σ → Prop} {Q : σ → τ → Prop} (h : Happens T s e s')
    (hJ : J s.committed) (hQ : ∀ t ∈ s.running, Q s.committed t)
    (hbegins : ∀ t, T.begins t = true → Q s.committed t) (hended : Q s.committed T.ended)
    (hstep : ∀ i t committed t', e = .step i → s.running[i]? = some t → Q s.committed t →
      T.next s.committed t = some (committed, t') →
      J committed ∧ Q committed t' ∧ ∀ u, Q s.committed u → Q committed u) :
    J s'.committed ∧ ∀ t ∈ s'.running, Q s'.committed t := by
  cases h with
  | @start t ht =>
      refine ⟨hJ, ?_⟩
      intro u hu
      rcases List.mem_append.mp hu with hold | hnew
      · exact hQ u hold
      · rw [List.mem_singleton.mp hnew]
        exact hbegins t ht
  | step ht _ hnext =>
      obtain ⟨hkept, hown, hothers⟩ :=
        hstep _ _ _ _ rfl ht (hQ _ (List.mem_of_getElem? ht)) hnext
      refine ⟨hkept, ?_⟩
      intro u hu
      rcases List.mem_or_eq_of_mem_set hu with hold | rfl
      · exact hothers u (hQ u hold)
      · exact hown
  | rollback ht _ =>
      refine ⟨hJ, ?_⟩
      intro u hu
      rcases List.mem_or_eq_of_mem_set hu with hold | rfl
      · exact hQ u hold
      · exact hended

/-- The rule of assertions for transactions that keep others out: a step may rely on those that it
is in no conflict with. -/
theorem Happens.keepsAlone {J : σ → Prop} {Q : σ → τ → Prop} {R : τ → τ → Prop}
    (hsymm : ∀ t u, R t u → R u t) (h : Happens T s e s') (hJ : J s.committed)
    (hQ : ∀ t ∈ s.running, Q s.committed t) (halone : Threads.Alone R s.running)
    (hbegins : ∀ t, T.begins t = true → Q s.committed t ∧ ∀ u, ¬ R t u)
    (hended : Q s.committed T.ended ∧ ∀ u, ¬ R T.ended u)
    (hstep : ∀ t committed t', Q s.committed t → T.next s.committed t = some (committed, t') →
      J committed ∧ Q committed t' ∧ ∀ u, Q s.committed u → ¬ R t u → T.waits t u = false →
        Q committed u ∧ ¬ R t' u) :
    J s'.committed ∧ (∀ t ∈ s'.running, Q s'.committed t) ∧ Threads.Alone R s'.running := by
  cases h with
  | @start t ht =>
      obtain ⟨hnew, hfree⟩ := hbegins t ht
      refine ⟨hJ, ?_, ?_⟩
      · intro u hu
        rcases List.mem_append.mp hu with hold | hlast
        · exact hQ u hold
        · rw [List.mem_singleton.mp hlast]
          exact hnew
      · exact halone.append (hfree t) fun u _ => ⟨hfree u, fun hu => hfree u (hsymm u t hu)⟩
  | @step i t t' committed ht hwait hnext =>
      obtain ⟨hkept, hown, hothers⟩ := hstep _ _ _ (hQ t (List.mem_of_getElem? ht)) hnext
      have hother (j : Nat) (u : τ) (hu : s.running[j]? = some u) (hji : j ≠ i) :
          Q committed u ∧ ¬ R t' u := by
        apply hothers u (hQ u (List.mem_of_getElem? hu)) _ (hwait j u hu hji)
        intro htu
        exact hji (halone i j t u ht hu htu).symm
      refine ⟨hkept, ?_, ?_⟩
      · intro u hu
        obtain ⟨j, hj⟩ := List.mem_iff_getElem?.mp hu
        rcases Threads.getElem?_set hj with ⟨hji, hold⟩ | ⟨-, rfl⟩
        · exact (hother j u hold hji).1
        · exact hown
      · apply halone.set
        intro j u hu hji
        have hfree := (hother j u hu hji).2
        exact ⟨hfree, fun hut => hfree (hsymm u t' hut)⟩
  | @rollback i t ht _ =>
      refine ⟨hJ, ?_, ?_⟩
      · intro u hu
        rcases List.mem_or_eq_of_mem_set hu with hold | rfl
        · exact hQ u hold
        · exact hended.1
      · apply halone.set
        intro j u _ _
        exact ⟨hended.2 u, fun hu => hended.2 u (hsymm _ _ hu)⟩

section Locks

variable {κ : Type*} (holds : τ → Option κ)

/-- A transaction holds a lock that it has taken when no other one held it. -/
structure Locking (T : TransactionSystem σ τ) (holds : τ → Option κ) : Prop where
  begins : ∀ t, T.begins t = true → holds t = none
  ended : holds T.ended = none
  next : ∀ s t s' t', T.next s t = some (s', t') → ∀ k, holds t' = some k →
    holds t = some k ∨ ∀ u, holds u = some k → T.waits t u = true

/-- Two transactions hold one lock. -/
def Share (t u : τ) : Prop := ∃ k, holds t = some k ∧ holds u = some k

variable {holds}

theorem alone_of_happens (hlock : Locking T holds) (h : Happens T s e s')
    (halone : Threads.Alone (Share holds) s.running) :
    Threads.Alone (Share holds) s'.running := by
  cases h with
  | start hbegins =>
      have hnone := hlock.begins _ hbegins
      apply halone.append
      · rintro ⟨k, hk, -⟩
        rw [hnone] at hk
        cases hk
      · intro u _
        constructor
        · rintro ⟨k, hk, -⟩
          rw [hnone] at hk
          cases hk
        · rintro ⟨k, -, hk⟩
          rw [hnone] at hk
          cases hk
  | @step i t t' _ ht hwait hnext =>
      -- The lock was free, or the transaction held it already.
      have hfree : ∀ j u, s.running[j]? = some u → j ≠ i → ∀ k, holds t' = some k →
          holds u ≠ some k := by
        intro j u hu hji k hk hku
        rcases hlock.next _ _ _ _ hnext k hk with hheld | htaken
        · exact hji (halone j i u t hu ht ⟨k, hku, hheld⟩)
        · have hw := htaken u hku
          rw [hwait j u hu hji] at hw
          cases hw
      apply halone.set
      intro j u hu hji
      constructor
      · rintro ⟨k, hk, hku⟩
        exact hfree j u hu hji k hk hku
      · rintro ⟨k, hku, hk⟩
        exact hfree j u hu hji k hk hku
  | rollback ht _ =>
      apply halone.set
      intro j u hu hji
      constructor
      · rintro ⟨k, hk, -⟩
        rw [hlock.ended] at hk
        cases hk
      · rintro ⟨k, -, hk⟩
        rw [hlock.ended] at hk
        cases hk

end Locks

end TransactionSystem

end MediaBridge.Foundation
