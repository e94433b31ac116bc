import Mathlib.Data.List.Nodup
import MediaBridge.Foundation.Interleaving

/-!
# Reloading the personal runtime

`ReloadablePersonalRuntime` in `media_bridge_personal/npm_runtime.py`: one runtime is replaced by
another while calls go on.

## Implementation notes

A runtime is known by its number in the order in which they are made. What a coroutine does up to
the next `await` is a step. A call that is cancelled, or fails, lets go of the lock and ends, so
that this is one event; those who wait for the lock may get it in any order. The body of a stream
is read outside the lock, after `invoke` has returned.
-/

namespace MediaBridge.Personal

open Foundation

/-- What the calls share. -/
structure ReloadState where
  /-- `_runtime`. -/
  runtime : Nat := 0
  /-- How many runtimes there have been. -/
  made : Nat := 1
  /-- The runtimes that `reload` has begun to close, in order. -/
  previous : List Nat := []
  /-- The runtimes that `close` has begun to close, in order. -/
  shut : List Nat := []
deriving DecidableEq

/-- A call: what it has still to do. -/
inductive ReloadThread
  | invoke
  /-- The call is in a runtime. -/
  | invoking (runtime : Nat)
  | reload
  /-- The factory has made a runtime, which is to replace the one in use. -/
  | replacing (replacement : Nat)
  /-- The runtime that has been replaced is being closed. -/
  | leaving (previous : Nat)
  | close
  | closing (runtime : Nat)
  | ended
deriving DecidableEq

namespace ReloadThread

/-- The call is in the block of the lock. -/
def locks : ReloadThread → Bool
  | invoking _ => true
  | leaving _ => true
  | closing _ => true
  | _ => false

/-- The next step of the call takes the lock. -/
def wants : ReloadThread → Bool
  | invoke => true
  | replacing _ => true
  | close => true
  | _ => false

/-- The call has made a runtime that is not in use yet. -/
def waiting : ReloadThread → Bool
  | replacing _ => true
  | _ => false

/-- One step of a call. -/
def next (s : ReloadState) : ReloadThread → Option (ReloadState × ReloadThread)
  | invoke => some (s, invoking s.runtime)
  | reload => some ({ s with made := s.made + 1 }, replacing s.made)
  | replacing replacement =>
      some ({ s with runtime := replacement, previous := s.previous ++ [s.runtime] },
        leaving s.runtime)
  | close => some ({ s with shut := s.shut ++ [s.runtime] }, closing s.runtime)
  | invoking _ => some (s, ended)
  | leaving _ => some (s, ended)
  | closing _ => some (s, ended)
  | ended => none

/-- The calls, interleaved. -/
def system : TransactionSystem ReloadState ReloadThread where
  begins t := t = invoke ∨ t = reload ∨ t = close
  next := next
  waits t u := t.wants && u.locks
  ended := ended

end ReloadThread

section Runs

open ReloadThread

variable {s s' : ReloadState} {t t' : ReloadThread} {r : Sessions ReloadState ReloadThread}

/-- How often a runtime is in use, has been replaced, or is to replace the one in use. -/
def places (runtime : Nat) (r : Sessions ReloadState ReloadThread) : Nat :=
  (r.committed.runtime :: r.committed.previous).count runtime +
    r.running.countP (· = replacing runtime)

/-- `1` for a runtime that has been made. -/
def madeOnce (runtime : Nat) (s : ReloadState) : Nat := if runtime < s.made then 1 else 0

def reloadRuns : Machine (Sessions ReloadState ReloadThread) (SessionEvent ReloadThread) :=
  system.machine fun s => s = {}

/-- No reload is cancelled while it waits for the lock. -/
def ReloadsKept (r : Sessions ReloadState ReloadThread) : SessionEvent ReloadThread → Prop
  | .rollback i => ∀ t ∈ r.running[i]?, t.waiting = false
  | .start _ => True
  | .step _ => True

instance (r : Sessions ReloadState ReloadThread) : ∀ e, Decidable (ReloadsKept r e)
  | .rollback i => inferInstanceAs (Decidable (∀ t ∈ r.running[i]?, t.waiting = false))
  | .start _ => inferInstanceAs (Decidable True)
  | .step _ => inferInstanceAs (Decidable True)

/-- What a step changes of the places of a runtime. -/
theorem places_of_next (runtime : Nat) (h : next s t = some (s', t')) :
    ((s'.runtime :: s'.previous).count runtime + if t' = replacing runtime then 1 else 0) +
        madeOnce runtime s =
      ((s.runtime :: s.previous).count runtime + if t = replacing runtime then 1 else 0) +
        madeOnce runtime s' := by
  cases t with
  | reload =>
      cases h
      simp only [madeOnce, replacing.injEq, reduceCtorEq, if_false]
      split_ifs <;> omega
  | replacing replacement =>
      cases h
      simp only [madeOnce, replacing.injEq, reduceCtorEq, if_false, List.count_cons,
        List.count_append, List.count_nil, beq_iff_eq]
      split_ifs <;> omega
  | ended => cases h
  | _ =>
      cases h
      rfl

/-- A step gets into the block of the lock only by taking it, and changes nothing that is in use
without it. -/
theorem next_wants (h : next s t = some (s', t')) :
    (t'.locks = true → t.wants = true) ∧
      (t.wants = false → s'.runtime = s.runtime ∧ s'.previous = s.previous) := by
  cases t with
  | ended => cases h
  | invoke =>
      cases h
      exact ⟨fun _ => rfl, fun _ => ⟨rfl, rfl⟩⟩
  | replacing replacement =>
      cases h
      exact ⟨fun _ => rfl, fun hwants => by cases hwants⟩
  | close =>
      cases h
      exact ⟨fun _ => rfl, fun _ => ⟨rfl, rfl⟩⟩
  | _ =>
      cases h
      exact ⟨fun hlocks => absurd hlocks Bool.false_ne_true, fun _ => ⟨rfl, rfl⟩⟩

/-- Where a call is that has taken the lock. -/
def Placed (s : ReloadState) : ReloadThread → Prop
  | invoking runtime => runtime = s.runtime
  | closing runtime => runtime = s.runtime
  | leaving previous => previous ∈ s.previous
  | _ => True

theorem placed_of_next (h : next s t = some (s', t')) : Placed s' t' := by
  cases t with
  | replacing replacement =>
      cases h
      exact List.mem_append_right _ (List.mem_singleton_self _)
  | ended => cases h
  | _ =>
      cases h
      first | rfl | trivial

theorem placed_of_not_locks (h : t.locks = false) : Placed s t := by
  cases t with
  | invoking runtime => cases h
  | leaving previous => cases h
  | closing runtime => cases h
  | _ => trivial

theorem Placed.congr (h : Placed s t)
    (hsame : s'.runtime = s.runtime ∧ s'.previous = s.previous) : Placed s' t := by
  obtain ⟨hruntime, hprevious⟩ := hsame
  cases t with
  | invoking runtime => exact h.trans hruntime.symm
  | leaving previous =>
      unfold Placed at h ⊢
      rw [hprevious]
      exact h
  | closing runtime => exact h.trans hruntime.symm
  | _ => trivial

/-- Two calls are in the block of the lock. -/
def BothLock (t u : ReloadThread) : Prop := t.locks = true ∧ u.locks = true

theorem not_bothLock (h : t.locks = false) (u : ReloadThread) : ¬ BothLock t u := by
  rintro ⟨htrue, -⟩
  rw [h] at htrue
  cases htrue

theorem begins_not_locks (h : system.begins t = true) :
    t.locks = false ∧ ∀ runtime, t ≠ replacing runtime := by
  rcases of_decide_eq_true h with rfl | rfl | rfl <;>
    exact ⟨rfl, fun runtime heq => by cases heq⟩

/-- A call that is in the block of the lock is there alone, and where it belongs. -/
theorem placed_of_reachable (hreach : reloadRuns.Reachable Machine.anyStep r) :
    (∀ t ∈ r.running, Placed r.committed t) ∧ Threads.Alone BothLock r.running := by
  have hall : True ∧ (∀ t ∈ r.running, Placed r.committed t) ∧
      Threads.Alone BothLock r.running := by
    apply hreach.invariant
    · rintro r ⟨-, hrunning⟩
      rw [hrunning]
      exact ⟨trivial, fun t ht => absurd ht List.not_mem_nil, Threads.alone_nil⟩
    · rintro r e r' ⟨-, hplaced, halone⟩ - hstep
      have hhappens := TransactionSystem.happens_of_apply hstep
      refine hhappens.keepsAlone (J := fun _ => True) (Q := Placed) ?_ trivial hplaced halone
        ?_ ?_ ?_
      · exact fun t u hlocks => hlocks.symm
      · intro t ht
        have hnot := (begins_not_locks ht).1
        exact ⟨placed_of_not_locks hnot, not_bothLock hnot⟩
      · exact ⟨trivial, not_bothLock rfl⟩
      · intro t committed t' _ hnext
        obtain ⟨htakes, hsame⟩ := next_wants hnext
        refine ⟨trivial, placed_of_next hnext, ?_⟩
        intro u hu _ hwaits
        cases hwants : t.wants with
        | true =>
            have hnot : u.locks = false := by
              change (t.wants && u.locks) = false at hwaits
              rw [hwants] at hwaits
              exact hwaits
            refine ⟨placed_of_not_locks hnot, fun hboth => ?_⟩
            exact not_bothLock hnot t' hboth.symm
        | false =>
            refine ⟨hu.congr (hsame hwants), fun hboth => ?_⟩
            rw [htakes hboth.1] at hwants
            cases hwants
  exact hall.2

/-- What an event changes of the places of a runtime; a reload that is cancelled while it waits
takes the one it has made with it. -/
theorem places_of_apply {r' : Sessions ReloadState ReloadThread}
    {e : SessionEvent ReloadThread} (runtime : Nat) (h : system.apply r e = some r') :
    places runtime r' + madeOnce runtime r.committed ≤
        places runtime r + madeOnce runtime r'.committed ∧
      (ReloadsKept r e → places runtime r' + madeOnce runtime r.committed =
        places runtime r + madeOnce runtime r'.committed) := by
  cases TransactionSystem.happens_of_apply h with
  | @start t ht =>
      have hnot : t ≠ replacing runtime := (begins_not_locks ht).2 runtime
      have hsame : places runtime { r with running := r.running ++ [t] } = places runtime r := by
        simp [places, hnot]
      exact ⟨Nat.le_of_eq (by rw [hsame]), fun _ => by rw [hsame]⟩
  | @step i t t' committed ht _ hnext =>
      have hcount := Threads.countP_set (x := t') (fun u => decide (u = replacing runtime)) ht
      have hplaces := places_of_next runtime hnext
      simp only [decide_eq_true_eq] at hcount
      unfold places
      dsimp only
      constructor <;> omega
  | @rollback i t ht _ =>
      have hcount := Threads.countP_set (x := system.ended)
        (fun u => decide (u = replacing runtime)) ht
      have hended : system.ended ≠ replacing runtime := by
        intro heq
        cases heq
      simp only [decide_eq_true_eq, if_neg hended] at hcount
      unfold places
      dsimp only
      refine ⟨by omega, ?_⟩
      intro hkept
      have hnot : t ≠ replacing runtime := by
        rintro rfl
        exact Bool.noConfusion (hkept _ ht)
      rw [if_neg hnot] at hcount
      omega

theorem places_initial {s : ReloadState} (h : s = {}) (runtime : Nat) :
    places runtime { committed := s } = madeOnce runtime s := by
  subst h
  cases runtime with
  | zero => rfl
  | succ n => simp [places, madeOnce]

/-- What holds while runtimes are replaced. -/
structure SafeReload (r : Sessions ReloadState ReloadThread) : Prop where
  /-- One call at a time is in the block of the lock. -/
  alone : Threads.Alone BothLock r.running
  /-- A call is in the runtime that is in use. -/
  placed : ∀ t ∈ r.running, Placed r.committed t
  /-- No runtime is closed twice by reloads, nor the one that is in use. -/
  distinct : (r.committed.runtime :: r.committed.previous).Nodup

/-- However calls, reloads and closings are interleaved and cancelled: a call is in the runtime that
is in use, which no reload closes meanwhile or has closed before. -/
theorem reload_safe (hreach : reloadRuns.Reachable Machine.anyStep r) : SafeReload r := by
  obtain ⟨hplaced, halone⟩ := placed_of_reachable hreach
  have hplaces : ∀ runtime, places runtime r ≤ madeOnce runtime r.committed := by
    intro runtime
    apply hreach.invariant
    · rintro ⟨committed, running⟩ ⟨hinitial, rfl⟩
      exact Nat.le_of_eq (places_initial hinitial runtime)
    · intro r e r' hle _ hstep
      have hstep := (places_of_apply runtime hstep).1
      omega
  refine ⟨halone, hplaced, ?_⟩
  rw [List.nodup_iff_count_le_one]
  intro runtime
  have hle := hplaces runtime
  unfold places madeOnce at hle
  split at hle <;> omega

/-- Where no reload is cancelled while it waits, every runtime that has been made is in use, has
been closed by the reload that replaced it, or is about to replace the one in use: none is lost. -/
theorem no_runtime_lost (hreach : reloadRuns.Reachable ReloadsKept r) (runtime : Nat) :
    places runtime r = madeOnce runtime r.committed := by
  apply hreach.invariant
  · rintro ⟨committed, running⟩ ⟨hinitial, rfl⟩
    exact places_initial hinitial runtime
  · intro r e r' heq hkept hstep
    have hstep := (places_of_apply runtime hstep).2 hkept
    omega

end Runs

section Samples

open ReloadThread

/-- A reload, and a call that follows it. -/
def sampleReloadEvents : List (SessionEvent ReloadThread) :=
  [.start .reload, .start .invoke, .step 0, .step 0, .step 0, .step 1]

def sampleReloaded : Sessions ReloadState ReloadThread :=
  { committed := { runtime := 1, made := 2, previous := [0] }, running := [.ended, .invoking 1] }

theorem reachable_sampleReloaded : reloadRuns.Reachable ReloadsKept sampleReloaded :=
  TransactionSystem.reachable_of_schedule rfl sampleReloadEvents (by decide)

/-- The call after the reload is in the new runtime alone. -/
theorem reload_safe_sample : SafeReload sampleReloaded :=
  reload_safe (reachable_sampleReloaded.mono fun _ _ _ => trivial)

/-- The old runtime has been closed. -/
theorem no_runtime_lost_sample : places 0 sampleReloaded = 1 :=
  no_runtime_lost reachable_sampleReloaded 0

end Samples

end MediaBridge.Personal
