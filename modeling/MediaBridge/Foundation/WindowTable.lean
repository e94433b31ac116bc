import MediaBridge.Foundation.Dict
import Mathlib.Order.Lattice

/-!
# Tables of recent times

A table keeps for each key the times at which something happened, and forgets those that have left
a window. `Remembers` compares it with the times that each key has really seen.

## Implementation notes

A window is given by its cutoff: what happened at or before it has left the window. Times are kept
in the order in which they come, and the old ones are taken from the front.
-/

namespace MediaBridge.Foundation.WindowTable

variable {κ τ : Type*}

section Times

variable [LinearOrder τ]

/-- The times after a cutoff. -/
def live (cutoff : τ) (times : List τ) : List τ := times.filter fun t => cutoff < t

/-- The times that are left when the old ones are taken from the front. -/
def expire (cutoff : τ) (times : List τ) : List τ := times.dropWhile fun t => t ≤ cutoff

variable {cutoff later : τ} {times : List τ}

theorem live_append (cutoff : τ) (times more : List τ) :
    live cutoff (times ++ more) = live cutoff times ++ live cutoff more :=
  List.filter_append ..

/-- Old times are not live. -/
theorem live_expire (cutoff : τ) (times : List τ) :
    live cutoff (expire cutoff times) = live cutoff times := by
  induction times with
  | nil => rfl
  | cons t rest ih =>
      unfold live expire at ih ⊢
      rw [List.dropWhile_cons]
      split
      · next hold =>
          rw [ih, List.filter_cons_of_neg (by simpa using hold)]
      · rfl

/-- Of times in order, exactly the live ones are left. -/
theorem expire_eq_live (h : times.Pairwise (· ≤ ·)) : expire cutoff times = live cutoff times := by
  induction times with
  | nil => rfl
  | cons t rest ih =>
      obtain ⟨hle, hrest⟩ := List.pairwise_cons.mp h
      by_cases hold : t ≤ cutoff
      · calc expire cutoff (t :: rest) = expire cutoff rest :=
              List.dropWhile_cons_of_pos (by simpa using hold)
          _ = live cutoff rest := ih hrest
          _ = live cutoff (t :: rest) := (List.filter_cons_of_neg (by simpa using hold)).symm
      · have hlive : live cutoff (t :: rest) = t :: rest := by
          apply List.filter_eq_self.mpr
          intro u hu
          have htu : t ≤ u := by
            rcases List.mem_cons.mp hu with rfl | hmem
            · exact le_rfl
            · exact hle u hmem
          exact decide_eq_true (lt_of_lt_of_le (lt_of_not_ge hold) htu)
        rw [hlive]
        exact List.dropWhile_cons_of_neg (by simpa using hold)

theorem expire_sublist (cutoff : τ) (times : List τ) : (expire cutoff times).Sublist times :=
  List.dropWhile_sublist _

/-- A later cutoff looks at what an earlier one has left. -/
theorem live_live (h : cutoff ≤ later) (times : List τ) :
    live later (live cutoff times) = live later times := by
  unfold live
  rw [List.filter_filter]
  apply List.filter_congr
  intro t _
  by_cases ht : later < t
  · simp [ht, lt_of_le_of_lt h ht]
  · simp [ht]

theorem length_live_le (cutoff : τ) (times : List τ) : (live cutoff times).length ≤ times.length :=
  List.length_filter_le _ _

/-- Fewer times are live later. -/
theorem length_live_le_of_le (h : cutoff ≤ later) (times : List τ) :
    (live later times).length ≤ (live cutoff times).length := by
  rw [← live_live h times]
  exact length_live_le later _

theorem live_congr (h : cutoff ≤ later) {times times' : List τ}
    (heq : live cutoff times = live cutoff times') : live later times = live later times' := by
  rw [← live_live h times, heq, live_live h times']

/-- What an earlier cutoff leaves is live as before. -/
theorem live_expire_of_le (h : cutoff ≤ later) (times : List τ) :
    live later (expire cutoff times) = live later times :=
  live_congr h (live_expire cutoff times)

end Times

section Tables

variable [DecidableEq κ]

/-- The times that a table keeps for a key. -/
def times (table : Entries κ (List τ)) (k : κ) : List τ := (Entries.get? table k).getD []

/-- The table with an entry moved to the end. -/
def toEnd (table : Entries κ (List τ)) (k : κ) (kept : List τ) : Entries κ (List τ) :=
  Entries.erase table k ++ [(k, kept)]

variable {table : Entries κ (List τ)} {k k' : κ} {kept : List τ}

theorem times_erase_self (table : Entries κ (List τ)) (k : κ) :
    times (Entries.erase table k) k = [] := by
  rw [times, Entries.get?_erase_self, Option.getD_none]

theorem times_erase_of_ne (h : k' ≠ k) : times (Entries.erase table k) k' = times table k' := by
  rw [times, Entries.get?_erase_of_ne table h, times]

theorem times_toEnd_self (table : Entries κ (List τ)) (k : κ) (kept : List τ) :
    times (toEnd table k kept) k = kept := by
  rw [times, toEnd, Entries.get?_append, Entries.get?_erase_self, Option.none_or,
    Entries.get?_cons_self, Option.getD_some]

theorem times_toEnd_of_ne (h : k' ≠ k) : times (toEnd table k kept) k' = times table k' := by
  rw [times, toEnd, Entries.get?_append, Entries.get?_erase_of_ne table h, Entries.get?_cons,
    if_neg (Ne.symm h), Entries.get?_nil, Option.or_none, times]

theorem times_set_self (table : Entries κ (List τ)) (k : κ) (kept : List τ) :
    times (Entries.set table k kept) k = kept := by
  rw [times, Entries.get?_set_self, Option.getD_some]

theorem times_set_of_ne (h : k' ≠ k) :
    times (Entries.set table k kept) k' = times table k' := by
  rw [times, Entries.get?_set_of_ne table kept h, times]

end Tables

section Remembers

variable [DecidableEq κ] [LinearOrder τ] {table : Entries κ (List τ)} {k : κ} {kept : List τ}

/-- A table keeps the live times of every key, in order. -/
structure Remembers (cutoff : τ) (table : Entries κ (List τ)) (own : κ → List τ) : Prop where
  live : ∀ k, live cutoff (times table k) = live cutoff (own k)
  sorted : ∀ k, (times table k).Pairwise (· ≤ ·)

namespace Remembers

variable {cutoff later : τ} {own own' : κ → List τ}

theorem nil (cutoff : τ) : Remembers cutoff ([] : Entries κ (List τ)) fun _ => [] :=
  ⟨fun _ => rfl, fun _ => List.Pairwise.nil⟩

theorem mono (h : Remembers cutoff table own) (hle : cutoff ≤ later) :
    Remembers later table own :=
  ⟨fun k => live_congr hle (h.live k), h.sorted⟩

/-- An entry may be removed if none of its times is live. -/
theorem evict (h : Remembers cutoff table own)
    (hnone : WindowTable.live cutoff (times table k) = []) :
    Remembers cutoff (Entries.erase table k) own := by
  constructor
  · intro k'
    by_cases hk : k' = k
    · subst hk
      rw [times_erase_self, ← h.live, hnone]
      rfl
    · rw [times_erase_of_ne hk]
      exact h.live k'
  · intro k'
    by_cases hk : k' = k
    · subst hk
      rw [times_erase_self]
      exact List.Pairwise.nil
    · rw [times_erase_of_ne hk]
      exact h.sorted k'

/-- A write of one entry: the other keys stay as they are. -/
theorem write {table' : Entries κ (List τ)} (h : Remembers cutoff table own)
    (hself : times table' k = kept) (hother : ∀ k', k' ≠ k → times table' k' = times table k')
    (hlive : WindowTable.live cutoff kept = WindowTable.live cutoff (own' k))
    (hsorted : kept.Pairwise (· ≤ ·)) (hown : ∀ k', k' ≠ k → own' k' = own k') :
    Remembers cutoff table' own' := by
  constructor
  · intro k'
    by_cases hk : k' = k
    · subst hk
      rw [hself]
      exact hlive
    · rw [hother k' hk, hown k' hk]
      exact h.live k'
  · intro k'
    by_cases hk : k' = k
    · subst hk
      rw [hself]
      exact hsorted
    · rw [hother k' hk]
      exact h.sorted k'

/-- What is left of the entry of a key are its live times. -/
theorem expire_times (h : Remembers cutoff table own) (k : κ) :
    expire cutoff (times table k) = WindowTable.live cutoff (own k) := by
  rw [expire_eq_live (h.sorted k)]
  exact h.live k

end Remembers

end Remembers

end MediaBridge.Foundation.WindowTable
