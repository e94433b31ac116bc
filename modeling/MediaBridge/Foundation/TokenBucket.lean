import MediaBridge.Foundation.Runs
import Mathlib.Algebra.Order.Field.Basic
import Mathlib.Algebra.BigOperators.Group.List.Basic
import Mathlib.Data.List.Induction
import Mathlib.Tactic.Linarith
import Mathlib.Tactic.Ring

/-!
# Token buckets

A bucket is refilled at a rate up to its capacity, and what is taken from it is admitted. A bucket
that is dropped is recreated full.

## Implementation notes

A history is a list of operations with their readings of a clock. What was spent since a time and
what the bucket still holds are bounded together: this sum is what an operation keeps.
-/

namespace MediaBridge.Foundation

/-- What a bucket holds at most, and what it gains in a unit of time. -/
structure Allowance (K : Type*) [Field K] [LinearOrder K] where
  capacity : K
  rate : K
  capacity_nonneg : 0 ≤ capacity
  rate_nonneg : 0 ≤ rate

/-- A bucket: its tokens when it was last updated. -/
structure TokenBucket (K : Type*) where
  tokens : K
  updatedAt : K

namespace TokenBucket

/-- An operation and its reading of the clock. -/
inductive Op (K : Type*)
  | take (now cost : K)
  | drop (now : K)

/-- The reading of an operation. -/
def Op.now {K : Type*} : Op K → K
  | .take now _ => now
  | .drop now => now

section Order

variable {K : Type*} [LinearOrder K]

/-- The readings do not go back. -/
def InOrder (ops : List (Op K)) : Prop := (ops.map Op.now).Pairwise (· ≤ ·)

theorem inOrder_nil : InOrder ([] : List (Op K)) := List.Pairwise.nil

theorem inOrder_append_singleton {ops : List (Op K)} {op : Op K} :
    InOrder (ops ++ [op]) ↔ InOrder ops ∧ ∀ o ∈ ops, o.now ≤ op.now := by
  unfold InOrder
  rw [List.map_append, List.pairwise_append]
  simp only [List.map_cons, List.map_nil, List.pairwise_cons, List.not_mem_nil, false_imp_iff,
    implies_true, List.Pairwise.nil, true_and, List.mem_map, forall_exists_index, and_imp,
    forall_apply_eq_imp_iff₂, List.mem_singleton, forall_eq, and_true]

/-- More operations, all of one reading that is not before the others. -/
theorem InOrder.append {ops later : List (Op K)} {now : K} (h : InOrder ops)
    (hbefore : ∀ o ∈ ops, ∀ o' ∈ later, o.now ≤ o'.now) (hlater : ∀ o ∈ later, o.now = now) :
    InOrder (ops ++ later) := by
  unfold InOrder at h ⊢
  rw [List.map_append, List.pairwise_append]
  refine ⟨h, ?_, ?_⟩
  · apply List.pairwise_of_forall_mem_list
    intro t ht t' ht'
    obtain ⟨o, ho, rfl⟩ := List.mem_map.mp ht
    obtain ⟨o', ho', rfl⟩ := List.mem_map.mp ht'
    rw [hlater o ho, hlater o' ho']
  · intro t ht t' ht'
    obtain ⟨o, ho, rfl⟩ := List.mem_map.mp ht
    obtain ⟨o', ho', rfl⟩ := List.mem_map.mp ht'
    exact hbefore o ho o' ho'

end Order

variable {K : Type*} [Field K] [LinearOrder K] (a : Allowance K)

/-- The tokens at a time; a bucket that does not exist is full. -/
def level (now : K) : Option (TokenBucket K) → K
  | none => a.capacity
  | some b => min a.capacity (b.tokens + max 0 (now - b.updatedAt) * a.rate)

/-- An operation on the bucket and on the list of what was admitted. -/
def apply (acc : Option (TokenBucket K) × List (K × K)) :
    Op K → Option (TokenBucket K) × List (K × K)
  | .take now cost =>
      if level a now acc.1 < cost then (some ⟨level a now acc.1, now⟩, acc.2)
      else (some ⟨level a now acc.1 - cost, now⟩, acc.2 ++ [(now, cost)])
  | .drop _ => (none, acc.2)

/-- The bucket after a history, and what was admitted. -/
def run (ops : List (Op K)) : Option (TokenBucket K) × List (K × K) :=
  ops.foldl (apply a) (none, [])

/-- What was spent from one time to another. -/
def spent (admitted : List (K × K)) (s t : K) : K :=
  ((admitted.filter fun e => decide (s ≤ e.1) && decide (e.1 ≤ t)).map Prod.snd).sum

/-- A bucket that the operation drops is full. -/
def DropsFull (b : Option (TokenBucket K)) : Op K → Prop
  | .take _ _ => True
  | .drop now => level a now b = a.capacity

/-- No bucket is dropped before it is full. -/
def DroppedFull (ops : List (Op K)) : Prop :=
  EachStep (fun before op => DropsFull a (run a before).1 op) ops

variable {a} {ops : List (Op K)} {op : Op K} {s t now : K}

@[simp] theorem run_nil : run a ([] : List (Op K)) = (none, []) := rfl

@[simp] theorem run_append_singleton : run a (ops ++ [op]) = apply a (run a ops) op := by
  rw [run, List.foldl_append]
  rfl

@[simp] theorem spent_nil : spent ([] : List (K × K)) s t = 0 := rfl

/-- What is admitted is admitted at the reading of an operation. -/
theorem exists_of_mem_run {e : K × K} (h : e ∈ (run a ops).2) : ∃ o ∈ ops, o.now = e.1 := by
  induction ops using List.reverseRecOn with
  | nil => cases h
  | append_singleton ops op ih =>
      have hold (h : e ∈ (run a ops).2) : ∃ o ∈ ops ++ [op], o.now = e.1 := by
        obtain ⟨o, ho, heq⟩ := ih h
        exact ⟨o, List.mem_append_left _ ho, heq⟩
      rw [run_append_singleton] at h
      cases op with
      | drop now => exact hold h
      | take now cost =>
          rw [apply] at h
          split at h
          · exact hold h
          · rcases List.mem_append.mp h with h | h
            · exact hold h
            · refine ⟨_, List.mem_append_right _ (List.mem_singleton_self _), ?_⟩
              rw [List.mem_singleton.mp h]
              rfl

theorem spent_append (admitted later : List (K × K)) :
    spent (admitted ++ later) s t = spent admitted s t + spent later s t := by
  rw [spent, List.filter_append, List.map_append, List.sum_append]
  rfl

theorem spent_singleton {cost : K} (hs : s ≤ now) (ht : now ≤ t) :
    spent [(now, cost)] s t = cost := by
  rw [spent, List.filter_cons_of_pos (by simpa using ⟨hs, ht⟩)]
  exact List.sum_singleton

/-- Nothing is spent in a time that no operation has read. -/
theorem spent_eq_zero {admitted : List (K × K)}
    (h : ∀ e ∈ admitted, ¬ (s ≤ e.1 ∧ e.1 ≤ t)) : spent admitted s t = 0 := by
  unfold spent
  rw [List.filter_eq_nil_iff.mpr]
  · rfl
  · intro e he
    simpa using h e he

/-- A later end of the time counts the same, when nothing was read after the earlier one. -/
theorem spent_of_le {admitted : List (K × K)} (h : ∀ e ∈ admitted, e.1 ≤ t) (hle : t ≤ now) :
    spent admitted s now = spent admitted s t := by
  unfold spent
  congr 2
  apply List.filter_congr
  intro e he
  rw [decide_eq_true (h e he), decide_eq_true ((h e he).trans hle)]

theorem droppedFull_nil : DroppedFull a [] := eachStep_nil _

theorem droppedFull_append_singleton :
    DroppedFull a (ops ++ [op]) ↔ DroppedFull a ops ∧ DropsFull a (run a ops).1 op :=
  eachStep_append_singleton

theorem level_le (b : Option (TokenBucket K)) : level a now b ≤ a.capacity := by
  cases b with
  | none => exact le_rfl
  | some b => exact min_le_left _ _

/-- Taking from a bucket: what is left and what is admitted is what it held. -/
theorem exists_apply_take (acc : Option (TokenBucket K) × List (K × K)) (t cost : K) :
    ∃ left admitted, apply a acc (.take t cost) = (some ⟨left, t⟩, acc.2 ++ admitted) ∧
      (s ≤ t → spent (acc.2 ++ admitted) s t + left = spent acc.2 s t + level a t acc.1) ∧
      ∀ e ∈ admitted, e.1 = t := by
  by_cases hcost : level a t acc.1 < cost
  · refine ⟨level a t acc.1, [], ?_, fun _ => ?_, nofun⟩
    · rw [apply, if_pos hcost, List.append_nil]
    · rw [List.append_nil]
  · refine ⟨level a t acc.1 - cost, [(t, cost)], ?_, fun hs => ?_, ?_⟩
    · rw [apply, if_neg hcost]
    · rw [spent_append, spent_singleton hs le_rfl]
      ring
    · intro e he
      rw [List.mem_singleton.mp he]

variable [IsStrictOrderedRing K]

/-- A bucket never holds less than nothing. -/
theorem level_nonneg (ops : List (Op K)) (now : K) : 0 ≤ level a now (run a ops).1 := by
  induction ops using List.reverseRecOn generalizing now with
  | nil => exact a.capacity_nonneg
  | append_singleton ops op ih =>
      have hgain (b : TokenBucket K) (hb : 0 ≤ b.tokens) : 0 ≤ level a now (some b) := by
        refine le_min a.capacity_nonneg (add_nonneg hb ?_)
        exact mul_nonneg (le_max_left _ _) a.rate_nonneg
      rw [run_append_singleton]
      cases op with
      | drop t => exact a.capacity_nonneg
      | take t cost =>
          rw [apply]
          split
          · exact hgain _ (ih t)
          · rename_i hcost
            exact hgain _ (sub_nonneg.mpr (not_lt.mp hcost))

/-- A bucket gains at most what the rate allows. -/
theorem level_some_le {b : TokenBucket K} (h : b.updatedAt ≤ now) :
    level a now (some b) ≤ b.tokens + (now - b.updatedAt) * a.rate := by
  refine (min_le_right _ _).trans ?_
  rw [max_eq_right (sub_nonneg.mpr h)]

/-- The longer the time, the more is gained. -/
theorem gain_mono (h : t ≤ now) : a.rate * max 0 (t - s) ≤ a.rate * max 0 (now - s) :=
  mul_le_mul_of_nonneg_left (max_le_max le_rfl (sub_le_sub_right h s)) a.rate_nonneg

variable (s) in
/-- What was spent since a time, and what is left: together at most the capacity and what was
gained since then. -/
theorem spent_add_level_le (horder : InOrder ops) (hfull : DroppedFull a ops)
    (hnow : ∀ o ∈ ops, o.now ≤ now) :
    spent (run a ops).2 s now + level a now (run a ops).1 ≤
      a.capacity + a.rate * max 0 (now - s) := by
  induction ops using List.reverseRecOn generalizing now with
  | nil =>
      rw [run_nil, spent_nil, zero_add]
      exact le_add_of_nonneg_right (mul_nonneg a.rate_nonneg (le_max_left _ _))
  | append_singleton ops op ih =>
      obtain ⟨hbefore, hlast⟩ := inOrder_append_singleton.mp horder
      obtain ⟨hdropped, hdrop⟩ := droppedFull_append_singleton.mp hfull
      have hop : op.now ≤ now := hnow op (List.mem_append_right _ (List.mem_singleton_self _))
      have hread : ∀ e ∈ (run a ops).2, e.1 ≤ op.now := by
        intro e he
        obtain ⟨o, ho, heq⟩ := exists_of_mem_run he
        rw [← heq]
        exact hlast o ho
      have hcredit := ih hbefore hdropped hlast
      rw [run_append_singleton]
      cases op with
      | drop t =>
          have hlevel : level a t (run a ops).1 = a.capacity := hdrop
          rw [Op.now, hlevel] at hcredit
          rw [apply, spent_of_le hread hop]
          exact hcredit.trans (add_le_add_right (gain_mono hop) _)
      | take t cost =>
          obtain ⟨left, admitted, heq, hspent, hmem⟩ := exists_apply_take (s := s) (a := a)
            (run a ops) t cost
          have hall : ∀ e ∈ (run a ops).2 ++ admitted, e.1 ≤ t := by
            intro e he
            rcases List.mem_append.mp he with he | he
            · exact hread e he
            · exact (hmem e he).le
          rw [heq]
          change spent ((run a ops).2 ++ admitted) s now + level a now (some ⟨left, t⟩) ≤ _
          rw [spent_of_le hall hop]
          rcases le_or_gt s t with hs | hs
          · have hleft : level a now (some ⟨left, t⟩) ≤ left + (now - t) * a.rate :=
              level_some_le hop
            rw [Op.now, max_eq_right (sub_nonneg.mpr hs)] at hcredit
            calc
              spent ((run a ops).2 ++ admitted) s t + level a now (some ⟨left, t⟩) ≤
                  spent ((run a ops).2 ++ admitted) s t + (left + (now - t) * a.rate) :=
                add_le_add_right hleft _
              _ = spent (run a ops).2 s t + level a t (run a ops).1 + (now - t) * a.rate := by
                rw [← hspent hs]
                ring
              _ ≤ a.capacity + a.rate * (t - s) + (now - t) * a.rate :=
                add_le_add_left hcredit _
              _ = a.capacity + a.rate * (now - s) := by ring
              _ ≤ a.capacity + a.rate * max 0 (now - s) :=
                add_le_add_right (mul_le_mul_of_nonneg_left (le_max_right _ _) a.rate_nonneg) _
          · rw [spent_eq_zero fun e he h => absurd (h.1.trans (hall e he)) (not_le.mpr hs),
              zero_add]
            exact (level_le _).trans
              (le_add_of_nonneg_right (mul_nonneg a.rate_nonneg (le_max_left _ _)))

/-- What a bucket admits in a time is at most its capacity and what it gains in that time. -/
theorem spent_le (horder : InOrder ops) (hfull : DroppedFull a ops) (hst : s ≤ t) :
    spent (run a ops).2 s t ≤ a.capacity + a.rate * (t - s) := by
  induction ops using List.reverseRecOn with
  | nil =>
      rw [run_nil, spent_nil]
      exact add_nonneg a.capacity_nonneg (mul_nonneg a.rate_nonneg (sub_nonneg.mpr hst))
  | append_singleton ops op ih =>
      obtain ⟨hbefore, hlast⟩ := inOrder_append_singleton.mp horder
      rcases le_or_gt op.now t with hop | hop
      · have hnow : ∀ o ∈ ops ++ [op], o.now ≤ t := by
          rw [List.forall_mem_append, List.forall_mem_singleton]
          exact ⟨fun o ho => (hlast o ho).trans hop, hop⟩
        have hcredit := spent_add_level_le s horder hfull hnow
        rw [max_eq_right (sub_nonneg.mpr hst)] at hcredit
        exact (le_add_of_nonneg_right (level_nonneg _ t)).trans hcredit
      · rw [run_append_singleton]
        cases op with
        | drop t' => exact ih hbefore (droppedFull_append_singleton.mp hfull).1
        | take t' cost =>
            obtain ⟨left, admitted, heq, -, hmem⟩ := exists_apply_take (s := s) (a := a)
              (run a ops) t' cost
            have hlate : ∀ e ∈ admitted, ¬ (s ≤ e.1 ∧ e.1 ≤ t) := by
              intro e he h
              rw [hmem e he] at h
              exact absurd h.2 (not_le.mpr hop)
            rw [heq, spent_append, spent_eq_zero hlate, add_zero]
            exact ih hbefore (droppedFull_append_singleton.mp hfull).1

end TokenBucket

end MediaBridge.Foundation
