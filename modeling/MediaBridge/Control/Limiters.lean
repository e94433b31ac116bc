import MediaBridge.Core.Capabilities
import MediaBridge.Foundation.Runs
import MediaBridge.Foundation.WindowTable
import Mathlib.Algebra.Order.Field.Rat
import Mathlib.Data.List.MinMax

/-!
# Limiters of the control plane

`LoginRateLimiter` of `media_bridge_control/security.py` and `AdminActionRateLimiter` of
`media_bridge_control/test_lab.py`: tables of recent attempts, with room for a number of keys.

## Implementation notes

Both make room by evicting a key: the one that was looked at least recently, or the one whose first
attempt is the oldest. Clock readings of the second one are exact.
-/

namespace MediaBridge.Control

open Foundation MediaBridge.Core WindowTable

/-- `LoginRateLimiter`, with the settings that its constructor accepts. -/
structure LoginRateLimiter where
  limit : Nat
  window : Int
  maxKeys : Nat := 10000
  limit_pos : 1 ≤ limit
  window_pos : 0 < window
  keys_pos : 1 ≤ maxKeys

/-- `_attempts`, the key that was looked at least recently first. -/
abbrev LoginAttempts := Entries Str (List Instant)

/-- A call of a `LoginRateLimiter`. -/
inductive LimiterCall
  | allow (key : Str) (now : Instant)
  | recordFailure (key : Str) (now : Instant)
  | clear (key : Str)
deriving DecidableEq

def LimiterCall.key : LimiterCall → Str
  | .allow key _ => key
  | .recordFailure key _ => key
  | .clear key => key

/-- The clock reading of a call, if it takes one. -/
def LimiterCall.now? : LimiterCall → Option Instant
  | .allow _ now => some now
  | .recordFailure _ now => some now
  | .clear _ => none

namespace LoginRateLimiter

variable (limiter : LoginRateLimiter)

/-- A key that the table does not hold needs room. -/
def full (attempts : LoginAttempts) (key : Str) : Bool :=
  !Entries.has attempts key && decide (limiter.maxKeys ≤ attempts.length)

/-- The key that `popitem(last=False)` removes. -/
def evicted (attempts : LoginAttempts) : Option Str := attempts.head?.map Prod.fst

/-- The table with room for a key. -/
def room (attempts : LoginAttempts) (key : Str) : LoginAttempts :=
  if limiter.full attempts key then attempts.tail else attempts

/-- The attempts of a key that `_active` returns. -/
def active (attempts : LoginAttempts) (key : Str) (now : Instant) : List Instant :=
  expire (now - limiter.window) (times (limiter.room attempts key) key)

/-- `allow`. -/
def allow (attempts : LoginAttempts) (key : Str) (now : Instant) : Bool × LoginAttempts :=
  let kept := limiter.active attempts key now
  (decide (kept.length < limiter.limit), toEnd (limiter.room attempts key) key kept)

/-- `record_failure`. -/
def recordFailure (attempts : LoginAttempts) (key : Str) (now : Instant) : LoginAttempts :=
  toEnd (limiter.room attempts key) key (limiter.active attempts key now ++ [now])

/-- `clear`. -/
def clear (attempts : LoginAttempts) (key : Str) : LoginAttempts := Entries.erase attempts key

/-- The table after a call. -/
def after (attempts : LoginAttempts) : LimiterCall → LoginAttempts
  | .allow key now => (limiter.allow attempts key now).2
  | .recordFailure key now => limiter.recordFailure attempts key now
  | .clear key => clear attempts key

end LoginRateLimiter

/-- A limiter in use: its table, the last clock reading and the calls so far. -/
structure LimiterState where
  attempts : LoginAttempts := []
  now : Instant
  calls : List LimiterCall := []
deriving DecidableEq

/-- The failures that calls record, after the last one that clears them. -/
def failures (calls : List LimiterCall) : List Instant :=
  calls.foldl (fun times call =>
    match call with
    | .allow _ _ => times
    | .recordFailure _ now => times ++ [now]
    | .clear _ => []) []

/-- The failures of a key, from its own calls. -/
def ownFailures (calls : List LimiterCall) (key : Str) : List Instant :=
  failures (calls.filter fun call => call.key = key)

namespace LoginRateLimiter

variable (limiter : LoginRateLimiter)

/-- The state after a call. -/
def called (s : LimiterState) (call : LimiterCall) : LimiterState where
  attempts := limiter.after s.attempts call
  now := (call.now?.map fun now => max s.now now).getD s.now
  calls := s.calls ++ [call]

/-- Calls with a clock that does not go back. -/
def machine : Machine LimiterState LimiterCall where
  initial s := s.attempts = [] ∧ s.calls = []
  step s call s' := (∀ now ∈ call.now?, s.now ≤ now) ∧ s' = limiter.called s call

/-- A call evicts no key that has attempts in its window. -/
def KeepsLive (s : LimiterState) (call : LimiterCall) : Prop :=
  ∀ now ∈ call.now?, limiter.full s.attempts call.key = true →
    ∀ key ∈ evicted s.attempts, live (max s.now now - limiter.window) (times s.attempts key) = []

instance (s : LimiterState) (call : LimiterCall) : Decidable (limiter.KeepsLive s call) :=
  inferInstanceAs (Decidable (∀ now ∈ call.now?, _ → ∀ key ∈ evicted s.attempts,
    live (max s.now now - limiter.window) (times s.attempts key) = []))

end LoginRateLimiter

/-- `AdminActionRateLimiter`, with the settings that its constructor accepts. -/
structure AdminActionRateLimiter where
  capacity : Nat := 10
  window : ℚ := 60
  maxKeys : Nat := 10000
  capacity_pos : 0 < capacity
  window_pos : 0 < window
  keys_pos : 0 < maxKeys

/-- `_entries`, in insertion order. -/
abbrev ActionEntries := Entries Str (List ℚ)

namespace AdminActionRateLimiter

variable (limiter : AdminActionRateLimiter)

/-- A key that the table does not hold needs room. -/
def full (entries : ActionEntries) (key : Str) : Bool :=
  !Entries.has entries key && decide (limiter.maxKeys ≤ entries.length)

/-- The key with the oldest first attempt. -/
def oldest (entries : ActionEntries) : Option Str :=
  (entries.argmin fun e => e.2.headD 0).map Prod.fst

/-- The table with room for a key; `none` is the `IndexError` of a key without attempts. -/
def room (entries : ActionEntries) (key : Str) : Option ActionEntries :=
  if limiter.full entries key then
    if entries.any fun e => e.2.isEmpty then none
    else (oldest entries).map fun victim => Entries.erase entries victim
  else some entries

/-- `allow`; `none` is an `IndexError`. -/
def allow (entries : ActionEntries) (key : Str) (now : ℚ) : Option (Bool × ActionEntries) :=
  (limiter.room entries key).map fun kept =>
    let values := expire (now - limiter.window) (times kept key)
    if limiter.capacity ≤ values.length then (false, Entries.set kept key values)
    else (true, Entries.set kept key (values ++ [now]))

end AdminActionRateLimiter

/-- A call of `AdminActionRateLimiter.allow`, with its reading of the clock. -/
structure ActionCall where
  key : Str
  now : ℚ
deriving DecidableEq

/-- A limiter in use: its table, the last clock reading and the calls so far. -/
structure ActionState where
  entries : ActionEntries := []
  now : ℚ
  calls : List ActionCall := []
deriving DecidableEq

namespace AdminActionRateLimiter

variable (limiter : AdminActionRateLimiter)

/-- The calls that are allowed, from the calls of one key. -/
def grants (calls : List ActionCall) : List ℚ :=
  calls.foldl (fun granted call =>
    if (live (call.now - limiter.window) granted).length < limiter.capacity then
      granted ++ [call.now]
    else granted) []

/-- The calls of a key that are allowed, from its own calls. -/
def ownGrants (calls : List ActionCall) (key : Str) : List ℚ :=
  limiter.grants (calls.filter fun call => call.key = key)

/-- Calls with a clock that does not go back. -/
def machine : Machine ActionState ActionCall where
  initial s := s.entries = [] ∧ s.calls = []
  step s call s' := s.now ≤ call.now ∧
    ∃ granted entries, limiter.allow s.entries call.key call.now = some (granted, entries) ∧
      s' = ⟨entries, call.now, s.calls ++ [call]⟩

/-- A call evicts no key that has attempts in its window. -/
def KeepsLive (s : ActionState) (call : ActionCall) : Prop :=
  limiter.full s.entries call.key = true →
    ∀ key ∈ oldest s.entries, live (call.now - limiter.window) (times s.entries key) = []

instance (s : ActionState) (call : ActionCall) : Decidable (limiter.KeepsLive s call) :=
  inferInstanceAs (Decidable (_ → ∀ key ∈ oldest s.entries,
    live (call.now - limiter.window) (times s.entries key) = []))

end AdminActionRateLimiter

section Failures

variable (calls : List LimiterCall) (key : Str) (now : Instant)

theorem ownFailures_of_ne {call : LimiterCall} (h : call.key ≠ key) :
    ownFailures (calls ++ [call]) key = ownFailures calls key := by
  unfold ownFailures
  rw [List.filter_append, List.filter_singleton, decide_eq_false h]
  simp

theorem ownFailures_append {call : LimiterCall} (h : call.key = key) :
    ownFailures (calls ++ [call]) key =
      failures ((calls.filter fun call => call.key = key) ++ [call]) := by
  unfold ownFailures
  rw [List.filter_append, List.filter_singleton, decide_eq_true h]
  rfl

theorem ownFailures_allow : ownFailures (calls ++ [.allow key now]) key = ownFailures calls key := by
  rw [ownFailures_append calls key rfl, failures, List.foldl_append]
  rfl

theorem ownFailures_recordFailure : ownFailures (calls ++ [.recordFailure key now]) key =
    ownFailures calls key ++ [now] := by
  rw [ownFailures_append calls key rfl, failures, List.foldl_append]
  rfl

theorem ownFailures_clear : ownFailures (calls ++ [.clear key]) key = [] := by
  rw [ownFailures_append calls key rfl, failures, List.foldl_append]
  rfl

end Failures

namespace LoginRateLimiter

variable {limiter : LoginRateLimiter} {attempts : LoginAttempts} {key : Str} {now : Instant}

/-- The first entry is the one that is popped. -/
theorem tail_eq_erase {e : Str × List Instant} {rest : LoginAttempts}
    (hkeys : (Entries.keys (e :: rest)).Nodup) : rest = Entries.erase (e :: rest) e.1 := by
  obtain ⟨hnot, -⟩ := List.nodup_cons.mp hkeys
  unfold Entries.erase
  rw [List.filter_cons_of_neg (by simp)]
  symm
  apply List.filter_eq_self.mpr
  intro e' he'
  apply decide_eq_true
  intro heq
  apply hnot
  rw [← heq]
  exact List.mem_map_of_mem he'

/-- Room for a key is made by evicting at most one key, which is another one. -/
theorem room_cases (hkeys : (Entries.keys attempts).Nodup) :
    limiter.room attempts key = attempts ∨
      ∃ victim, limiter.full attempts key = true ∧ victim ∈ evicted attempts ∧ victim ≠ key ∧
        limiter.room attempts key = Entries.erase attempts victim := by
  unfold room
  split
  · next hfull =>
      cases attempts with
      | nil => exact .inl rfl
      | cons e rest =>
          obtain ⟨first, recent⟩ := e
          refine .inr ⟨first, hfull, rfl, ?_, tail_eq_erase hkeys⟩
          rintro rfl
          simp [full, Entries.has] at hfull
  · exact .inl rfl

theorem times_room (hkeys : (Entries.keys attempts).Nodup) :
    times (limiter.room attempts key) key = times attempts key := by
  rcases @room_cases limiter attempts key hkeys with hsame | ⟨victim, -, -, hne, heq⟩
  · rw [hsame]
  · rw [heq, times_erase_of_ne (Ne.symm hne)]

theorem allow_eq (attempts : LoginAttempts) (key : Str) (now : Instant) :
    (limiter.allow attempts key now).1 =
      decide ((limiter.active attempts key now).length < limiter.limit) := rfl

/-- What a limiter knows after calls that evict no live key. -/
structure Sound (limiter : LoginRateLimiter) (s : LimiterState) : Prop where
  keys : (Entries.keys s.attempts).Nodup
  past : ∀ key, ∀ t ∈ times s.attempts key, t ≤ s.now
  remembers : Remembers (s.now - limiter.window) s.attempts (ownFailures s.calls)

variable {s : LimiterState} {call : LimiterCall}

theorem Sound.later (h : limiter.Sound s) (hnow : s.now ≤ now) :
    limiter.Sound ⟨s.attempts, now, s.calls⟩ :=
  ⟨h.keys, fun k t ht => (h.past k t ht).trans hnow,
    h.remembers.mono (Int.sub_le_sub_right hnow limiter.window)⟩

/-- The table with room for the key of a call. -/
theorem Sound.room (h : limiter.Sound s)
    (hlive : limiter.full s.attempts key = true → ∀ victim ∈ evicted s.attempts,
      live (max s.now now - limiter.window) (times s.attempts victim) = []) :
    limiter.Sound ⟨limiter.room s.attempts key, max s.now now, s.calls⟩ := by
  have hlater := h.later (le_max_left s.now now)
  rcases @room_cases limiter s.attempts key h.keys with hsame | ⟨victim, hfull, hmem, -, heq⟩
  · rw [hsame]
    exact hlater
  · rw [heq]
    refine ⟨Entries.nodup_erase h.keys victim, ?_, hlater.remembers.evict (hlive hfull victim hmem)⟩
    intro k t ht
    change t ∈ times (Entries.erase s.attempts victim) k at ht
    by_cases hk : k = victim
    · subst hk
      rw [times_erase_self] at ht
      cases ht
    · rw [times_erase_of_ne hk] at ht
      exact hlater.past k t ht

/-- An entry that is written at the end of the table. -/
theorem Sound.toEnd (h : limiter.Sound s) {kept : List Instant}
    (hkept : kept.Pairwise (· ≤ ·)) (hpast : ∀ t ∈ kept, t ≤ s.now)
    (hother : ∀ k, k ≠ call.key → ownFailures (s.calls ++ [call]) k = ownFailures s.calls k)
    (hlive : live (s.now - limiter.window) kept =
      live (s.now - limiter.window) (ownFailures (s.calls ++ [call]) call.key)) :
    limiter.Sound ⟨WindowTable.toEnd s.attempts call.key kept, s.now, s.calls ++ [call]⟩ := by
  refine ⟨Entries.nodup_erase_append h.keys call.key kept, ?_, ?_⟩
  · intro k t ht
    change t ∈ times (WindowTable.toEnd s.attempts call.key kept) k at ht
    by_cases hk : k = call.key
    · subst hk
      rw [times_toEnd_self] at ht
      exact hpast t ht
    · rw [times_toEnd_of_ne hk] at ht
      exact h.past k t ht
  · exact h.remembers.write (times_toEnd_self s.attempts call.key kept)
      (fun _ hk => times_toEnd_of_ne hk) hlive hkept hother

theorem ownFailures_other (calls : List LimiterCall) (call : LimiterCall) (k : Str)
    (hk : k ≠ call.key) : ownFailures (calls ++ [call]) k = ownFailures calls k :=
  ownFailures_of_ne calls k (Ne.symm hk)

/-- `allow`, at a reading that is not before the last one. -/
theorem Sound.allow (h : limiter.Sound s) (hnow : s.now ≤ now)
    (hlive : limiter.KeepsLive s (.allow key now)) :
    limiter.Sound (limiter.called s (.allow key now)) := by
  have hroom : limiter.Sound ⟨limiter.room s.attempts key, max s.now now, s.calls⟩ :=
    h.room (hlive now rfl)
  have hmax : max s.now now = now := max_eq_right hnow
  apply @Sound.toEnd limiter _ (.allow key now) hroom _ _ _ (ownFailures_other s.calls _)
  · change live (max s.now now - limiter.window) (expire (now - limiter.window) _) =
      live _ (ownFailures (s.calls ++ [.allow key now]) key)
    rw [hmax, live_expire, ownFailures_allow]
    have hkept := hroom.remembers.live key
    rw [hmax] at hkept
    exact hkept
  · exact (hroom.remembers.sorted key).sublist (expire_sublist _ _)
  · intro t ht
    exact hroom.past key t ((expire_sublist _ _).subset ht)

/-- `record_failure`, at a reading that is not before those of the key. -/
theorem Sound.recordFailure (h : limiter.Sound s) (hkey : ∀ t ∈ times s.attempts key, t ≤ now)
    (hlive : limiter.KeepsLive s (.recordFailure key now)) :
    limiter.Sound (limiter.called s (.recordFailure key now)) := by
  have hroom : limiter.Sound ⟨limiter.room s.attempts key, max s.now now, s.calls⟩ :=
    h.room (hlive now rfl)
  have hle : now - limiter.window ≤ max s.now now - limiter.window :=
    Int.sub_le_sub_right (le_max_right _ _) limiter.window
  have hactive : ∀ t ∈ limiter.active s.attempts key now, t ≤ now := by
    intro t ht
    apply hkey
    rw [← @times_room limiter s.attempts key h.keys]
    exact (expire_sublist _ _).subset ht
  apply @Sound.toEnd limiter _ (.recordFailure key now) hroom _ _ _ (ownFailures_other s.calls _)
  · change live (max s.now now - limiter.window) (expire (now - limiter.window) _ ++ [now]) =
      live _ (ownFailures (s.calls ++ [.recordFailure key now]) key)
    rw [live_append, live_expire_of_le hle, ownFailures_recordFailure, live_append]
    congr 1
    exact hroom.remembers.live key
  · rw [List.pairwise_append]
    refine ⟨(hroom.remembers.sorted key).sublist (expire_sublist _ _), by simp, ?_⟩
    intro t ht u hu
    rw [List.mem_singleton.mp hu]
    exact hactive t ht
  · intro t ht
    rcases List.mem_append.mp ht with hold | hnew
    · exact (hactive t hold).trans (le_max_right _ _)
    · rw [List.mem_singleton.mp hnew]
      exact le_max_right _ _

/-- `clear`. -/
theorem Sound.clear (h : limiter.Sound s) (key : Str) :
    limiter.Sound (limiter.called s (.clear key)) := by
  refine ⟨Entries.nodup_erase h.keys key, ?_, ?_⟩
  · intro k t ht
    change t ∈ times (Entries.erase s.attempts key) k at ht
    by_cases hk : k = key
    · subst hk
      rw [times_erase_self] at ht
      cases ht
    · rw [times_erase_of_ne hk] at ht
      exact h.past k t ht
  · apply h.remembers.write (times_erase_self s.attempts key)
      (fun _ hk => times_erase_of_ne hk) _ List.Pairwise.nil
      (ownFailures_other s.calls (.clear key))
    change [] = live _ (ownFailures (s.calls ++ [.clear key]) key)
    rw [ownFailures_clear]
    rfl

/-- A call that evicts no live key keeps what the limiter knows. -/
theorem Sound.step (h : limiter.Sound s) (hnow : ∀ now ∈ call.now?, s.now ≤ now)
    (hlive : limiter.KeepsLive s call) : limiter.Sound (limiter.called s call) := by
  cases call with
  | allow key now => exact h.allow (hnow now rfl) hlive
  | recordFailure key now =>
      exact h.recordFailure (fun t ht => (h.past key t ht).trans (hnow now rfl)) hlive
  | clear key => exact h.clear key

/-- What a limiter knows after a run whose calls evict no live key. -/
theorem sound_of_reachable (h : limiter.machine.Reachable limiter.KeepsLive s) :
    limiter.Sound s := by
  apply h.invariant
  · rintro s ⟨hattempts, hcalls⟩
    refine ⟨?_, ?_, ?_⟩
    · rw [hattempts]
      exact List.nodup_nil
    · rw [hattempts]
      intro key t ht
      cases ht
    · rw [hattempts, hcalls]
      exact Remembers.nil _
  · rintro s call s' hs hallowed ⟨hnow, rfl⟩
    exact hs.step hnow hallowed

/-- The answer for a key counts its own failures. -/
theorem Sound.allow_eq (h : limiter.Sound s) (key : Str) (hnow : s.now ≤ now) :
    (limiter.allow s.attempts key now).1 =
      decide ((live (now - limiter.window) (ownFailures s.calls key)).length < limiter.limit) := by
  have hle : s.now - limiter.window ≤ now - limiter.window :=
    Int.sub_le_sub_right hnow limiter.window
  have hactive : limiter.active s.attempts key now =
      live (now - limiter.window) (ownFailures s.calls key) :=
    calc limiter.active s.attempts key now
        = expire (now - limiter.window) (times s.attempts key) := by
          rw [active, times_room h.keys]
      _ = live (now - limiter.window) (ownFailures s.calls key) :=
          (h.remembers.mono hle).expire_times key
  rw [LoginRateLimiter.allow_eq, hactive]

end LoginRateLimiter

namespace AdminActionRateLimiter

variable {limiter : AdminActionRateLimiter} {entries : ActionEntries} {key : Str} {now : ℚ}

theorem ownGrants_of_ne (calls : List ActionCall) {call : ActionCall} (h : call.key ≠ key) :
    limiter.ownGrants (calls ++ [call]) key = limiter.ownGrants calls key := by
  unfold ownGrants
  rw [List.filter_append, List.filter_singleton, decide_eq_false h]
  simp

/-- A call is granted if too few of its key are live. -/
theorem ownGrants_self (calls : List ActionCall) (key : Str) (now : ℚ) :
    limiter.ownGrants (calls ++ [⟨key, now⟩]) key =
      if (live (now - limiter.window) (limiter.ownGrants calls key)).length < limiter.capacity then
        limiter.ownGrants calls key ++ [now]
      else limiter.ownGrants calls key := by
  unfold ownGrants
  rw [List.filter_append, List.filter_singleton, decide_eq_true rfl, grants, List.foldl_append]
  rfl

/-- What a limiter knows after calls that evict no live key. -/
structure Sound (limiter : AdminActionRateLimiter) (s : ActionState) : Prop where
  filled : ∀ e ∈ s.entries, e.2 ≠ []
  past : ∀ key, ∀ t ∈ times s.entries key, t ≤ s.now
  remembers : Remembers (s.now - limiter.window) s.entries (limiter.ownGrants s.calls)
  bounded : ∀ key,
    (live (s.now - limiter.window) (limiter.ownGrants s.calls key)).length ≤ limiter.capacity

variable {s : ActionState}

/-- Room for a key is made by evicting at most one key, which is another one. -/
theorem Sound.room_cases (h : limiter.Sound s) (key : Str) :
    limiter.room s.entries key = some s.entries ∨
      ∃ victim, limiter.full s.entries key = true ∧ victim ∈ oldest s.entries ∧ victim ≠ key ∧
        limiter.room s.entries key = some (Entries.erase s.entries victim) := by
  unfold AdminActionRateLimiter.room
  by_cases hfull : limiter.full s.entries key = true
  · have hsome : s.entries.any (fun e => e.2.isEmpty) = false := by
      rw [List.any_eq_false]
      intro e he hempty
      exact h.filled e he (List.isEmpty_iff.mp hempty)
    have hcapacity := hfull
    simp only [full, Bool.and_eq_true, Bool.not_eq_true', decide_eq_true_eq] at hcapacity
    obtain ⟨hnot, hlength⟩ := hcapacity
    cases hfirst : s.entries.argmin fun e => e.2.headD 0 with
    | none =>
        rw [List.argmin_eq_none] at hfirst
        rw [hfirst] at hlength
        exact absurd hlength (Nat.not_le_of_gt limiter.keys_pos)
    | some e =>
        have hvictim : oldest s.entries = some e.1 := by
          rw [oldest, hfirst, Option.map_some]
        refine .inr ⟨e.1, hfull, hvictim, ?_, ?_⟩
        · rintro rfl
          have hmem := List.argmin_mem (Option.mem_def.mpr hfirst)
          rw [Entries.has_iff.mpr (List.mem_map_of_mem hmem)] at hnot
          cases hnot
        · rw [if_pos hfull, hsome, hvictim]
          rfl
  · exact .inl (if_neg hfull)

/-- Room is there, and the times of the key are as before. -/
theorem Sound.room_eq (h : limiter.Sound s) (key : Str) :
    ∃ kept, limiter.room s.entries key = some kept ∧ times kept key = times s.entries key := by
  rcases h.room_cases key with hsame | ⟨victim, -, -, hne, heq⟩
  · exact ⟨s.entries, hsame, rfl⟩
  · exact ⟨Entries.erase s.entries victim, heq, times_erase_of_ne (Ne.symm hne)⟩

theorem Sound.later (h : limiter.Sound s) (hnow : s.now ≤ now) :
    limiter.Sound ⟨s.entries, now, s.calls⟩ := by
  have hle : s.now - limiter.window ≤ now - limiter.window := sub_le_sub_right hnow limiter.window
  exact ⟨h.filled, fun k t ht => (h.past k t ht).trans hnow, h.remembers.mono hle,
    fun key => (length_live_le_of_le hle _).trans (h.bounded key)⟩

/-- The table with room for the key of a call that evicts no live key. -/
theorem Sound.room (h : limiter.Sound s) (key : Str) (hnow : s.now ≤ now)
    (hlive : limiter.KeepsLive s ⟨key, now⟩) {kept : ActionEntries}
    (hkept : limiter.room s.entries key = some kept) :
    limiter.Sound ⟨kept, now, s.calls⟩ := by
  have hlater := h.later hnow
  rcases h.room_cases key with hsame | ⟨victim, hfull, hvictim, -, heq⟩
  · rw [hsame] at hkept
    cases hkept
    exact hlater
  · rw [heq] at hkept
    cases hkept
    refine ⟨?_, ?_, hlater.remembers.evict (hlive hfull victim hvictim), hlater.bounded⟩
    · intro e he
      exact h.filled e (Entries.mem_erase.mp he).1
    · intro k t ht
      change t ∈ times (Entries.erase s.entries victim) k at ht
      by_cases hk : k = victim
      · rw [hk, times_erase_self] at ht
        cases ht
      · rw [times_erase_of_ne hk] at ht
        exact hlater.past k t ht

/-- An entry that is written. -/
theorem Sound.set (h : limiter.Sound s) {kept : List ℚ} (hfilled : kept ≠ [])
    (hkept : kept.Pairwise (· ≤ ·)) (hpast : ∀ t ∈ kept, t ≤ s.now)
    (hlength : kept.length ≤ limiter.capacity)
    (hlive : live (s.now - limiter.window) kept =
      live (s.now - limiter.window) (limiter.ownGrants (s.calls ++ [⟨key, s.now⟩]) key)) :
    limiter.Sound ⟨Entries.set s.entries key kept, s.now, s.calls ++ [⟨key, s.now⟩]⟩ := by
  refine ⟨?_, ?_, ?_, ?_⟩
  · intro e he
    rcases Entries.mem_set he with rfl | hold
    · exact hfilled
    · exact h.filled e hold
  · intro k t ht
    change t ∈ times (Entries.set s.entries key kept) k at ht
    by_cases hk : k = key
    · rw [hk, times_set_self] at ht
      exact hpast t ht
    · rw [times_set_of_ne hk] at ht
      exact h.past k t ht
  · exact h.remembers.write (times_set_self s.entries key kept)
      (fun _ hk => times_set_of_ne hk) hlive hkept
      (fun k hk => ownGrants_of_ne s.calls (Ne.symm hk))
  · intro k
    by_cases hk : k = key
    · rw [hk, ← hlive]
      exact (length_live_le _ kept).trans hlength
    · rw [ownGrants_of_ne s.calls (Ne.symm hk)]
      exact h.bounded k

/-- The answer for a key counts the grants of its own calls. -/
theorem Sound.allow_fst (h : limiter.Sound s) (key : Str) (hnow : s.now ≤ now) :
    (limiter.allow s.entries key now).map Prod.fst =
      some (decide ((live (now - limiter.window) (limiter.ownGrants s.calls key)).length <
        limiter.capacity)) := by
  obtain ⟨kept, hroom, htimes⟩ := h.room_eq key
  have hvalues : expire (now - limiter.window) (times kept key) =
      live (now - limiter.window) (limiter.ownGrants s.calls key) := by
    rw [htimes]
    exact (h.later hnow).remembers.expire_times key
  unfold AdminActionRateLimiter.allow
  rw [hroom, Option.map_some, Option.map_some, hvalues]
  by_cases hfew : (live (now - limiter.window) (limiter.ownGrants s.calls key)).length <
      limiter.capacity
  · rw [if_neg (Nat.not_le_of_gt hfew), decide_eq_true hfew]
  · rw [if_pos (Nat.le_of_not_gt hfew), decide_eq_false hfew]

/-- A call that evicts no live key keeps what the limiter knows. -/
theorem Sound.allow (h : limiter.Sound s) (key : Str) (hnow : s.now ≤ now)
    (hlive : limiter.KeepsLive s ⟨key, now⟩) {granted : Bool} {entries : ActionEntries}
    (hallow : limiter.allow s.entries key now = some (granted, entries)) :
    limiter.Sound ⟨entries, now, s.calls ++ [⟨key, now⟩]⟩ := by
  obtain ⟨kept, hroom, -⟩ := h.room_eq key
  have hkept := h.room key hnow hlive hroom
  have hvalues : expire (now - limiter.window) (times kept key) =
      live (now - limiter.window) (limiter.ownGrants s.calls key) := hkept.remembers.expire_times key
  have hsorted : (expire (now - limiter.window) (times kept key)).Pairwise (· ≤ ·) :=
    (hkept.remembers.sorted key).sublist (expire_sublist _ _)
  have hpast : ∀ t ∈ expire (now - limiter.window) (times kept key), t ≤ now :=
    fun t ht => hkept.past key t ((expire_sublist _ _).subset ht)
  have hgrants := @ownGrants_self limiter s.calls key now
  simp only [AdminActionRateLimiter.allow, hroom, Option.map_some, Option.some.injEq] at hallow
  by_cases hfew : (live (now - limiter.window) (limiter.ownGrants s.calls key)).length <
      limiter.capacity
  · rw [if_neg (by rw [hvalues]; exact Nat.not_le_of_gt hfew)] at hallow
    cases hallow
    rw [if_pos hfew] at hgrants
    apply hkept.set (by simp)
    · rw [List.pairwise_append]
      refine ⟨hsorted, by simp, ?_⟩
      intro t ht u hu
      rw [List.mem_singleton.mp hu]
      exact hpast t ht
    · intro t ht
      rcases List.mem_append.mp ht with hold | hnew
      · exact hpast t hold
      · exact (List.mem_singleton.mp hnew).le
    · rw [List.length_append, hvalues]
      exact hfew
    · rw [hgrants, live_append, live_append, live_expire]
      congr 1
      exact hkept.remembers.live key
  · rw [if_pos (by rw [hvalues]; exact Nat.le_of_not_gt hfew)] at hallow
    cases hallow
    rw [if_neg hfew] at hgrants
    apply hkept.set _ hsorted hpast
    · rw [hvalues]
      exact hkept.bounded key
    · rw [hgrants, live_expire]
      exact hkept.remembers.live key
    · intro hnil
      rw [hvalues] at hnil
      rw [hnil] at hfew
      exact hfew (by simpa using limiter.capacity_pos)

/-- What a limiter knows after a run whose calls evict no live key. -/
theorem sound_of_reachable (h : limiter.machine.Reachable limiter.KeepsLive s) :
    limiter.Sound s := by
  apply h.invariant
  · rintro s ⟨hentries, hcalls⟩
    refine ⟨?_, ?_, ?_, ?_⟩
    · rw [hentries]
      intro e he
      cases he
    · rw [hentries]
      intro key t ht
      cases ht
    · rw [hentries, hcalls]
      exact Remembers.nil _
    · rw [hcalls]
      exact fun _ => Nat.zero_le _
  · rintro s ⟨key, time⟩ s' hs hallowed ⟨hnow, granted, entries, hallow, rfl⟩
    exact hs.allow key hnow hallowed hallow

end AdminActionRateLimiter

/-- In every run of a limiter whose calls evict no live key, the answer for a key counts what its
own calls have left in the window, and the number of calls granted in a window is limited. -/
theorem limiters_count_own_calls (key : Str) :
    (∀ (limiter : LoginRateLimiter) (s : LimiterState),
      limiter.machine.Reachable limiter.KeepsLive s → ∀ now, s.now ≤ now →
        (limiter.allow s.attempts key now).1 = decide
          ((live (now - limiter.window) (ownFailures s.calls key)).length < limiter.limit)) ∧
    (∀ (limiter : AdminActionRateLimiter) (s : ActionState),
      limiter.machine.Reachable limiter.KeepsLive s → ∀ now, s.now ≤ now →
        (limiter.allow s.entries key now).map Prod.fst =
          some (decide ((live (now - limiter.window) (limiter.ownGrants s.calls key)).length <
            limiter.capacity)) ∧
        (live (now - limiter.window) (limiter.ownGrants s.calls key)).length ≤
          limiter.capacity) := by
  constructor
  · intro limiter s h now hnow
    exact (LoginRateLimiter.sound_of_reachable h).allow_eq key hnow
  · intro limiter s h now hnow
    have hsound := AdminActionRateLimiter.sound_of_reachable h
    exact ⟨hsound.allow_fst key hnow, (hsound.later hnow).bounded key⟩

section Samples

/-- One failure in ten time units, for one key. -/
def sampleLoginLimiter : LoginRateLimiter where
  limit := 1
  window := 10
  maxKeys := 1
  limit_pos := le_rfl
  window_pos := by decide
  keys_pos := le_rfl

/-- One action in ten seconds, for one key. -/
def sampleActionLimiter : AdminActionRateLimiter where
  capacity := 1
  window := 10
  maxKeys := 1
  capacity_pos := by decide
  window_pos := by decide
  keys_pos := by decide

/-- A limiter that has recorded one failure of `a`. -/
def sampleFailure : LimiterState :=
  sampleLoginLimiter.called ⟨[], 0, []⟩ (.recordFailure (lit "a") 0)

/-- A limiter that has granted one action of `a`. -/
def sampleGrant : ActionState := ⟨[(lit "a", [0])], 0, [⟨lit "a", 0⟩]⟩

theorem reachable_sampleFailure {allowed : LimiterState → LimiterCall → Prop}
    (h : allowed ⟨[], 0, []⟩ (.recordFailure (lit "a") 0)) :
    sampleLoginLimiter.machine.Reachable allowed sampleFailure := by
  have hstart : sampleLoginLimiter.machine.Reachable allowed ⟨[], 0, []⟩ := .start ⟨rfl, rfl⟩
  exact hstart.next h ⟨by decide, rfl⟩

theorem reachable_sampleGrant {allowed : ActionState → ActionCall → Prop}
    (h : allowed ⟨[], 0, []⟩ ⟨lit "a", 0⟩) :
    sampleActionLimiter.machine.Reachable allowed sampleGrant := by
  have hstart : sampleActionLimiter.machine.Reachable allowed ⟨[], 0, []⟩ := .start ⟨rfl, rfl⟩
  exact hstart.next h ⟨by decide, true, _, by decide +kernel, rfl⟩

/-- A second attempt of `a` in the window is refused by both. -/
theorem limiters_count_own_calls_sample :
    (sampleLoginLimiter.allow sampleFailure.attempts (lit "a") 5).1 = false ∧
      (sampleActionLimiter.allow sampleGrant.entries (lit "a") 5).map Prod.fst = some false := by
  have hlogin : sampleLoginLimiter.machine.Reachable sampleLoginLimiter.KeepsLive sampleFailure :=
    reachable_sampleFailure (by decide +kernel)
  have hadmin : sampleActionLimiter.machine.Reachable sampleActionLimiter.KeepsLive sampleGrant :=
    reachable_sampleGrant (by decide +kernel)
  constructor
  · rw [(limiters_count_own_calls (lit "a")).1 _ _ hlogin 5 (by decide)]
    decide +kernel
  · rw [((limiters_count_own_calls (lit "a")).2 _ _ hadmin 5 (by decide +kernel)).1]
    decide +kernel

/-- A key that needs room makes both forget what `a` has done in its window. -/
theorem limiters_forget_evicted :
    (¬ ∀ (limiter : LoginRateLimiter) (s : LimiterState),
      limiter.machine.Reachable Machine.anyStep s → ∀ key now, s.now ≤ now →
        (limiter.allow s.attempts key now).1 = decide
          ((live (now - limiter.window) (ownFailures s.calls key)).length < limiter.limit)) ∧
    ¬ ∀ (limiter : AdminActionRateLimiter) (s : ActionState),
      limiter.machine.Reachable Machine.anyStep s → ∀ key now, s.now ≤ now →
        (limiter.allow s.entries key now).map Prod.fst =
          some (decide ((live (now - limiter.window) (limiter.ownGrants s.calls key)).length <
            limiter.capacity)) := by
  constructor
  · intro h
    have hsecond : sampleLoginLimiter.machine.Reachable Machine.anyStep
        (sampleLoginLimiter.called sampleFailure (.allow (lit "b") 1)) :=
      (reachable_sampleFailure trivial).next trivial ⟨by decide, rfl⟩
    have hanswer := h _ _ hsecond (lit "a") 2 (by decide)
    revert hanswer
    decide +kernel
  · intro h
    have hsecond : sampleActionLimiter.machine.Reachable Machine.anyStep
        ⟨[(lit "b", [1])], 1, [⟨lit "a", 0⟩, ⟨lit "b", 1⟩]⟩ :=
      (reachable_sampleGrant trivial).next (e := ⟨lit "b", 1⟩) trivial
        ⟨by decide, true, _, by decide +kernel, rfl⟩
    have hanswer := h _ _ hsecond (lit "a") 2 (by decide +kernel)
    revert hanswer
    decide +kernel

end Samples

end MediaBridge.Control
