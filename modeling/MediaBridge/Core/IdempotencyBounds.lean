import MediaBridge.Core.Idempotency

/-!
# How much an idempotency store keeps

The number of cached entries is bounded by the settings. The number of locks is not: a lock is
made for each key that is not refused, and is never removed.
-/

namespace MediaBridge.Core

open Foundation

namespace IdempotencyStore

variable {V : Type} {entries : Entries Str (IdempotencyEntry V)} {maxEntries : Int}

/-- An entry is found unless there is none. -/
theorem oldest?_isSome {e : Str × IdempotencyEntry V} (h : e ∈ entries) :
    ∃ oldest, oldest? entries = some oldest := by
  cases entries with
  | nil => cases h
  | cons first rest =>
      rw [oldest?]
      split
      · exact ⟨_, rfl⟩
      · split
        · exact ⟨_, rfl⟩
        · exact ⟨_, rfl⟩

/-- Removing an entry that is there makes the store smaller. -/
theorem length_erase_lt {e : Str × IdempotencyEntry V} (h : e ∈ entries) :
    (Entries.erase entries e.1).length < entries.length := by
  unfold Entries.erase
  rw [List.length_filter_lt_length_iff_exists]
  exact ⟨e, h, by simp⟩

/-- Enough rounds trim the entries to the limit. -/
theorem length_trimFrom_le {rounds : Nat} (h : entries.length ≤ rounds) :
    ((trimFrom maxEntries rounds entries).2.length : Int) ≤ max 0 maxEntries := by
  induction rounds generalizing entries with
  | zero =>
      rw [trimFrom, Nat.le_zero.mp h]
      exact le_max_left _ _
  | succ rounds ih =>
      rw [trimFrom]
      split
      · rename_i hfits
        exact hfits.trans (le_max_right _ _)
      · cases holdest : oldest? entries with
        | some e =>
            apply ih
            have hlt := length_erase_lt (mem_of_oldest? holdest)
            omega
        | none =>
            cases entries with
            | nil => exact le_max_left _ _
            | cons e rest =>
                obtain ⟨other, hother⟩ := oldest?_isSome (List.mem_cons_self (a := e) (l := rest))
                rw [holdest] at hother
                cases hother

theorem length_trim_le : ((trim maxEntries entries).2.length : Int) ≤ max 0 maxEntries :=
  length_trimFrom_le le_rfl

end IdempotencyStore

namespace StoreState

variable {V ω : Type} {settings : IdempotencyStore} {eval : ω → ℚ → Option V}
  {s s' : StoreState V ω} {event : StoreEvent ω}

/-- The number of calls that have not returned. -/
def inProgress (s : StoreState V ω) : Nat := s.calls.countP fun call => call.phase.inProgress

/-- The entries and the locks are at most the limit and the calls in progress. -/
structure Bounded (settings : IdempotencyStore) (s : StoreState V ω) : Prop where
  entries : (s.entries.length : Int) ≤ settings.maxEntries + s.inProgress
  locks : (s.locks.length : Int) ≤ settings.maxEntries + s.inProgress

/-- No two operations of a key run at the same time. -/
def Exclusive (s : StoreState V ω) : Prop :=
  ∀ (i j : Nat) (call other : StoreCall V), s.calls[i]? = some call →
    s.calls[j]? = some other → call.key = other.key → call.phase = .running →
    other.phase = .running → i = j

theorem Sound.exclusive_running (h : Sound eval s) : s.Exclusive := by
  intro i j call other hi hj hkey hrun hrun'
  refine h.exclusive i j call other hi hj hkey ?_ ?_
  · rw [hrun]
    rfl
  · rw [hrun']
    rfl

/-- There is one lock for each key that was not refused. -/
theorem Sound.length_locks (h : Sound eval s) : s.locks.length = s.passed.toFinset.card := by
  rw [← List.toFinset_card_of_nodup h.locks_nodup]
  congr 1
  ext key
  rw [List.mem_toFinset, List.mem_toFinset]
  exact h.locks_passed key

/-- Each entry has a lock. -/
theorem Sound.length_entries_le (h : Sound eval s) : s.entries.length ≤ s.locks.length := by
  have hsub : s.entries.length = (Entries.keys s.entries).length := (List.length_map _).symm
  rw [hsub]
  exact (List.subperm_of_subset h.entries_nodup h.entries_locked).length_le

/-- The cached entries are always bounded. -/
theorem length_entries_le (h : (machine settings eval).Reachable Machine.anyStep s) :
    (s.entries.length : Int) ≤ max 0 settings.maxEntries := by
  refine h.invariant (I := fun s => (s.entries.length : Int) ≤ max 0 settings.maxEntries) ?_ ?_
  · rintro s rfl
    exact le_max_left _ _
  · intro s event s' hs _ hstep
    have hpurged (now : ℚ) : ((s.purged now).entries.length : Int) ≤ max 0 settings.maxEntries :=
      (Int.ofNat_le.mpr (IdempotencyStore.purge_sublist now).length_le).trans hs
    cases moves_of_step hstep with
    | refused => exact hs
    | conflicts => exact hpurged _
    | passes => exact hpurged _
    | acquires => exact hs
    | checks => exact hpurged _
    | succeeds => exact hs
    | raises => exact hs
    | stores => exact IdempotencyStore.length_trim_le
    | returns => exact hs

/-- A store stays bounded exactly while the keys that were not refused are at most the limit and
the calls in progress. -/
theorem bounded_iff (h : (machine settings eval).Reachable Machine.anyStep s) :
    (s.Bounded settings ∧ s.Exclusive) ↔
      (s.passed.toFinset.card : Int) ≤ settings.maxEntries + s.inProgress := by
  have hsound := sound_of_reachable h
  rw [← hsound.length_locks, and_iff_left hsound.exclusive_running]
  constructor
  · exact fun hbounded => hbounded.locks
  · intro hlocks
    exact ⟨(Int.ofNat_le.mpr hsound.length_entries_le).trans hlocks, hlocks⟩

/-- A run that can be computed. -/
theorem reachable_of_foldlM {events : List (StoreEvent ω)}
    (h : events.foldlM (step settings eval) {} = some s) :
    (machine settings eval).Reachable Machine.anyStep s :=
  Machine.Reachable.foldlM (fun _ _ _ hstep => ⟨trivial, hstep⟩) (.start rfl) h

/-- A call from its beginning to its return, with an operation that succeeds. -/
def wholeCall (i : Nat) (key : Str) (now : ℚ) (work : ω) : List (StoreEvent ω) :=
  [.begins key (lit "fingerprint") now, .acquires i, .checks i now, .operates i work now,
    .stores i now, .returns i now]

/-- A store of one entry. -/
def oneEntry : IdempotencyStore where
  maxEntries := 1
  ttl_range := by decide +kernel

/-- Two calls with different keys, one after the other. -/
def twoKeys : List (StoreEvent Unit) :=
  wholeCall 0 (lit "a") 0 () ++ wholeCall 1 (lit "b") 1 ()

/-- A store of two entries. -/
def twoEntries : IdempotencyStore where
  maxEntries := 2
  ttl_range := by decide +kernel

/-- The first key is asked for again while its entry is kept. -/
def askedAgain : List (StoreEvent Unit) :=
  twoKeys ++ [.begins (lit "a") (lit "fingerprint") 2, .acquires 2]

/-- Two keys in a store of two entries, one of them again while it is kept. -/
theorem bounded_twoKeys : ∃ s : StoreState Unit Unit,
    askedAgain.foldlM (step twoEntries fun _ _ => some ()) {} = some s ∧
      s.locks.length = 2 ∧ s.Bounded twoEntries ∧ s.Exclusive := by
  have hruns : (askedAgain.foldlM (step twoEntries fun _ _ => some ())
      ({} : StoreState Unit Unit)).map (fun s => (s.locks.length,
        decide ((s.passed.toFinset.card : Int) ≤ twoEntries.maxEntries + s.inProgress))) =
          some (2, true) := by
    decide +kernel
  obtain ⟨s, hs, hcounts⟩ := Option.map_eq_some_iff.mp hruns
  rw [Prod.mk.injEq, decide_eq_true_eq] at hcounts
  exact ⟨s, hs, hcounts.1, (bounded_iff (reachable_of_foldlM hs)).mpr hcounts.2⟩

/-- The locks of two finished calls are both kept. -/
theorem not_bounded : ¬ ∀ (settings : IdempotencyStore) (eval : Unit → ℚ → Option Unit)
    (s : StoreState Unit Unit), (machine settings eval).Reachable Machine.anyStep s →
      s.Bounded settings ∧ s.Exclusive := by
  have hruns : (twoKeys.foldlM (step oneEntry fun _ _ => some ())
      ({} : StoreState Unit Unit)).map (fun s => (s.locks.length, s.inProgress)) =
        some (2, 0) := by
    decide +kernel
  obtain ⟨s, hs, hcounts⟩ := Option.map_eq_some_iff.mp hruns
  intro hall
  have hlocks := (hall oneEntry _ s (reachable_of_foldlM hs)).1.locks
  rw [Prod.mk.injEq] at hcounts
  rw [hcounts.1, hcounts.2] at hlocks
  exact absurd hlocks (by decide)

end StoreState

end MediaBridge.Core
