import MediaBridge.Foundation.Dict
import MediaBridge.Foundation.Runs
import MediaBridge.Foundation.Text
import Mathlib.Algebra.Order.Field.Rat
import Mathlib.Data.Finset.Card
import Mathlib.Tactic.Linarith

/-!
# The idempotency store

`media_bridge/idempotency.py`: work of one key is done by one caller at a time, and its result is
kept for a while.

## Implementation notes

A call of `run` passes two locked sections, waits for the lock of its key between them, and
stores what its operation returns in a third one. `CallPhase` says how far it has come. `work` is
what an operation meets; `eval` is what it makes of it at a reading of the clock.
-/

namespace MediaBridge.Core

open Foundation

/-- `IdempotencyStore`, with the settings that its constructor accepts. -/
structure IdempotencyStore where
  ttlSeconds : ℚ := 300
  maxEntries : Int := 1024
  ttl_range : 1 ≤ ttlSeconds ∧ ttlSeconds ≤ 86400

/-- `_Entry`. -/
structure IdempotencyEntry (V : Type) where
  fingerprint : Str
  value : V
  expiresAt : ℚ

/-- How a call of `run` may fail. -/
inductive IdempotencyError
  | valueError (message : String)
  | conflict
  | operation
deriving DecidableEq

/-- How far a call has come. -/
inductive CallPhase (V : Type)
  /-- It waits for the lock of its key. -/
  | waiting
  /-- It holds the lock, before the second look at the entries. -/
  | holding
  /-- Its operation runs. -/
  | running
  /-- Its operation has returned. -/
  | storing (value : V)
  /-- It has released the lock, but has not returned. -/
  | ending (result : Except IdempotencyError V)
  /-- It has returned, at a reading of the clock. -/
  | returned (result : Except IdempotencyError V) (now : ℚ)

namespace CallPhase

variable {V : Type}

/-- The lock of the key is held. -/
def holdsLock : CallPhase V → Bool
  | .holding => true
  | .running => true
  | .storing _ => true
  | _ => false

/-- The operation runs, or has returned and is not stored. -/
def operating : CallPhase V → Bool
  | .running => true
  | .storing _ => true
  | _ => false

/-- The call has not returned. -/
def inProgress : CallPhase V → Bool
  | .returned _ _ => false
  | _ => true

/-- The call has passed the first look at the entries, and has not failed there. -/
def hasLock : CallPhase V → Bool
  | .waiting => true
  | phase => phase.holdsLock

/-- What the call is about to return, or has returned. -/
def result? : CallPhase V → Option (Except IdempotencyError V)
  | .ending result => some result
  | .returned result _ => some result
  | _ => none

end CallPhase

/-- A call of `run`. -/
structure StoreCall (V : Type) where
  key : Str
  fingerprint : Str
  phase : CallPhase V

/-- An operation that has returned, with what it met. -/
structure Success (V ω : Type) where
  key : Str
  fingerprint : Str
  work : ω
  endedAt : ℚ
  value : V

/-- A store and its calls; `successes` and `passed` say what has happened before. -/
structure StoreState (V ω : Type) where
  clock : ℚ := 0
  entries : Entries Str (IdempotencyEntry V) := []
  locks : List Str := []
  calls : List (StoreCall V) := []
  /-- The operations that have returned, the last one first. -/
  successes : List (Success V ω) := []
  /-- The keys of the calls that were not refused at their first look. -/
  passed : List Str := []

/-- What happens at a store. The `i`-th call goes on, at a reading of the clock. -/
inductive StoreEvent (ω : Type)
  | begins (key fingerprint : Str) (now : ℚ)
  | acquires (i : Nat)
  | checks (i : Nat) (now : ℚ)
  | operates (i : Nat) (work : ω) (now : ℚ)
  | stores (i : Nat) (now : ℚ)
  | returns (i : Nat) (now : ℚ)

/-- The reading of an event. -/
def StoreEvent.reading? {ω : Type} : StoreEvent ω → Option ℚ
  | .begins _ _ now => some now
  | .acquires _ => none
  | .checks _ now => some now
  | .operates _ _ now => some now
  | .stores _ now => some now
  | .returns _ now => some now

namespace IdempotencyStore

variable {V ω : Type}

/-- `_purge_locked`. -/
def purge (now : ℚ) (entries : Entries Str (IdempotencyEntry V)) :
    Entries Str (IdempotencyEntry V) :=
  entries.filter fun e => decide (now < e.2.expiresAt)

/-- `min(self._entries, key=...)`; `none` is its `ValueError`. -/
def oldest? : Entries Str (IdempotencyEntry V) → Option (Str × IdempotencyEntry V)
  | [] => none
  | e :: rest =>
      match oldest? rest with
      | none => some e
      | some other => if other.2.expiresAt < e.2.expiresAt then some other else some e

/-- The loop of `_trim_locked`, which removes an entry in each of its rounds; `false` is the
`ValueError` of an empty store. -/
def trimFrom (maxEntries : Int) :
    Nat → Entries Str (IdempotencyEntry V) → Bool × Entries Str (IdempotencyEntry V)
  | 0, entries => (decide ((entries.length : Int) ≤ maxEntries), entries)
  | rounds + 1, entries =>
      if (entries.length : Int) ≤ maxEntries then (true, entries)
      else
        match oldest? entries with
        | some e => trimFrom maxEntries rounds (Entries.erase entries e.1)
        | none => (false, entries)

/-- `_trim_locked`. -/
def trim (maxEntries : Int) (entries : Entries Str (IdempotencyEntry V)) :
    Bool × Entries Str (IdempotencyEntry V) :=
  trimFrom maxEntries entries.length entries

end IdempotencyStore

namespace StoreState

variable {V ω : Type}

/-- The store without the expired entries, at a reading of the clock. -/
def purged (s : StoreState V ω) (now : ℚ) : StoreState V ω :=
  { s with clock := now, entries := IdempotencyStore.purge now s.entries }

/-- The `i`-th call is in another phase. -/
def setPhase (s : StoreState V ω) (i : Nat) (call : StoreCall V) (phase : CallPhase V) :
    StoreState V ω :=
  { s with calls := s.calls.set i { call with phase := phase } }

/-- The last operation of a key that has returned. -/
def latest? (s : StoreState V ω) (key : Str) : Option (Success V ω) :=
  s.successes.find? fun success => decide (success.key = key)

/-- A call holds the lock of a key. -/
def lockHeld (s : StoreState V ω) (key : Str) : Bool :=
  s.calls.any fun call => decide (call.key = key) && call.phase.holdsLock

/-- The lock of the key is made if there is none, and the call waits for it. -/
def pass (s : StoreState V ω) (key fingerprint : Str) : StoreState V ω :=
  { s with
    locks := if key ∈ s.locks then s.locks else s.locks ++ [key]
    calls := s.calls ++ [⟨key, fingerprint, .waiting⟩]
    passed := s.passed ++ [key] }

/-- A call that fails at once. -/
def fail (s : StoreState V ω) (key fingerprint : Str) (error : IdempotencyError) :
    StoreState V ω :=
  { s with calls := s.calls ++ [⟨key, fingerprint, .ending (.error error)⟩] }

/-- The first look at the entries. -/
def begin (s : StoreState V ω) (key fingerprint : Str) (now : ℚ) : StoreState V ω :=
  if key.isEmpty || fingerprint.isEmpty then
    { s with clock := now }.fail key fingerprint
      (.valueError "idempotency key and fingerprint are required")
  else
    let s := s.purged now
    match Entries.get? s.entries key with
    | some entry =>
        if entry.fingerprint ≠ fingerprint then s.fail key fingerprint .conflict
        else s.pass key fingerprint
    | none => s.pass key fingerprint

/-- The phase after the second look at the entries. -/
def checkPhase (s : StoreState V ω) (call : StoreCall V) : CallPhase V :=
  match Entries.get? s.entries call.key with
  | none => .running
  | some entry =>
      if entry.fingerprint ≠ call.fingerprint then .ending (.error .conflict)
      else .ending (.ok entry.value)

/-- The operation has returned a value. -/
def succeed (s : StoreState V ω) (i : Nat) (call : StoreCall V) (work : ω) (value : V)
    (now : ℚ) : StoreState V ω :=
  { s.setPhase i call (.storing value) with
    clock := now
    successes := ⟨call.key, call.fingerprint, work, now, value⟩ :: s.successes }

/-- The entry is stored, and the oldest ones are removed. -/
def store (settings : IdempotencyStore) (s : StoreState V ω) (i : Nat) (call : StoreCall V)
    (value : V) (now : ℚ) : StoreState V ω :=
  let entry := ⟨call.fingerprint, value, now + settings.ttlSeconds⟩
  let trimmed := IdempotencyStore.trim settings.maxEntries
    (Entries.set s.entries call.key entry)
  { s.setPhase i call
      (.ending (if trimmed.1 then .ok value
        else .error (.valueError "min() iterable argument is empty"))) with
    clock := now
    entries := trimmed.2 }

/-- A step of the `i`-th call; `none` if the call has not come so far. -/
def stepCall (settings : IdempotencyStore) (eval : ω → ℚ → Option V) (s : StoreState V ω)
    (i : Nat) (call : StoreCall V) : StoreEvent ω → Option (StoreState V ω)
  | .begins _ _ _ => none
  | .acquires _ =>
      match call.phase with
      | .waiting => if s.lockHeld call.key then none else some (s.setPhase i call .holding)
      | _ => none
  | .checks _ now =>
      match call.phase with
      | .holding => some ((s.purged now).setPhase i call ((s.purged now).checkPhase call))
      | _ => none
  | .operates _ work now =>
      match call.phase with
      | .running =>
          match eval work now with
          | some value => some (s.succeed i call work value now)
          | none => some { s.setPhase i call (.ending (.error .operation)) with clock := now }
      | _ => none
  | .stores _ now =>
      match call.phase with
      | .storing value => some (s.store settings i call value now)
      | _ => none
  | .returns _ now =>
      match call.phase with
      | .ending result => some { s.setPhase i call (.returned result now) with clock := now }
      | _ => none

/-- One step; `none` if the clock would go back, or the call has not come so far. -/
def step (settings : IdempotencyStore) (eval : ω → ℚ → Option V) (s : StoreState V ω)
    (event : StoreEvent ω) : Option (StoreState V ω) :=
  if event.reading?.all fun now => decide (s.clock ≤ now) then
    match event with
    | .begins key fingerprint now => some (s.begin key fingerprint now)
    | .acquires i => (s.calls[i]?).bind fun call => s.stepCall settings eval i call event
    | .checks i _ => (s.calls[i]?).bind fun call => s.stepCall settings eval i call event
    | .operates i _ _ => (s.calls[i]?).bind fun call => s.stepCall settings eval i call event
    | .stores i _ => (s.calls[i]?).bind fun call => s.stepCall settings eval i call event
    | .returns i _ => (s.calls[i]?).bind fun call => s.stepCall settings eval i call event
  else none

/-- The interleavings of the calls of a store. -/
def machine (settings : IdempotencyStore) (eval : ω → ℚ → Option V) :
    Machine (StoreState V ω) (StoreEvent ω) where
  initial s := s = {}
  step s event s' := s.step settings eval event = some s'

/-- What a step can do. -/
inductive Moves (settings : IdempotencyStore) (eval : ω → ℚ → Option V) (s : StoreState V ω) :
    StoreEvent ω → StoreState V ω → Prop
  | refused {key fingerprint : Str} {now : ℚ} : s.clock ≤ now →
      (key.isEmpty || fingerprint.isEmpty) = true →
      Moves settings eval s (.begins key fingerprint now)
        ({ s with clock := now }.fail key fingerprint
          (.valueError "idempotency key and fingerprint are required"))
  | conflicts {key fingerprint : Str} {now : ℚ} {entry : IdempotencyEntry V} : s.clock ≤ now →
      Entries.get? (s.purged now).entries key = some entry → entry.fingerprint ≠ fingerprint →
      Moves settings eval s (.begins key fingerprint now)
        ((s.purged now).fail key fingerprint .conflict)
  | passes {key fingerprint : Str} {now : ℚ} : s.clock ≤ now →
      (∀ entry ∈ Entries.get? (s.purged now).entries key, entry.fingerprint = fingerprint) →
      Moves settings eval s (.begins key fingerprint now) ((s.purged now).pass key fingerprint)
  | acquires {i : Nat} {call : StoreCall V} : s.calls[i]? = some call → call.phase = .waiting →
      s.lockHeld call.key = false →
      Moves settings eval s (.acquires i) (s.setPhase i call .holding)
  | checks {i : Nat} {call : StoreCall V} {now : ℚ} : s.clock ≤ now →
      s.calls[i]? = some call → call.phase = .holding →
      Moves settings eval s (.checks i now)
        ((s.purged now).setPhase i call ((s.purged now).checkPhase call))
  | succeeds {i : Nat} {call : StoreCall V} {work : ω} {value : V} {now : ℚ} : s.clock ≤ now →
      s.calls[i]? = some call → call.phase = .running → eval work now = some value →
      Moves settings eval s (.operates i work now) (s.succeed i call work value now)
  | raises {i : Nat} {call : StoreCall V} {work : ω} {now : ℚ} : s.clock ≤ now →
      s.calls[i]? = some call → call.phase = .running → eval work now = none →
      Moves settings eval s (.operates i work now)
        { s.setPhase i call (.ending (.error .operation)) with clock := now }
  | stores {i : Nat} {call : StoreCall V} {value : V} {now : ℚ} : s.clock ≤ now →
      s.calls[i]? = some call → call.phase = .storing value →
      Moves settings eval s (.stores i now) (s.store settings i call value now)
  | returns {i : Nat} {call : StoreCall V} {result : Except IdempotencyError V} {now : ℚ} :
      s.clock ≤ now → s.calls[i]? = some call → call.phase = .ending result →
      Moves settings eval s (.returns i now)
        { s.setPhase i call (.returned result now) with clock := now }

variable {settings : IdempotencyStore} {eval : ω → ℚ → Option V} {s s' : StoreState V ω}
  {event : StoreEvent ω}

theorem moves_of_begin {key fingerprint : Str} {now : ℚ} (hclock : s.clock ≤ now) :
    Moves settings eval s (.begins key fingerprint now) (s.begin key fingerprint now) := by
  unfold begin
  split
  · rename_i hempty
    exact .refused hclock hempty
  · simp only
    split
    · rename_i entry hentry
      split
      · rename_i hne
        exact .conflicts hclock hentry hne
      · rename_i heq
        refine .passes hclock fun entry' hentry' => ?_
        cases hentry.symm.trans hentry'
        exact not_not.mp heq
    · rename_i hnone
      refine .passes hclock fun entry hentry => ?_
      rw [hnone] at hentry
      cases hentry

/-- A step is one of the moves. -/
theorem moves_of_step (h : s.step settings eval event = some s') :
    Moves settings eval s event s' := by
  unfold step at h
  split at h
  · rename_i hclock
    cases event with
    | begins key fingerprint now =>
        cases h
        exact moves_of_begin (of_decide_eq_true hclock)
    | acquires i =>
        obtain ⟨call, hcall, h⟩ := Option.bind_eq_some_iff.mp h
        simp only [stepCall] at h
        split at h
        · rename_i hphase
          split at h
          · cases h
          · rename_i hfree
            cases h
            exact .acquires hcall hphase (Bool.eq_false_iff.mpr hfree)
        · cases h
    | checks i now =>
        obtain ⟨call, hcall, h⟩ := Option.bind_eq_some_iff.mp h
        simp only [stepCall] at h
        split at h
        · rename_i hphase
          cases h
          exact .checks (of_decide_eq_true hclock) hcall hphase
        · cases h
    | operates i work now =>
        obtain ⟨call, hcall, h⟩ := Option.bind_eq_some_iff.mp h
        simp only [stepCall] at h
        split at h
        · rename_i hphase
          split at h
          · rename_i value hvalue
            cases h
            exact .succeeds (of_decide_eq_true hclock) hcall hphase hvalue
          · rename_i hvalue
            cases h
            exact .raises (of_decide_eq_true hclock) hcall hphase hvalue
        · cases h
    | stores i now =>
        obtain ⟨call, hcall, h⟩ := Option.bind_eq_some_iff.mp h
        simp only [stepCall] at h
        split at h
        · rename_i value hphase
          cases h
          exact .stores (of_decide_eq_true hclock) hcall hphase
        · cases h
    | returns i now =>
        obtain ⟨call, hcall, h⟩ := Option.bind_eq_some_iff.mp h
        simp only [stepCall] at h
        split at h
        · rename_i result hphase
          cases h
          exact .returns (of_decide_eq_true hclock) hcall hphase
        · cases h
  · cases h

/-- What a later look at the calls finds: the call as it was, or the one that went on. -/
theorem mem_setPhase {i : Nat} {call c : StoreCall V} {phase : CallPhase V}
    (h : c ∈ (s.setPhase i call phase).calls) :
    c ∈ s.calls ∨ c = { call with phase := phase } :=
  List.mem_or_eq_of_mem_set h

theorem getElem?_setPhase {i j : Nat} {call c : StoreCall V} {phase : CallPhase V}
    (h : (s.setPhase i call phase).calls[j]? = some c) :
    (j ≠ i ∧ s.calls[j]? = some c) ∨ (j = i ∧ c = { call with phase := phase }) := by
  change (s.calls.set i { call with phase := phase })[j]? = some c at h
  by_cases hij : i = j
  · subst hij
    obtain ⟨hlt, -⟩ := List.getElem?_eq_some_iff.mp h
    rw [List.length_set] at hlt
    rw [List.getElem?_set_self hlt] at h
    exact .inr ⟨rfl, (Option.some.inj h).symm⟩
  · rw [List.getElem?_set_ne hij] at h
    exact .inl ⟨Ne.symm hij, h⟩

end StoreState

namespace IdempotencyStore

variable {V : Type} {entries : Entries Str (IdempotencyEntry V)} {maxEntries : Int}

theorem purge_sublist (now : ℚ) : (purge now entries).Sublist entries := List.filter_sublist

theorem mem_of_oldest? {e : Str × IdempotencyEntry V} (h : oldest? entries = some e) :
    e ∈ entries := by
  induction entries generalizing e with
  | nil => cases h
  | cons first rest ih =>
      rw [oldest?] at h
      split at h
      · cases h
        exact List.mem_cons_self
      · rename_i other hother
        split at h
        · cases h
          exact List.mem_cons_of_mem _ (ih hother)
        · cases h
          exact List.mem_cons_self

/-- Trimming only removes entries. -/
theorem trimFrom_sublist (rounds : Nat) :
    (trimFrom maxEntries rounds entries).2.Sublist entries := by
  induction rounds generalizing entries with
  | zero => exact List.Sublist.refl _
  | succ rounds ih =>
      rw [trimFrom]
      split
      · exact List.Sublist.refl _
      · cases oldest? entries with
        | none => exact List.Sublist.refl _
        | some e => exact ih.trans List.filter_sublist

theorem trim_sublist : (trim maxEntries entries).2.Sublist entries := trimFrom_sublist _

end IdempotencyStore

namespace StoreState

variable {V ω : Type} {settings : IdempotencyStore} {eval : ω → ℚ → Option V}
  {s s' : StoreState V ω} {event : StoreEvent ω}

/-- What holds of a store and its calls in every run. -/
structure Sound (eval : ω → ℚ → Option V) (s : StoreState V ω) : Prop where
  entries_nodup : (Entries.keys s.entries).Nodup
  locks_nodup : s.locks.Nodup
  entries_locked : ∀ key ∈ Entries.keys s.entries, key ∈ s.locks
  calls_locked : ∀ call ∈ s.calls, call.phase.hasLock = true → call.key ∈ s.locks
  locks_passed : ∀ key, key ∈ s.locks ↔ key ∈ s.passed
  exclusive : ∀ (i j : Nat) (call other : StoreCall V), s.calls[i]? = some call →
    s.calls[j]? = some other → call.key = other.key → call.phase.holdsLock = true →
    other.phase.holdsLock = true → i = j
  quiet : ∀ call ∈ s.calls, call.phase.operating = true → call.key ∉ Entries.keys s.entries
  evaluated : ∀ success ∈ s.successes, eval success.work success.endedAt = some success.value
  stored : ∀ e ∈ s.entries, ∃ success, s.latest? e.1 = some success ∧
    success.fingerprint = e.2.fingerprint ∧ success.value = e.2.value
  storing : ∀ call ∈ s.calls, ∀ value, call.phase = .storing value →
    ∃ success, s.latest? call.key = some success ∧ success.fingerprint = call.fingerprint ∧
      success.value = value
  answered : ∀ call ∈ s.calls, ∀ value, call.phase.result? = some (.ok value) →
    ∃ success ∈ s.successes, success.key = call.key ∧ success.fingerprint = call.fingerprint ∧
      success.value = value

theorem mem_of_latest? {key : Str} {success : Success V ω} (h : s.latest? key = some success) :
    success ∈ s.successes ∧ success.key = key := by
  rw [latest?] at h
  exact ⟨List.mem_of_find?_eq_some h, by simpa using List.find?_some h⟩

theorem sound_initial : Sound eval ({} : StoreState V ω) where
  entries_nodup := List.nodup_nil
  locks_nodup := List.nodup_nil
  entries_locked := nofun
  calls_locked := nofun
  locks_passed := fun _ => Iff.rfl
  exclusive := nofun
  quiet := nofun
  evaluated := nofun
  stored := nofun
  storing := nofun
  answered := nofun

/-- The clock may go on, and entries may be removed. -/
theorem Sound.remove (h : Sound eval s) (now : ℚ) {entries : Entries Str (IdempotencyEntry V)}
    (hsub : entries.Sublist s.entries) :
    Sound eval { s with clock := now, entries := entries } where
  entries_nodup := h.entries_nodup.sublist (Entries.keys_sublist hsub)
  locks_nodup := h.locks_nodup
  entries_locked := fun key hkey => h.entries_locked key ((Entries.keys_sublist hsub).subset hkey)
  calls_locked := h.calls_locked
  locks_passed := h.locks_passed
  exclusive := h.exclusive
  quiet := fun call hcall hop hkey =>
    h.quiet call hcall hop ((Entries.keys_sublist hsub).subset hkey)
  evaluated := h.evaluated
  stored := fun e he => h.stored e (hsub.subset he)
  storing := h.storing
  answered := h.answered

theorem Sound.tick (h : Sound eval s) (now : ℚ) : Sound eval { s with clock := now } :=
  h.remove now (List.Sublist.refl _)

theorem Sound.purged (h : Sound eval s) (now : ℚ) : Sound eval (s.purged now) :=
  h.remove now (IdempotencyStore.purge_sublist now)

theorem getElem?_append_singleton {call c : StoreCall V} {calls : List (StoreCall V)} {i : Nat}
    (h : (calls ++ [call])[i]? = some c) : calls[i]? = some c ∨ c = call := by
  rcases List.mem_append.mp (List.mem_of_getElem? h) with hmem | hmem
  · rw [List.getElem?_append] at h
    split at h
    · exact .inl h
    · exact .inr (List.mem_singleton.mp (List.mem_of_getElem? h))
  · exact .inr (List.mem_singleton.mp hmem)

/-- A call that begins holds no lock. -/
theorem Sound.opened (h : Sound eval s) {call : StoreCall V} {locks passed : List Str}
    (hlocks : locks.Nodup) (hsub : ∀ key ∈ s.locks, key ∈ locks)
    (hpassed : ∀ key, key ∈ locks ↔ key ∈ passed)
    (hlocked : call.phase.hasLock = true → call.key ∈ locks)
    (hfree : call.phase.holdsLock = false) (hanswer : ∀ value, call.phase.result? ≠ some (.ok value)) :
    Sound eval { s with calls := s.calls ++ [call], locks := locks, passed := passed } := by
  have hidle : call.phase.operating = false := by
    revert hfree
    cases call.phase <;> simp [CallPhase.holdsLock, CallPhase.operating]
  have hnot (value : V) : call.phase ≠ .storing value := by
    intro hphase
    rw [hphase] at hfree
    cases hfree
  constructor
  case entries_nodup => exact h.entries_nodup
  case locks_nodup => exact hlocks
  case entries_locked => exact fun key hkey => hsub key (h.entries_locked key hkey)
  case calls_locked =>
    rw [List.forall_mem_append, List.forall_mem_singleton]
    exact ⟨fun c hc hlock => hsub _ (h.calls_locked c hc hlock), hlocked⟩
  case locks_passed => exact hpassed
  case exclusive =>
    intro i j c c' hi hj hkey hheld hheld'
    rcases getElem?_append_singleton hi with hi | rfl
    · rcases getElem?_append_singleton hj with hj | rfl
      · exact h.exclusive i j c c' hi hj hkey hheld hheld'
      · rw [hfree] at hheld'
        cases hheld'
    · rw [hfree] at hheld
      cases hheld
  case quiet =>
    rw [List.forall_mem_append, List.forall_mem_singleton]
    refine ⟨h.quiet, fun hop => ?_⟩
    rw [hidle] at hop
    cases hop
  case evaluated => exact h.evaluated
  case stored => exact h.stored
  case storing =>
    rw [List.forall_mem_append, List.forall_mem_singleton]
    exact ⟨h.storing, fun value hphase => absurd hphase (hnot value)⟩
  case answered =>
    rw [List.forall_mem_append, List.forall_mem_singleton]
    exact ⟨h.answered, fun value hphase => absurd hphase (hanswer value)⟩

theorem Sound.fail (h : Sound eval s) (key fingerprint : Str) (error : IdempotencyError) :
    Sound eval (s.fail key fingerprint error) :=
  h.opened h.locks_nodup (fun _ hkey => hkey) h.locks_passed nofun rfl nofun

theorem Sound.pass (h : Sound eval s) (key fingerprint : Str) :
    Sound eval (s.pass key fingerprint) := by
  unfold StoreState.pass
  split
  · rename_i hkey
    refine h.opened h.locks_nodup (fun _ hkey => hkey) (fun other => ?_) (fun _ => hkey) rfl nofun
    rw [List.mem_append, List.mem_singleton, h.locks_passed]
    refine ⟨.inl, fun hother => ?_⟩
    rcases hother with hother | rfl
    · exact hother
    · exact (h.locks_passed _).mp hkey
  · rename_i hkey
    refine h.opened ?_ (fun _ => List.mem_append_left _) (fun other => ?_)
      (fun _ => List.mem_append_right _ (List.mem_singleton_self _)) rfl nofun
    · exact List.Nodup.append h.locks_nodup (List.nodup_singleton _)
        (List.disjoint_singleton.mpr hkey)
    · rw [List.mem_append, List.mem_append, h.locks_passed]

/-- What a call must not do when it goes on to a phase. -/
structure MayEnter (s : StoreState V ω) (i : Nat) (call : StoreCall V) (phase : CallPhase V) :
    Prop where
  locked : phase.hasLock = true → call.phase.hasLock = true
  held : phase.holdsLock = true → call.phase.holdsLock = true ∨ s.lockHeld call.key = false
  quiet : phase.operating = true → call.key ∉ Entries.keys s.entries
  storing : ∀ value, phase = .storing value → ∃ success, s.latest? call.key = some success ∧
    success.fingerprint = call.fingerprint ∧ success.value = value
  answered : ∀ value, phase.result? = some (.ok value) → ∃ success ∈ s.successes,
    success.key = call.key ∧ success.fingerprint = call.fingerprint ∧ success.value = value

theorem lockHeld_eq_false_iff {key : Str} : s.lockHeld key = false ↔
    ∀ call ∈ s.calls, call.key = key → call.phase.holdsLock = false := by
  rw [lockHeld, List.any_eq_false]
  constructor
  · intro h call hcall hkey
    rw [Bool.eq_false_iff]
    intro hheld
    exact h call hcall (by rw [decide_eq_true hkey, hheld]; rfl)
  · intro h call hcall hheld
    obtain ⟨hkey, hheld⟩ := Bool.and_eq_true_iff.mp hheld
    rw [h call hcall (of_decide_eq_true hkey)] at hheld
    cases hheld

theorem Sound.setPhase (h : Sound eval s) {i : Nat} {call : StoreCall V}
    (hcall : s.calls[i]? = some call) {phase : CallPhase V} (hmay : MayEnter s i call phase) :
    Sound eval (s.setPhase i call phase) := by
  have hmem : call ∈ s.calls := List.mem_of_getElem? hcall
  have halone (j : Nat) (other : StoreCall V) (hother : s.calls[j]? = some other)
      (hkey : call.key = other.key) (hheld : phase.holdsLock = true)
      (hheld' : other.phase.holdsLock = true) : i = j := by
    rcases hmay.held hheld with hholds | hfree
    · exact h.exclusive i j call other hcall hother hkey hholds hheld'
    · rw [lockHeld_eq_false_iff.mp hfree other (List.mem_of_getElem? hother) hkey.symm] at hheld'
      cases hheld'
  constructor
  case entries_nodup => exact h.entries_nodup
  case locks_nodup => exact h.locks_nodup
  case entries_locked => exact h.entries_locked
  case calls_locked =>
    intro c hc hlock
    rcases mem_setPhase hc with hc | rfl
    · exact h.calls_locked c hc hlock
    · exact h.calls_locked call hmem (hmay.locked hlock)
  case locks_passed => exact h.locks_passed
  case exclusive =>
    intro j k c c' hj hk hkey hheld hheld'
    rcases getElem?_setPhase hj with ⟨hji, hold⟩ | ⟨rfl, rfl⟩
    · rcases getElem?_setPhase hk with ⟨hki, hold'⟩ | ⟨rfl, rfl⟩
      · exact h.exclusive j k c c' hold hold' hkey hheld hheld'
      · exact absurd (halone j c hold hkey.symm hheld' hheld).symm hji
    · rcases getElem?_setPhase hk with ⟨hki, hold'⟩ | ⟨rfl, rfl⟩
      · exact halone k c' hold' hkey hheld hheld'
      · rfl
  case quiet =>
    intro c hc hop
    rcases mem_setPhase hc with hc | rfl
    · exact h.quiet c hc hop
    · exact hmay.quiet hop
  case evaluated => exact h.evaluated
  case stored => exact h.stored
  case storing =>
    intro c hc value hphase
    rcases mem_setPhase hc with hc | rfl
    · exact h.storing c hc value hphase
    · exact hmay.storing value hphase
  case answered =>
    intro c hc value hphase
    rcases mem_setPhase hc with hc | rfl
    · exact h.answered c hc value hphase
    · exact hmay.answered value hphase

/-- An operation of a key that is not in use is remembered when it has returned. -/
theorem Sound.remember (h : Sound eval s) (success : Success V ω)
    (heval : eval success.work success.endedAt = some success.value)
    (habsent : success.key ∉ Entries.keys s.entries)
    (hidle : ∀ call ∈ s.calls, ∀ value, call.phase = .storing value → success.key ≠ call.key) :
    Sound eval { s with successes := success :: s.successes } := by
  have hlatest (key : Str) (hne : success.key ≠ key) :
      ({ s with successes := success :: s.successes } : StoreState V ω).latest? key =
        s.latest? key :=
    List.find?_cons_of_neg (by simpa using hne)
  constructor
  case entries_nodup => exact h.entries_nodup
  case locks_nodup => exact h.locks_nodup
  case entries_locked => exact h.entries_locked
  case calls_locked => exact h.calls_locked
  case locks_passed => exact h.locks_passed
  case exclusive => exact h.exclusive
  case quiet => exact h.quiet
  case evaluated => exact List.forall_mem_cons.mpr ⟨heval, h.evaluated⟩
  case stored =>
    intro e he
    rw [hlatest]
    · exact h.stored e he
    · rintro heq
      exact habsent (heq ▸ List.mem_map_of_mem he)
  case storing =>
    intro call hcall value hphase
    rw [hlatest _ (hidle call hcall value hphase)]
    exact h.storing call hcall value hphase
  case answered =>
    intro call hcall value hphase
    exact (h.answered call hcall value hphase).imp fun _ hs => ⟨List.mem_cons_of_mem _ hs.1, hs.2⟩

/-- The call that holds the lock of its key stores the entry, and goes on. -/
theorem Sound.add (h : Sound eval s) {i : Nat} {call : StoreCall V} {value : V}
    (hcall : s.calls[i]? = some call) (hphase : call.phase = .storing value)
    {result : Except IdempotencyError V} (hresult : result = .ok value ∨ ∃ e, result = .error e)
    (expiresAt : ℚ) :
    Sound eval { s.setPhase i call (.ending result) with
      entries := Entries.set s.entries call.key ⟨call.fingerprint, value, expiresAt⟩ } := by
  have hmem : call ∈ s.calls := List.mem_of_getElem? hcall
  obtain ⟨success, hsuccess⟩ := h.storing call hmem value hphase
  have habsent : call.key ∉ Entries.keys s.entries :=
    h.quiet call hmem (by rw [hphase]; rfl)
  have hset : Entries.set s.entries call.key ⟨call.fingerprint, value, expiresAt⟩ =
      s.entries ++ [(call.key, ⟨call.fingerprint, value, expiresAt⟩)] :=
    Entries.set_of_notMem habsent _
  have hmay : MayEnter s i call (.ending result) := by
    refine ⟨nofun, nofun, nofun, nofun, fun v hv => ⟨success, ?_⟩⟩
    rcases hresult with rfl | ⟨e, rfl⟩
    · cases hv
      obtain ⟨hlatest, hsame⟩ := hsuccess
      exact ⟨(mem_of_latest? hlatest).1, (mem_of_latest? hlatest).2, hsame⟩
    · cases hv
  have hgone := h.setPhase hcall hmay
  rw [hset]
  constructor
  case entries_nodup =>
    rw [Entries.keys_append]
    exact List.Nodup.append h.entries_nodup (List.nodup_singleton _)
      (List.disjoint_singleton.mpr habsent)
  case locks_nodup => exact h.locks_nodup
  case entries_locked =>
    rw [Entries.keys_append, List.forall_mem_append]
    refine ⟨h.entries_locked, fun key hkey => ?_⟩
    rw [List.mem_singleton.mp hkey]
    exact h.calls_locked call hmem (by rw [hphase]; rfl)
  case calls_locked => exact hgone.calls_locked
  case locks_passed => exact h.locks_passed
  case exclusive => exact hgone.exclusive
  case quiet =>
    intro c hc hop
    rw [Entries.keys_append, List.mem_append, not_or]
    refine ⟨hgone.quiet c hc hop, fun hkey => ?_⟩
    obtain ⟨j, hj⟩ := List.mem_iff_getElem?.mp hc
    rcases getElem?_setPhase hj with ⟨hji, hold⟩ | ⟨-, rfl⟩
    · refine hji (h.exclusive j i c call hold hcall (List.mem_singleton.mp hkey) ?_ ?_)
      · revert hop
        cases c.phase <;> simp [CallPhase.operating, CallPhase.holdsLock]
      · rw [hphase]
        rfl
    · cases hop
  case evaluated => exact h.evaluated
  case stored =>
    rw [List.forall_mem_append, List.forall_mem_singleton]
    exact ⟨h.stored, success, hsuccess⟩
  case storing => exact hgone.storing
  case answered => exact hgone.answered

/-- What the second look at the entries may answer. -/
theorem mayEnter_checkPhase (h : Sound eval s) {i : Nat} {call : StoreCall V}
    (hphase : call.phase = .holding) : MayEnter s i call (s.checkPhase call) := by
  have hheld : call.phase.holdsLock = true := by
    rw [hphase]
    rfl
  have hlock : call.phase.hasLock = true := by
    rw [hphase]
    rfl
  unfold checkPhase
  cases hget : Entries.get? s.entries call.key with
  | none =>
      exact ⟨fun _ => hlock, fun _ => .inl hheld, fun _ => Entries.get?_eq_none_iff.mp hget,
        nofun, nofun⟩
  | some entry =>
      simp only
      split
      · exact ⟨nofun, nofun, nofun, nofun, nofun⟩
      · rename_i hfingerprint
        refine ⟨nofun, nofun, nofun, nofun, fun value hvalue => ?_⟩
        cases hvalue
        obtain ⟨success, hlatest, hsame, hstored⟩ := h.stored _ (Entries.mem_of_get? hget)
        obtain ⟨hmem, hkey⟩ := mem_of_latest? hlatest
        exact ⟨success, hmem, hkey, hsame.trans (not_not.mp hfingerprint), hstored⟩

/-- A step keeps the store sound. -/
theorem Sound.step (h : Sound eval s) (hmove : Moves settings eval s event s') :
    Sound eval s' := by
  cases hmove with
  | refused => exact (h.tick _).fail _ _ _
  | conflicts => exact (h.purged _).fail _ _ _
  | passes => exact (h.purged _).pass _ _
  | acquires hcall hphase hfree =>
      refine h.setPhase hcall ⟨fun _ => ?_, fun _ => .inr hfree, nofun, nofun, nofun⟩
      rw [hphase]
      rfl
  | @checks i call now _ hcall hphase =>
      exact (h.purged now).setPhase hcall (mayEnter_checkPhase (h.purged now) hphase)
  | @succeeds i call work value now _ hcall hphase hvalue =>
      let success : Success V ω := ⟨call.key, call.fingerprint, work, now, value⟩
      have hmem : call ∈ s.calls := List.mem_of_getElem? hcall
      have hmay : MayEnter { s with successes := success :: s.successes } i call
          (.storing value) := by
        refine ⟨fun _ => by rw [hphase]; rfl, fun _ => .inl (by rw [hphase]; rfl),
          fun _ => h.quiet call hmem (by rw [hphase]; rfl), fun v hv => ?_, nofun⟩
        cases hv
        exact ⟨success, List.find?_cons_of_pos (decide_eq_true rfl), rfl, rfl⟩
      have hidle (other : StoreCall V) (hother : other ∈ s.calls) (v : V)
          (hstoring : other.phase = .storing v) : success.key ≠ other.key := by
        intro hkey
        obtain ⟨j, hj⟩ := List.mem_iff_getElem?.mp hother
        obtain rfl := h.exclusive i j call other hcall hj hkey (by rw [hphase]; rfl)
          (by rw [hstoring]; rfl)
        cases hcall.symm.trans hj
        rw [hphase] at hstoring
        cases hstoring
      have habsent : success.key ∉ Entries.keys s.entries :=
        h.quiet call hmem (by rw [hphase]; rfl)
      exact ((h.remember success hvalue habsent hidle).setPhase hcall hmay).tick now
  | @raises i call work now _ hcall hphase hnone =>
      have hmay : MayEnter s i call (.ending (.error .operation)) :=
        ⟨nofun, nofun, nofun, nofun, nofun⟩
      exact (h.setPhase hcall hmay).tick now
  | @stores i call value now _ hcall hphase =>
      refine (h.add hcall hphase ?_ _).remove now IdempotencyStore.trim_sublist
      split
      · exact .inl rfl
      · exact .inr ⟨_, rfl⟩
  | @returns i call result now _ hcall hphase =>
      have hmay : MayEnter s i call (.returned result now) := by
        refine ⟨nofun, nofun, nofun, nofun, fun value hvalue => ?_⟩
        refine h.answered call (List.mem_of_getElem? hcall) value ?_
        rw [hphase]
        exact hvalue
      exact (h.setPhase hcall hmay).tick now

/-- Every run is sound. -/
theorem sound_of_reachable (h : (machine settings eval).Reachable Machine.anyStep s) :
    Sound eval s := by
  refine h.invariant ?_ ?_
  · rintro s rfl
    exact sound_initial
  · intro s event s' hsound _ hstep
    exact hsound.step (moves_of_step hstep)

end StoreState

end MediaBridge.Core
