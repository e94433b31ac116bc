import MediaBridge.Core.IdempotencyBounds

/-!
# What the callers of an idempotency store get

While an entry is kept, the work of its key is not done again: a call with the same fingerprint
gets the value of the entry, and a call with another one gets a conflict.
-/

namespace MediaBridge.Core.StoreState

open Foundation

variable {V ω : Type} {settings : IdempotencyStore} {eval : ω → ℚ → Option V}
  {s s' : StoreState V ω} {event : StoreEvent ω}

/-- The operations of a key that have returned. -/
def successesOf (s : StoreState V ω) (key : Str) : List (Success V ω) :=
  s.successes.filter fun success => decide (success.key = key)

/-- The `i`-th call is a call that has come to a phase. -/
def At (s : StoreState V ω) (i : Nat) (call : StoreCall V) (phase : CallPhase V) : Prop :=
  s.calls[i]? = some { call with phase := phase }

/-- What the callers of a store get, in a state and in each step from it. -/
structure Serialized (settings : IdempotencyStore) (eval : ω → ℚ → Option V)
    (s : StoreState V ω) : Prop where
  /-- At most one operation of a key runs at a time. -/
  alone : s.Exclusive
  /-- An entry keeps the value of the last operation of its key. -/
  latest : ∀ e ∈ s.entries, ∃ success, s.latest? e.1 = some success ∧
    success.fingerprint = e.2.fingerprint ∧ success.value = e.2.value
  /-- No operation of a key returns while the key has an entry. -/
  once : ∀ event s', s.step settings eval event = some s' →
    ∀ key ∈ Entries.keys s.entries, s'.successesOf key = s.successesOf key
  /-- A call that finds a live entry gets its value, or a conflict. -/
  replays : ∀ i now s' call entry, s.step settings eval (.checks i now) = some s' →
    s.calls[i]? = some call → Entries.get? s'.entries call.key = some entry →
    (entry.fingerprint = call.fingerprint → s'.At i call (.ending (.ok entry.value))) ∧
      (entry.fingerprint ≠ call.fingerprint → s'.At i call (.ending (.error .conflict)))
  /-- A call that begins while there is a live entry with another fingerprint gets a conflict. -/
  refuses : ∀ key fingerprint now s' entry,
    s.step settings eval (.begins key fingerprint now) = some s' → key ≠ [] → fingerprint ≠ [] →
    Entries.get? s'.entries key = some entry → entry.fingerprint ≠ fingerprint →
    s'.calls = s.calls ++ [⟨key, fingerprint, .ending (.error .conflict)⟩]
  /-- A call that finds no live entry runs its operation. -/
  afresh : ∀ i now s' call, s.step settings eval (.checks i now) = some s' →
    s.calls[i]? = some call → Entries.get? s'.entries call.key = none → s'.At i call .running
  /-- An operation that raises stores nothing. -/
  uncached : ∀ i work now s' call, s.step settings eval (.operates i work now) = some s' →
    s.calls[i]? = some call → eval work now = none → s'.entries = s.entries ∧
      s'.successes = s.successes ∧ s'.At i call (.ending (.error .operation))
  /-- A call only gets what an operation of its own key and fingerprint has returned. -/
  own : ∀ call ∈ s.calls, ∀ value, call.phase.result? = some (.ok value) →
    ∃ success ∈ s.successes, success.key = call.key ∧ success.fingerprint = call.fingerprint ∧
      success.value = value

theorem at_setPhase {i : Nat} {call : StoreCall V} (h : s.calls[i]? = some call)
    (phase : CallPhase V) : (s.setPhase i call phase).At i call phase := by
  obtain ⟨hlt, -⟩ := List.getElem?_eq_some_iff.mp h
  exact List.getElem?_set_self hlt

/-- The second look at the entries. -/
theorem checks_of_step {i : Nat} {now : ℚ} (h : s.step settings eval (.checks i now) = some s') :
    ∃ call, s.calls[i]? = some call ∧ s' = (s.purged now).setPhase i call
      ((s.purged now).checkPhase call) := by
  cases moves_of_step h with
  | checks _ hcall _ => exact ⟨_, hcall, rfl⟩

theorem Sound.once (h : Sound eval s) (hmove : Moves settings eval s event s') {key : Str}
    (hkey : key ∈ Entries.keys s.entries) : s'.successesOf key = s.successesOf key := by
  cases hmove with
  | @succeeds i call work value now _ hcall hphase _ =>
      have habsent : call.key ∉ Entries.keys s.entries :=
        h.quiet call (List.mem_of_getElem? hcall) (by rw [hphase]; rfl)
      refine List.filter_cons_of_neg ?_
      rw [decide_eq_true_iff]
      rintro rfl
      exact habsent hkey
  | _ => rfl

theorem replays_of_step {i : Nat} {now : ℚ} {call : StoreCall V} {entry : IdempotencyEntry V}
    (h : s.step settings eval (.checks i now) = some s') (hcall : s.calls[i]? = some call)
    (hentry : Entries.get? s'.entries call.key = some entry) :
    (entry.fingerprint = call.fingerprint → s'.At i call (.ending (.ok entry.value))) ∧
      (entry.fingerprint ≠ call.fingerprint → s'.At i call (.ending (.error .conflict))) := by
  obtain ⟨call', hcall', rfl⟩ := checks_of_step h
  obtain rfl : call = call' := Option.some.inj (hcall.symm.trans hcall')
  have hget : Entries.get? (s.purged now).entries call.key = some entry := hentry
  have hat := at_setPhase (s := s.purged now) hcall ((s.purged now).checkPhase call)
  rw [checkPhase, hget] at hat ⊢
  constructor
  · intro heq
    simpa only [ne_eq, heq, not_true_eq_false, if_false] using hat
  · intro hne
    simpa only [ne_eq, hne, not_false_eq_true, if_true] using hat

theorem afresh_of_step {i : Nat} {now : ℚ} {call : StoreCall V}
    (h : s.step settings eval (.checks i now) = some s') (hcall : s.calls[i]? = some call)
    (hentry : Entries.get? s'.entries call.key = none) : s'.At i call .running := by
  obtain ⟨call', hcall', rfl⟩ := checks_of_step h
  obtain rfl : call = call' := Option.some.inj (hcall.symm.trans hcall')
  have hget : Entries.get? (s.purged now).entries call.key = none := hentry
  have hat := at_setPhase (s := s.purged now) hcall ((s.purged now).checkPhase call)
  rw [checkPhase, hget] at hat ⊢
  exact hat

theorem refuses_of_step {key fingerprint : Str} {now : ℚ} {entry : IdempotencyEntry V}
    (h : s.step settings eval (.begins key fingerprint now) = some s') (hkey : key ≠ [])
    (hfingerprint : fingerprint ≠ []) (hentry : Entries.get? s'.entries key = some entry)
    (hne : entry.fingerprint ≠ fingerprint) :
    s'.calls = s.calls ++ [⟨key, fingerprint, .ending (.error .conflict)⟩] := by
  cases moves_of_step h with
  | refused _ hempty =>
      rw [Bool.or_eq_true, List.isEmpty_iff, List.isEmpty_iff] at hempty
      rcases hempty with rfl | rfl
      · exact absurd rfl hkey
      · exact absurd rfl hfingerprint
  | conflicts => rfl
  | passes _ hsame => exact absurd (hsame entry hentry) hne

theorem uncached_of_step {i : Nat} {work : ω} {now : ℚ} {call : StoreCall V}
    (h : s.step settings eval (.operates i work now) = some s') (hcall : s.calls[i]? = some call)
    (hraises : eval work now = none) : s'.entries = s.entries ∧ s'.successes = s.successes ∧
      s'.At i call (.ending (.error .operation)) := by
  cases moves_of_step h with
  | succeeds _ _ _ hvalue =>
      rw [hraises] at hvalue
      cases hvalue
  | raises _ hcall' _ _ =>
      cases hcall.symm.trans hcall'
      exact ⟨rfl, rfl, at_setPhase hcall _⟩

/-- In every run the work of a key is done once for all callers. -/
theorem serialized_of_reachable (h : (machine settings eval).Reachable Machine.anyStep s) :
    Serialized settings eval s := by
  have hsound := sound_of_reachable h
  constructor
  case alone => exact hsound.exclusive_running
  case latest => exact hsound.stored
  case once => exact fun _ _ hstep _ hkey => hsound.once (moves_of_step hstep) hkey
  case replays => exact fun _ _ _ _ _ hstep hcall hentry => replays_of_step hstep hcall hentry
  case refuses =>
    exact fun _ _ _ _ _ hstep hkey hfingerprint hentry hne =>
      refuses_of_step hstep hkey hfingerprint hentry hne
  case afresh => exact fun _ _ _ _ hstep hcall hentry => afresh_of_step hstep hcall hentry
  case uncached => exact fun _ _ _ _ _ hstep hcall hraises => uncached_of_step hstep hcall hraises
  case own => exact hsound.answered

end MediaBridge.Core.StoreState
