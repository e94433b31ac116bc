import MediaBridge.Gateway.PreparationTransaction
import Mathlib.Logic.Function.Basic

/-!
# When a receipt is returned

A receipt and the entry that holds it live equally long, but the life of the receipt begins when
it is built, and that of the entry when it is stored. What is left of the one when the other is
found depends on the readings at which a call builds, stores, checks and returns.

## Implementation notes

`δ` bounds how long the results of a key wait to be stored, and `ρ` how long a call waits to
return after it has stored or found one, both by the wall clock.
-/

namespace MediaBridge.Gateway

open Foundation MediaBridge.Core

/-- A store with its calls, and what each of them has read last. -/
abbrev TimedStore := StoreState Prepared PreparationWork × (Nat → ℚ)

/-- What each call has read last, after an event. -/
def lastReadings (last : Nat → ℚ) : StoreEvent PreparationWork → Nat → ℚ
  | .begins _ _ _ => last
  | .acquires _ => last
  | .checks i now => Function.update last i now
  | .operates i _ now => Function.update last i now
  | .stores i now => Function.update last i now
  | .returns i now => Function.update last i now

/-- The call is about to store or to return a receipt. -/
def holdsReceipt : CallPhase Prepared → Bool
  | .storing value => value.2.isSome
  | .ending (.ok value) => value.2.isSome
  | _ => false

namespace V2PreparationTransaction

/-- The interleavings of the calls of `execute`, beside what each call has read last. -/
def timed (P : Platform) (wall : ℚ → Instant) (transaction : V2PreparationTransaction) :
    Machine TimedStore (StoreEvent PreparationWork) :=
  (transaction.machine P wall).observed (fun _ => 0) lastReadings

end V2PreparationTransaction

/-- A receipt is stored soon after it was built, it is returned soon after it was stored or
found, and no call finds one at the end of the time for which its entry is kept: what is left of
that time is more than it took to store the receipt and takes to return it. -/
def Prompt (wall : ℚ → Instant) (ttlSeconds : Int) (δ : Str → Int) (ρ : Nat → Int)
    (p : TimedStore) : StoreEvent PreparationWork → Prop
  | .begins _ _ _ => True
  | .acquires _ => True
  | .checks i now => ∀ call ∈ p.1.calls[i]?,
      ∀ entry ∈ Entries.get? (p.1.purged now).entries call.key,
        entry.fingerprint = call.fingerprint → entry.value.2.isSome = true →
        wall now + δ call.key + ρ i <
          wall (entry.expiresAt - ttlSeconds) + TransformationReceipt.seconds ttlSeconds
  | .operates _ _ _ => True
  | .stores i now => ∀ call ∈ p.1.calls[i]?, holdsReceipt call.phase = true →
      wall now ≤ wall (p.2 i) + δ call.key ∧
        δ call.key + ρ i < TransformationReceipt.seconds ttlSeconds
  | .returns i now => ∀ call ∈ p.1.calls[i]?, holdsReceipt call.phase = true →
      wall now ≤ wall (p.2 i) + ρ i

section Lifetimes

variable {P : Platform} {wall : ℚ → Instant} {transaction : V2PreparationTransaction}
  {ttlSeconds : Int} {δ : Str → Int} {ρ : Nat → Int} {p p' : TimedStore}
  {s : StoreState Prepared PreparationWork} {last : Nat → ℚ}

/-- What is left of the life of a receipt in each phase of a call, and in the entries. -/
structure Unexpired (wall : ℚ → Instant) (ttlSeconds : Int) (δ : Str → Int) (ρ : Nat → Int)
    (p : TimedStore) : Prop where
  storing : ∀ i call result receipt, p.1.calls[i]? = some call →
    call.phase = .storing (result, some receipt) →
    receipt.expiresAt = wall (p.2 i) + TransformationReceipt.seconds ttlSeconds
  kept : ∀ e ∈ p.1.entries, ∀ result receipt, e.2.value = (result, some receipt) →
    wall (e.2.expiresAt - ttlSeconds) + TransformationReceipt.seconds ttlSeconds ≤
      receipt.expiresAt + δ e.1
  ending : ∀ i call result receipt, p.1.calls[i]? = some call →
    call.phase = .ending (.ok (result, some receipt)) →
    wall (p.2 i) + ρ i < receipt.expiresAt
  returned : ReceiptsLive wall p.1

theorem unexpired_initial : Unexpired wall ttlSeconds δ ρ ({}, last) where
  storing i call result receipt hcall := by cases hcall
  kept e he := by cases he
  ending i call result receipt hcall := by cases hcall
  returned call hcall := by cases hcall

/-- The entries that are left are no younger. -/
theorem Unexpired.remove (h : Unexpired wall ttlSeconds δ ρ (s, last)) (now : ℚ)
    {entries : Entries Str (IdempotencyEntry Prepared)} (hsub : entries.Sublist s.entries) :
    Unexpired wall ttlSeconds δ ρ ({ s with clock := now, entries := entries }, last) where
  storing := h.storing
  kept e he := h.kept e (hsub.subset he)
  ending := h.ending
  returned := h.returned

/-- A call that has failed, or waits for the lock of its key, holds no receipt. -/
theorem Unexpired.opened (h : Unexpired wall ttlSeconds δ ρ (s, last)) {call : StoreCall Prepared}
    {locks passed : List Str} (hphase : call.phase = .waiting ∨
      ∃ error, call.phase = .ending (.error error)) :
    Unexpired wall ttlSeconds δ ρ
      ({ s with locks := locks, calls := s.calls ++ [call], passed := passed }, last) where
  storing i c result receipt hc hstoring := by
    rcases StoreState.getElem?_append_singleton hc with hc | rfl
    · exact h.storing i c result receipt hc hstoring
    · rcases hphase with hphase | ⟨error, hphase⟩ <;> cases hphase.symm.trans hstoring
  kept := h.kept
  ending i c result receipt hc hending := by
    rcases StoreState.getElem?_append_singleton hc with hc | rfl
    · exact h.ending i c result receipt hc hending
    · rcases hphase with hphase | ⟨error, hphase⟩ <;> cases hphase.symm.trans hending
  returned c hc result receipt now hreturned := by
    rcases List.mem_append.mp hc with hc | hc
    · exact h.returned c hc result receipt now hreturned
    · obtain rfl := List.mem_singleton.mp hc
      rcases hphase with hphase | ⟨error, hphase⟩ <;> cases hphase.symm.trans hreturned

/-- What must be left of the life of the receipt with which a call goes on. -/
structure Leaves (wall : ℚ → Instant) (ttlSeconds : Int) (ρ : Nat → Int) (i : Nat) (now : ℚ)
    (phase : CallPhase Prepared) : Prop where
  storing : ∀ result receipt, phase = .storing (result, some receipt) →
    receipt.expiresAt = wall now + TransformationReceipt.seconds ttlSeconds
  ending : ∀ result receipt, phase = .ending (.ok (result, some receipt)) →
    wall now + ρ i < receipt.expiresAt
  returned : ∀ result receipt at', phase = .returned (.ok (result, some receipt)) at' →
    wall at' < receipt.expiresAt

theorem Unexpired.setPhase (h : Unexpired wall ttlSeconds δ ρ (s, last)) {i : Nat}
    {call : StoreCall Prepared} {phase : CallPhase Prepared} {now : ℚ}
    (hleaves : Leaves wall ttlSeconds ρ i now phase) :
    Unexpired wall ttlSeconds δ ρ (s.setPhase i call phase, Function.update last i now) where
  storing j c result receipt hc hstoring := by
    rcases StoreState.getElem?_setPhase hc with ⟨hji, hold⟩ | ⟨rfl, rfl⟩
    · simp only [Function.update_of_ne hji]
      exact h.storing j c result receipt hold hstoring
    · simp only [Function.update_self]
      exact hleaves.storing result receipt hstoring
  kept := h.kept
  ending j c result receipt hc hending := by
    rcases StoreState.getElem?_setPhase hc with ⟨hji, hold⟩ | ⟨rfl, rfl⟩
    · simp only [Function.update_of_ne hji]
      exact h.ending j c result receipt hold hending
    · simp only [Function.update_self]
      exact hleaves.ending result receipt hending
  returned c hc result receipt at' hreturned := by
    rcases StoreState.mem_setPhase hc with hc | rfl
    · exact h.returned c hc result receipt at' hreturned
    · exact hleaves.returned result receipt at' hreturned

/-- A call that holds the lock of its key, or runs its operation, has no receipt yet. -/
theorem leaves_of_locked {i : Nat} {now : ℚ} {phase : CallPhase Prepared}
    (hphase : phase = .holding ∨ phase = .running) :
    Leaves wall ttlSeconds ρ i now phase where
  storing result receipt hstoring := by
    rcases hphase with rfl | rfl <;> cases hstoring
  ending result receipt hending := by
    rcases hphase with rfl | rfl <;> cases hending
  returned result receipt at' hreturned := by
    rcases hphase with rfl | rfl <;> cases hreturned

/-- A call whose operation has built a receipt. -/
theorem leaves_storing {i : Nat} {now : ℚ} {value : Prepared}
    (h : ∀ fields receipt, value = (fields, some receipt) →
      receipt.expiresAt = wall now + TransformationReceipt.seconds ttlSeconds) :
    Leaves wall ttlSeconds ρ i now (.storing value) where
  storing fields receipt hphase := h fields receipt (CallPhase.storing.inj hphase)
  ending fields receipt hphase := by cases hphase
  returned fields receipt at' hphase := by cases hphase

/-- A call that is about to return: what its receipt needs. -/
theorem leaves_ending {i : Nat} {now : ℚ} {result : Except IdempotencyError Prepared}
    (h : ∀ fields receipt, result = .ok (fields, some receipt) →
      wall now + ρ i < receipt.expiresAt) :
    Leaves wall ttlSeconds ρ i now (.ending result) where
  storing fields receipt hphase := by cases hphase
  ending fields receipt hphase := h fields receipt (CallPhase.ending.inj hphase)
  returned fields receipt at' hphase := by cases hphase

/-- A call that returns. -/
theorem leaves_returned {i : Nat} {now : ℚ} {result : Except IdempotencyError Prepared}
    (h : ∀ fields receipt, result = .ok (fields, some receipt) →
      wall now < receipt.expiresAt) :
    Leaves wall ttlSeconds ρ i now (.returned result now) where
  storing fields receipt hphase := by cases hphase
  ending fields receipt hphase := by cases hphase
  returned fields receipt at' hphase := by
    obtain ⟨hresult, rfl⟩ := CallPhase.returned.inj hphase
    exact h fields receipt hresult

/-- A call that fails has no receipt. -/
theorem leaves_error {i : Nat} {now : ℚ} {error : IdempotencyError} :
    Leaves wall ttlSeconds ρ i now (.ending (.error error)) :=
  leaves_ending fun fields receipt herror => by cases herror

/-- A call that finds a receipt early enough. -/
theorem leaves_checkPhase (h : Unexpired wall ttlSeconds δ ρ (s, last)) {i : Nat} {now : ℚ}
    {call : StoreCall Prepared} (hcall : s.calls[i]? = some call)
    (hprompt : Prompt wall ttlSeconds δ ρ (s, last) (.checks i now)) :
    Leaves wall ttlSeconds ρ i now ((s.purged now).checkPhase call) := by
  unfold StoreState.checkPhase
  cases hget : Entries.get? (s.purged now).entries call.key with
  | none => exact leaves_of_locked (.inr rfl)
  | some entry =>
      simp only
      split
      · exact leaves_error
      · rename_i hfingerprint
        refine leaves_ending fun result receipt hvalue => ?_
        replace hvalue : entry.value = (result, some receipt) := Except.ok.inj hvalue
        have hmem : (call.key, entry) ∈ s.entries :=
          (IdempotencyStore.purge_sublist now).subset (Entries.mem_of_get? hget)
        have hkept := h.kept _ hmem result receipt hvalue
        have hearly := hprompt call hcall entry hget (not_not.mp hfingerprint)
          (by rw [hvalue]; rfl)
        linarith

/-- A call that stores a receipt early enough: what is left to it. -/
theorem leaves_of_store (h : Unexpired wall ttlSeconds δ ρ (s, last)) {i : Nat} {now : ℚ}
    {call : StoreCall Prepared} {value : Prepared} (hcall : s.calls[i]? = some call)
    (hphase : call.phase = .storing value)
    (hprompt : Prompt wall ttlSeconds δ ρ (s, last) (.stores i now))
    {result : Except IdempotencyError Prepared}
    (hresult : result = .ok value ∨ ∃ error, result = .error error) :
    Leaves wall ttlSeconds ρ i now (.ending result) := by
  refine leaves_ending fun fields receipt hok => ?_
  rcases hresult with rfl | ⟨error, rfl⟩
  · obtain rfl := Except.ok.inj hok
    have hbuilt := h.storing i call fields receipt hcall hphase
    obtain ⟨hdelay, hsum⟩ := hprompt call hcall (by rw [hphase]; rfl)
    simp only at hbuilt hdelay
    linarith
  · cases hok

/-- A call that stores a receipt early enough: what is left to its entry. -/
theorem Unexpired.add (h : Unexpired wall ttlSeconds δ ρ (s, last)) {i : Nat} {now : ℚ}
    {call : StoreCall Prepared} {value : Prepared} (hcall : s.calls[i]? = some call)
    (hphase : call.phase = .storing value)
    (hprompt : Prompt wall ttlSeconds δ ρ (s, last) (.stores i now))
    {entries : Entries Str (IdempotencyEntry Prepared)}
    (hsub : entries.Sublist
      (Entries.set s.entries call.key ⟨call.fingerprint, value, now + ttlSeconds⟩)) :
    Unexpired wall ttlSeconds δ ρ ({ s with clock := now, entries := entries }, last) where
  storing := h.storing
  kept e he result receipt hvalue := by
    rcases Entries.mem_set (hsub.subset he) with rfl | he
    · simp only at hvalue
      subst hvalue
      have hbuilt := h.storing i call result receipt hcall hphase
      obtain ⟨hdelay, -⟩ := hprompt call hcall (by rw [hphase]; rfl)
      simp only [add_sub_cancel_right] at hbuilt hdelay ⊢
      linarith
    · exact h.kept e he result receipt hvalue
  ending := h.ending
  returned := h.returned

/-- A prompt step keeps every receipt alive until it is returned. -/
theorem Unexpired.step (h : Unexpired wall transaction.ttlSeconds δ ρ p)
    {event : StoreEvent PreparationWork}
    (hprompt : Prompt wall transaction.ttlSeconds δ ρ p event)
    (hstep : (transaction.timed P wall).step p event p') :
    Unexpired wall transaction.ttlSeconds δ ρ p' := by
  obtain ⟨s, last⟩ := p
  obtain ⟨s', last'⟩ := p'
  obtain ⟨hstep, hlast⟩ := hstep
  simp only at hlast
  subst hlast
  cases StoreState.moves_of_step hstep with
  | refused => exact (h.remove _ (List.Sublist.refl _)).opened (.inr ⟨_, rfl⟩)
  | @conflicts key fingerprint now =>
      exact (h.remove now (IdempotencyStore.purge_sublist now)).opened (.inr ⟨_, rfl⟩)
  | @passes key fingerprint now =>
      exact (h.remove now (IdempotencyStore.purge_sublist now)).opened (.inl rfl)
  | @acquires i call hcall =>
      have hleaves : Leaves wall transaction.ttlSeconds ρ i (last i) .holding :=
        leaves_of_locked (.inl rfl)
      have hnext := @Unexpired.setPhase _ _ _ _ _ _ h i call _ _ hleaves
      rwa [Function.update_eq_self] at hnext
  | @checks i call now _ hcall =>
      exact (h.remove now (IdempotencyStore.purge_sublist now)).setPhase
        (leaves_checkPhase h hcall hprompt)
  | @succeeds i call work value now _ hcall hphase heval =>
      have hleaves : Leaves wall transaction.ttlSeconds ρ i now (.storing value) :=
        leaves_storing fun result receipt hvalue =>
          (issued_of_operation (heval.trans (congrArg some hvalue))).2.expiresAt
      have hnext := @Unexpired.setPhase _ _ _ _ _ _ h i call _ _ hleaves
      exact ⟨hnext.storing, hnext.kept, hnext.ending, hnext.returned⟩
  | @raises i call work now _ hcall =>
      exact (h.setPhase leaves_error).remove now (List.Sublist.refl _)
  | @stores i call value now _ hcall hphase =>
      refine (h.add hcall hphase hprompt IdempotencyStore.trim_sublist).setPhase
        (leaves_of_store h hcall hphase hprompt ?_)
      split
      · exact .inl rfl
      · exact .inr ⟨_, rfl⟩
  | @returns i call result now _ hcall hphase =>
      refine (h.setPhase (leaves_returned fun fields receipt hresult => ?_)).remove now
        (List.Sublist.refl _)
      subst hresult
      have hleft := h.ending i call fields receipt hcall hphase
      have hsoon := hprompt call hcall (by rw [hphase]; rfl)
      simp only at hleft hsoon
      linarith

instance (event : StoreEvent PreparationWork) :
    Decidable (Prompt wall ttlSeconds δ ρ p event) :=
  match event with
  | .begins _ _ _ => instDecidableTrue
  | .acquires _ => instDecidableTrue
  | .checks i now => inferInstanceAs (Decidable (∀ call ∈ p.1.calls[i]?,
      ∀ entry ∈ Entries.get? (p.1.purged now).entries call.key,
        entry.fingerprint = call.fingerprint → entry.value.2.isSome = true →
        wall now + δ call.key + ρ i <
          wall (entry.expiresAt - ttlSeconds) + TransformationReceipt.seconds ttlSeconds))
  | .operates _ _ _ => instDecidableTrue
  | .stores i now => inferInstanceAs (Decidable (∀ call ∈ p.1.calls[i]?,
      holdsReceipt call.phase = true → wall now ≤ wall (p.2 i) + δ call.key ∧
        δ call.key + ρ i < TransformationReceipt.seconds ttlSeconds))
  | .returns i now => inferInstanceAs (Decidable (∀ call ∈ p.1.calls[i]?,
      holdsReceipt call.phase = true → wall now ≤ wall (p.2 i) + ρ i))

/-- A prompt step. -/
def promptStep (P : Platform) (wall : ℚ → Instant) (transaction : V2PreparationTransaction)
    (δ : Str → Int) (ρ : Nat → Int) (p : TimedStore) (event : StoreEvent PreparationWork) :
    Option TimedStore :=
  if Prompt wall transaction.ttlSeconds δ ρ p event then
    (p.1.step transaction.idempotency (transaction.operation P wall) event).map
      fun s => (s, lastReadings p.2 event)
  else none

theorem timed_initial : (transaction.timed P wall).initial ({}, fun _ => 0) :=
  ⟨(rfl : ({} : StoreState Prepared PreparationWork) = {}), rfl⟩

/-- A run of prompt steps that can be computed. -/
theorem reachable_of_promptStep {events : List (StoreEvent PreparationWork)}
    (h : events.foldlM (promptStep P wall transaction δ ρ) ({}, fun _ => 0) = some p) :
    (transaction.timed P wall).Reachable (Prompt wall transaction.ttlSeconds δ ρ) p := by
  refine Machine.Reachable.foldlM (fun p event p' hstep => ?_)
    (.start timed_initial) h
  unfold promptStep at hstep
  split at hstep
  · rename_i hprompt
    obtain ⟨s, hs, rfl⟩ := Option.map_eq_some_iff.mp hstep
    exact ⟨hprompt, hs, rfl⟩
  · cases hstep

/-- No expired receipt is returned in a run of prompt calls. -/
theorem receiptsLive_of_prompt
    (h : (transaction.timed P wall).Reachable (Prompt wall transaction.ttlSeconds δ ρ) p) :
    ReceiptsLive wall p.1 := by
  have hunexpired : Unexpired wall transaction.ttlSeconds δ ρ p := by
    refine h.invariant ?_ fun _ _ _ hp hprompt hstep => hp.step hprompt hstep
    rintro ⟨s, last⟩ ⟨rfl, -⟩
    exact unexpired_initial
  exact hunexpired.returned

/-- A call that takes five seconds to store its receipt, and one that finds it when it has ten
seconds left; both return after a second. -/
def replayedEarly : List (StoreEvent PreparationWork) :=
  [.begins (lit "k") (lit "fp") 0, .acquires 0, .checks 0 0, .operates 0 workSample 2,
    .stores 0 7, .returns 0 8,
    .begins (lit "k") (lit "fp") 20, .acquires 1, .checks 1 22, .returns 1 23]

/-- The prompt run of the two calls. -/
def promptSample : Option TimedStore :=
  replayedEarly.foldlM (promptStep Platform.sample wallSample transactionSample
    (fun _ => 5000000) (fun _ => 1000000)) ({}, fun _ => 0)

theorem receiptsLive_of_prompt_sample : ∃ p, promptSample = some p ∧
    (receiptTimes p.1 = [(32000000, 8), (32000000, 23)]) ∧ ReceiptsLive wallSample p.1 := by
  have hruns : promptSample.map (fun p => receiptTimes p.1) =
      some [(32000000, 8), (32000000, 23)] := by decide +kernel
  obtain ⟨p, hp, htimes⟩ := Option.map_eq_some_iff.mp hruns
  exact ⟨p, hp, htimes, receiptsLive_of_prompt (reachable_of_promptStep hp)⟩

end Lifetimes

end MediaBridge.Gateway
