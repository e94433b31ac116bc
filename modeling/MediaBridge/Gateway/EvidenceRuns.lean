import MediaBridge.Foundation.Runs
import MediaBridge.Gateway.Downstream

/-!
# Presentations of gate evidence

A run presents sealed requests to the downstreams of successive runtime
generations, which share one signer and one clock. Each generation starts with
an empty replay guard of its own, and an older generation may still serve.

## Implementation notes

Evidence is the signed text between the dots of a receipt: the signature covers
that text, while the replay guard remembers the receipt as it was spelled. A
presentation reads the clock once to verify and once to consume. Which call of
the signer produced the text plays no role, so the results hold for every text.
-/

namespace MediaBridge.Gateway

open Foundation MediaBridge.Core

namespace ReplayGuard

variable {P : Platform} {maxEntries : Nat}

/-- Purging keeps what has not expired. -/
theorem get?_purged {used : ReplayGuard} {now expiry : ℚ} {digest : Str}
    (h : Entries.get? used digest = some expiry) (hnow : now < expiry) :
    Entries.get? (purged used now) digest = some expiry := by
  induction used with
  | nil => cases h
  | cons e rest ih =>
      obtain ⟨k, v⟩ := e
      rw [Entries.get?_cons] at h
      split at h
      · rename_i hk
        cases h
        rw [purged, List.filter_cons_of_pos (by simpa using hnow), Entries.get?_cons, if_pos hk]
      · rename_i hk
        by_cases hv : now < v
        · rw [purged, List.filter_cons_of_pos (by simpa using hv), Entries.get?_cons, if_neg hk]
          exact ih h
        · rw [purged, List.filter_cons_of_neg (by simpa using hv)]
          exact ih h

/-- A consumed receipt was not remembered, and is remembered afterwards. -/
theorem consume_eq_ok {used used' : ReplayGuard} {now : ℚ} {receipt : Str}
    (h : consume P maxEntries used now receipt = .ok used') :
    ∃ data, Utf8.encode receipt = some data ∧
      Entries.get? (purged used now) (P.sha256Hex data) = none ∧
      used' = Entries.set (purged used now) (P.sha256Hex data) (now + retentionSeconds) := by
  unfold consume at h
  split at h
  · cases h
  rename_i data hdata
  simp only at h
  split at h
  · cases h
  rename_i hfresh
  split at h
  · cases h
  cases h
  refine ⟨data, hdata, ?_, rfl⟩
  simpa [Entries.has] using hfresh

end ReplayGuard

/-- A sealed request that reaches the downstream of a generation. -/
structure Presentation where
  generation : Nat
  verifyAt : ℚ
  consumeAt : ℚ
  request : SealedGatewayRequest

/-- The signed text of a receipt. -/
def evidenceOf (receipt : Str) : Str := (Str.splitOn Receipts.dot receipt).getD 1 []

/-- One verified and consumed presentation. -/
structure Acceptance where
  evidence : Str
  receipt : Str
  generation : Nat
  verifiedAt : ℚ
  consumedAt : ℚ

structure BoundaryState where
  clock : ℚ
  guards : Nat → ReplayGuard
  accepted : List Acceptance

/-- What all generations have in common. -/
structure BoundaryConfig where
  unicode : UnicodeData
  platform : Platform
  signer : GateReceiptSigner
  stack : Nat
  maxEntries : Nat

namespace BoundaryConfig

variable (C : BoundaryConfig)

/-- The guard of one generation is replaced. -/
def withGuard (guards : Nat → ReplayGuard) (generation : Nat) (used : ReplayGuard) :
    Nat → ReplayGuard :=
  Function.update guards generation used

/-- The acceptance a presentation gives when both checks pass. -/
def acceptance (e : Presentation) : Acceptance where
  evidence := evidenceOf e.request.receipt
  receipt := e.request.receipt
  generation := e.generation
  verifiedAt := e.verifyAt
  consumedAt := e.consumeAt

/-- `_verify_seal` and `consume`, as the first lines of `invoke`. -/
def present (s : BoundaryState) (e : Presentation) : BoundaryState :=
  match verifySeal C.unicode C.platform C.stack C.signer e.verifyAt e.request with
  | .error _ => { s with clock := e.consumeAt }
  | .ok _ =>
      let used := s.guards e.generation
      match ReplayGuard.consume C.platform C.maxEntries used e.consumeAt e.request.receipt with
      | .error _ =>
          ⟨e.consumeAt, withGuard s.guards e.generation (ReplayGuard.purged used e.consumeAt),
            s.accepted⟩
      | .ok used =>
          ⟨e.consumeAt, withGuard s.guards e.generation used, s.accepted ++ [acceptance e]⟩

/-- The boundary as a state machine under a clock that does not decrease. -/
def machine : Machine BoundaryState Presentation where
  initial s := s.guards = (fun _ => []) ∧ s.accepted = []
  step s e s' := s.clock ≤ e.verifyAt ∧ e.verifyAt ≤ e.consumeAt ∧ s' = C.present s e

/-- Evidence that was accepted before and passes the seal again comes back in the same spelling, to
the same generation and while the guard still remembers it. -/
def Careful (s : BoundaryState) (e : Presentation) : Prop :=
  verifySeal C.unicode C.platform C.stack C.signer e.verifyAt e.request = .ok () →
    ∀ a ∈ s.accepted, a.evidence = evidenceOf e.request.receipt →
      a.generation = e.generation ∧ a.receipt = e.request.receipt ∧
        e.consumeAt < a.consumedAt + ReplayGuard.retentionSeconds

/-- The guard of a generation remembers what it accepted until the entry expires. -/
def Remembered (s : BoundaryState) (a : Acceptance) : Prop :=
  s.clock < a.consumedAt + ReplayGuard.retentionSeconds →
    ∃ data, Utf8.encode a.receipt = some data ∧
      Entries.get? (s.guards a.generation) (C.platform.sha256Hex data) =
        some (a.consumedAt + ReplayGuard.retentionSeconds)

/-- What every presentation preserves. -/
structure Invariant (s : BoundaryState) : Prop where
  remembered : ∀ a ∈ s.accepted, C.Remembered s a
  distinct : (s.accepted.map Acceptance.evidence).Nodup

variable {C}

@[simp] theorem clock_present (s : BoundaryState) (e : Presentation) :
    (C.present s e).clock = e.consumeAt := by
  unfold present
  split
  · rfl
  · dsimp only
    split <;> rfl

theorem Remembered.of_guard {s : BoundaryState} {a : Acceptance}
    (h : C.Remembered s a) {clock : ℚ} {guards : Nat → ReplayGuard} {accepted : List Acceptance}
    (hclock : s.clock ≤ clock)
    (hguard : ∀ digest, clock < a.consumedAt + ReplayGuard.retentionSeconds →
      Entries.get? (s.guards a.generation) digest =
        some (a.consumedAt + ReplayGuard.retentionSeconds) →
      Entries.get? (guards a.generation) digest =
        some (a.consumedAt + ReplayGuard.retentionSeconds)) :
    C.Remembered ⟨clock, guards, accepted⟩ a := by
  intro hlt
  obtain ⟨data, hdata, hget⟩ := h (lt_of_le_of_lt hclock hlt)
  exact ⟨data, hdata, hguard _ hlt hget⟩

/-- Purging the guard of one generation forgets nothing that is remembered. -/
theorem get?_withGuard_purged {guards : Nat → ReplayGuard} {generation g : Nat} {now expiry : ℚ}
    {digest : Str} (h : Entries.get? (guards g) digest = some expiry) (hnow : now < expiry) :
    Entries.get? (withGuard guards generation (ReplayGuard.purged (guards generation) now) g)
      digest = some expiry := by
  by_cases hg : g = generation
  · subst hg
    rw [withGuard, Function.update_self]
    exact ReplayGuard.get?_purged h hnow
  · rw [withGuard, Function.update_of_ne hg]
    exact h

/-- Consuming another receipt forgets nothing that is remembered. -/
theorem get?_withGuard_set {guards : Nat → ReplayGuard} {generation g : Nat}
    {now expiry expiry' : ℚ} {digest digest' : Str}
    (h : Entries.get? (guards g) digest = some expiry) (hnow : now < expiry)
    (hfresh : Entries.get? (ReplayGuard.purged (guards generation) now) digest' = none) :
    Entries.get? (withGuard guards generation
      (Entries.set (ReplayGuard.purged (guards generation) now) digest' expiry') g) digest =
        some expiry := by
  by_cases hg : g = generation
  · subst hg
    have hkept := ReplayGuard.get?_purged h hnow
    have hne : digest ≠ digest' := by
      rintro rfl
      rw [hkept] at hfresh
      cases hfresh
    rw [withGuard, Function.update_self, Entries.get?_set_of_ne _ _ hne]
    exact hkept
  · rw [withGuard, Function.update_of_ne hg]
    exact h

/-- Evidence that comes back carefully is refused. -/
theorem fresh_of_careful {s : BoundaryState} {e : Presentation} (hs : C.Invariant s)
    (hcareful : C.Careful s e) (hclock : s.clock ≤ e.consumeAt)
    (hseal : verifySeal C.unicode C.platform C.stack C.signer e.verifyAt e.request = .ok ())
    {used : ReplayGuard}
    (hconsume : ReplayGuard.consume C.platform C.maxEntries (s.guards e.generation) e.consumeAt
      e.request.receipt = .ok used) :
    ∀ a ∈ s.accepted, a.evidence ≠ evidenceOf e.request.receipt := by
  intro a ha heq
  obtain ⟨hgen, hreceipt, hwindow⟩ := hcareful hseal a ha heq
  obtain ⟨data, hdata, hget⟩ := hs.remembered a ha (lt_of_le_of_lt hclock hwindow)
  obtain ⟨data', hdata', hfresh, -⟩ := ReplayGuard.consume_eq_ok hconsume
  rw [hreceipt, hdata'] at hdata
  cases hdata
  rw [hgen] at hget
  rw [ReplayGuard.get?_purged hget hwindow] at hfresh
  cases hfresh

/-- A presentation is accepted or leaves the accepted ones as they are. -/
theorem accepted_present (s : BoundaryState) (e : Presentation) :
    (C.present s e).accepted = s.accepted ∨
      (C.present s e).accepted = s.accepted ++ [acceptance e] := by
  unfold BoundaryConfig.present
  split
  · exact .inl rfl
  · simp only
    split
    · exact .inl rfl
    · exact .inr rfl

/-- One presentation preserves the invariant. -/
theorem Invariant.present {s : BoundaryState} {e : Presentation} (hs : C.Invariant s)
    (hcareful : C.Careful s e) (hverify : s.clock ≤ e.verifyAt)
    (hconsume : e.verifyAt ≤ e.consumeAt) : C.Invariant (C.present s e) := by
  have hclock : s.clock ≤ e.consumeAt := hverify.trans hconsume
  unfold BoundaryConfig.present
  split
  · exact ⟨fun a ha => (hs.remembered a ha).of_guard hclock fun _ _ h => h, hs.distinct⟩
  rename_i hseal
  simp only
  split
  · refine ⟨fun a ha => (hs.remembered a ha).of_guard hclock fun _ hlt hget => ?_, hs.distinct⟩
    exact get?_withGuard_purged hget hlt
  · rename_i used hused
    obtain ⟨data, hdata, hfresh, rfl⟩ := ReplayGuard.consume_eq_ok hused
    refine ⟨fun a ha => ?_, ?_⟩
    · rcases List.mem_append.mp ha with hold | hnew
      · exact (hs.remembered a hold).of_guard hclock fun _ hlt hget =>
          get?_withGuard_set hget hlt hfresh
      · obtain rfl := List.mem_singleton.mp hnew
        intro _
        refine ⟨data, hdata, ?_⟩
        simp only [acceptance, withGuard, Function.update_self, Entries.get?_set_self]
    · rw [List.map_append, List.map_singleton]
      refine List.Nodup.append hs.distinct (List.nodup_singleton _) ?_
      intro evidence hold hnew
      obtain ⟨a, ha, rfl⟩ := List.mem_map.mp hold
      exact fresh_of_careful hs hcareful hclock hseal hused a ha (List.mem_singleton.mp hnew)

/-- In every run of careful presentations, no evidence is accepted twice. -/
theorem evidence_accepted_once (C : BoundaryConfig) {s : BoundaryState}
    (h : C.machine.Reachable C.Careful s) : (s.accepted.map Acceptance.evidence).Nodup := by
  have hinv : C.Invariant s := by
    refine h.invariant (I := C.Invariant) ?_ ?_
    · rintro s ⟨-, haccepted⟩
      exact ⟨by simp [haccepted], by simp [haccepted]⟩
    · rintro s e s' hs hcareful ⟨hverify, hconsume, rfl⟩
      exact hs.present hcareful hverify hconsume
  exact hinv.distinct

section Sample

/-- A passthrough request with a receipt signed at time 0 for 30 seconds. -/
def sampleRequest : SealedGatewayRequest :=
  let payload := [(lit "model", .str (lit "m"))]
  let nonce := lit "abcdefghijklmnop"
  let digest := (sealedDigest .sample payload nonce).getD []
  let binding : ReceiptBinding := ⟨lit "m", lit "vision", digest, digest, lit "passthrough"⟩
  { targetId := binding.targetId
    capability := binding.capability
    action := binding.action
    payload := payload
    inputDigest := binding.inputDigest
    outputDigest := binding.outputDigest
    receipt := (Receipts.sign .sample .sample 0 binding 30).getD []
    requestNonce := nonce }

/-- The request at a time in seconds, with text appended to its receipt. -/
def samplePresentation (suffix : Str) (now : ℚ) : Presentation :=
  ⟨0, now, now, { sampleRequest with receipt := sampleRequest.receipt ++ suffix }⟩

def sampleConfig : BoundaryConfig := ⟨.ascii id, .sample, .sample, 900, 100000⟩

def sampleStart : BoundaryState := ⟨0, fun _ => [], []⟩

set_option maxRecDepth 10000 in
/-- The receipt and the same receipt with its padding written out are both accepted. -/
theorem not_nodup_padded :
    ¬ ((sampleConfig.present (sampleConfig.present sampleStart (samplePresentation [] 0))
      (samplePresentation [Base64.pad] 0)).accepted.map Acceptance.evidence).Nodup := by
  decide +kernel

theorem length_accepted_first :
    (sampleConfig.present sampleStart (samplePresentation [] 0)).accepted.length = 1 := by
  rcases accepted_present (C := sampleConfig) sampleStart (samplePresentation [] 0) with h | h
  · refine absurd ?_ not_nodup_padded
    rcases accepted_present (C := sampleConfig)
      (sampleConfig.present sampleStart (samplePresentation [] 0))
      (samplePresentation [Base64.pad] 0) with h' | h' <;> rw [h', h]
    · exact List.nodup_nil
    · exact List.nodup_singleton _
  · rw [h]
    rfl

/-- A receipt that comes back unchanged after five seconds was accepted once. -/
theorem evidence_accepted_once_sample :
    let first := sampleConfig.present sampleStart (samplePresentation [] 0)
    first.accepted.length = 1 ∧
      ((sampleConfig.present first (samplePresentation [] 5)).accepted.map
        Acceptance.evidence).Nodup := by
  refine ⟨length_accepted_first, ?_⟩
  apply evidence_accepted_once sampleConfig
  have hfirst : sampleConfig.machine.Reachable sampleConfig.Careful
      (sampleConfig.present sampleStart (samplePresentation [] 0)) := by
    refine .next (s := sampleStart) (e := samplePresentation [] 0) (.start ⟨rfl, rfl⟩) ?_ ?_
    · intro _ a ha
      cases ha
    · exact ⟨le_refl (0 : ℚ), le_refl (0 : ℚ), rfl⟩
  have hlater : (0 : ℚ) ≤ 5 := by norm_num
  refine .next (e := samplePresentation [] 5) hfirst ?_
    ⟨(clock_present _ _).trans_le hlater, le_refl (5 : ℚ), rfl⟩
  intro _ a ha heq
  have hone : a = acceptance (samplePresentation [] 0) := by
    rcases accepted_present (C := sampleConfig) sampleStart (samplePresentation [] 0) with h | h
    · rw [h] at ha
      cases ha
    · rw [h] at ha
      exact List.mem_singleton.mp ha
  subst hone
  refine ⟨rfl, rfl, ?_⟩
  change (5 : ℚ) < 0 + 300
  norm_num

/-- The guard takes the second spelling for another receipt. -/
theorem evidence_accepted_twice :
    ¬ ∀ (C : BoundaryConfig) (s : BoundaryState), C.machine.Reachable Machine.anyStep s →
      (s.accepted.map Acceptance.evidence).Nodup := by
  intro h
  apply not_nodup_padded
  apply h sampleConfig
  refine .next (e := samplePresentation [Base64.pad] 0) ?_ trivial
    ⟨(clock_present _ _).le, le_refl (0 : ℚ), rfl⟩
  exact .next (s := sampleStart) (e := samplePresentation [] 0) (.start ⟨rfl, rfl⟩) trivial
    ⟨le_refl (0 : ℚ), le_refl (0 : ℚ), rfl⟩

end Sample

end BoundaryConfig

end MediaBridge.Gateway
