import MediaBridge.Core.IdempotencyReplay
import MediaBridge.Core.TransformationReceipt
import MediaBridge.Gateway.Hops
import Mathlib.Data.Int.ConditionallyCompleteOrder

/-!
# Prepared requests and their receipts

`V2PreparationTransaction` of `media_bridge_gateway/transaction.py`: a request is transformed, its
media are cleaned up, and a receipt is issued, once for each idempotency key.

## Implementation notes

The work of an operation is what `transform` and `cleanup` answer. A result need not be one that
the validator accepts, since `model_copy` does not validate. An operation ends at the reading at
which it builds the receipt; `wall` is what `datetime.now(UTC)` reads then.
-/

namespace MediaBridge.Gateway

open MediaBridge.Core Foundation

/-- `V2PreparationTransaction`, with a lifetime that the store accepts. -/
structure V2PreparationTransaction where
  ttlSeconds : Int := 30
  ttl_range : 1 ≤ ttlSeconds ∧ ttlSeconds ≤ 86400

/-- What the operation of a call meets; `none` is an exception. -/
structure PreparationWork where
  transformed : Option InteropFields
  cleaned : Option Bool

/-- What `execute` returns. -/
abbrev Prepared := InteropFields × Option TransformationReceipt

/-- The message of an uncleaned request. -/
def cleanupMessage : Constrained 200 someText where
  value := lit "Original media cleanup was not verified."
  encodable := by decide
  length_le := by decide
  accepted := rfl

namespace V2PreparationTransaction

/-- `self._idempotency`. -/
def idempotency (transaction : V2PreparationTransaction) : IdempotencyStore where
  ttlSeconds := transaction.ttlSeconds
  ttl_range := by exact_mod_cast transaction.ttl_range

/-- The copy of a result that must not be sent. -/
def blocked (result : InteropFields) (code : MediaBridgeV2ErrorCode)
    (message : Constrained 200 someText) : InteropFields :=
  { result with
    status := .blocked
    sanitizedMessages := []
    originalMediaRemoved := false
    error := some { code := code, message := message } }

/-- The receipt of a cleaned result, or why there is none. -/
def receipted (P : Platform) (now : Instant) (transaction : V2PreparationTransaction)
    (result : InteropFields) : Option Prepared :=
  match TransformationReceipt.build P now transaction.ttlSeconds result with
  | .ok receipt => some (result, some receipt)
  | .error (.refused refusal) =>
      some (blocked result .sanitizationFailed refusal.message, none)
  | .error .raised => none

/-- The operation of a call; `none` is an exception. -/
def operation (P : Platform) (wall : ℚ → Instant) (transaction : V2PreparationTransaction)
    (work : PreparationWork) (now : ℚ) : Option Prepared :=
  match work.transformed with
  | none => none
  | some result =>
      if result.status ≠ .prepared then some (result, none)
      else
        match work.cleaned with
        | none => none
        | some false => some (blocked result .originalMediaRemains cleanupMessage, none)
        | some true => receipted P (wall now) transaction result

/-- The interleavings of the calls of `execute`. -/
def machine (P : Platform) (wall : ℚ → Instant) (transaction : V2PreparationTransaction) :
    Machine (StoreState Prepared PreparationWork) (StoreEvent PreparationWork) :=
  StoreState.machine transaction.idempotency (transaction.operation P wall)

end V2PreparationTransaction

section Receipts

variable {P : Platform} {wall : ℚ → Instant} {transaction : V2PreparationTransaction}
  {s : StoreState Prepared PreparationWork}

/-- A receipt that an operation issues. -/
structure PreparationWork.Earns (work : PreparationWork) (result : InteropFields) : Prop where
  transformed : work.transformed = some result
  cleaned : work.cleaned = some true
  prepared : result.status = .prepared
  removed : result.originalMediaRemoved = true

/-- An operation issues a receipt for a prepared and cleaned result only. -/
theorem issued_of_operation {work : PreparationWork} {now : ℚ} {result : InteropFields}
    {receipt : TransformationReceipt}
    (h : transaction.operation P wall work now = some (result, some receipt)) :
    work.Earns result ∧
      TransformationReceipt.Issued (wall now) transaction.ttlSeconds result receipt := by
  unfold V2PreparationTransaction.operation at h
  split at h
  · cases h
  · rename_i transformed htransformed
    split at h
    · cases h
    · split at h
      · cases h
      · cases h
      · rename_i hcleaned
        unfold V2PreparationTransaction.receipted at h
        split at h
        · rename_i built hbuilt
          cases h
          have hissued := TransformationReceipt.issued_of_build hbuilt
          exact ⟨⟨htransformed, hcleaned, hissued.prepared, hissued.removed⟩, hissued⟩
        · cases h
        · cases h

/-- Each receipt that a call gets was earned by an operation of its key and fingerprint. -/
def ReceiptsEarned (s : StoreState Prepared PreparationWork) : Prop :=
  ∀ call ∈ s.calls, ∀ result receipt, call.phase.result? = some (.ok (result, some receipt)) →
    ∃ success ∈ s.successes, success.key = call.key ∧ success.fingerprint = call.fingerprint ∧
      success.value = (result, some receipt) ∧ success.work.Earns result

/-- The receipt of a call, with the operation that has issued it. -/
theorem success_of_receipt
    (h : (transaction.machine P wall).Reachable Machine.anyStep s) {call : StoreCall Prepared}
    (hcall : call ∈ s.calls) {result : InteropFields} {receipt : TransformationReceipt}
    (hresult : call.phase.result? = some (.ok (result, some receipt))) :
    ∃ success ∈ s.successes, success.key = call.key ∧ success.fingerprint = call.fingerprint ∧
      success.value = (result, some receipt) := by
  exact (StoreState.sound_of_reachable h).answered call hcall _ hresult

/-- What an operation that returned a receipt met. -/
theorem issued_of_success
    (h : (transaction.machine P wall).Reachable Machine.anyStep s)
    {success : Success Prepared PreparationWork} (hsuccess : success ∈ s.successes)
    {result : InteropFields} {receipt : TransformationReceipt}
    (hvalue : success.value = (result, some receipt)) :
    success.work.Earns result ∧ TransformationReceipt.Issued (wall success.endedAt)
      transaction.ttlSeconds result receipt := by
  have heval := (StoreState.sound_of_reachable h).evaluated success hsuccess
  rw [hvalue] at heval
  exact issued_of_operation heval

/-- A result that the validator accepts, whose asset expires after a minute. -/
def preparedSample : InteropV2Result where
  status := .prepared
  requestId := Hops.sampleId
  traceId := ⟨lit "trace", by decide, by decide, rfl⟩
  idempotencyKey := ⟨lit "idempotency", by decide, by decide, rfl⟩
  sanitizedMessages := [[(lit "role", .str (lit "user")), (lit "content", .str (lit "safe"))]]
  originalMediaRemoved := true
  assetDigests := [⟨lit "sha256:" ++ List.replicate 64 (cp 49), by decide +kernel,
    by decide +kernel, by decide +kernel⟩]
  mediaTypes := [MediaTypeHint.image.opaqueId]
  transformations := [[]]
  backend := some ⟨⟨lit "local", by decide, by decide, rfl⟩, ⟨lit "1", by decide, by decide, rfl⟩⟩
  provenance := [[]]
  confidence := some []
  informationLoss := some []
  requiredCapabilitiesAfter := some []
  tokenEstimate := some []
  preparedMarker := some ⟨⟨lit "sha256:" ++ List.replicate 64 (cp 52), by decide +kernel,
    by decide +kernel, by decide +kernel⟩, ⟨TransformationReceipt.seconds 60, some 0⟩⟩
  lengths_valid := rfl
  status_valid := rfl

/-- A request that is prepared and cleaned. -/
def workSample : PreparationWork where
  transformed := some preparedSample.toInteropFields
  cleaned := some true

/-- A transaction with the default lifetime. -/
def transactionSample : V2PreparationTransaction where
  ttl_range := by decide

/-- A wall clock that started with the other one. -/
def wallSample (now : ℚ) : Instant := ⌊now * 1000000⌋

/-- A call that prepares a request, and a call that finds it prepared and returns late. -/
def replayedLate : List (StoreEvent PreparationWork) :=
  [.begins (lit "k") (lit "fp") 0, .acquires 0, .checks 0 0, .operates 0 workSample 0,
    .stores 0 20, .returns 0 20,
    .begins (lit "k") (lit "fp") 40, .acquires 1, .checks 1 40, .returns 1 40]

/-- The run of the two calls. -/
def runSample : Option (StoreState Prepared PreparationWork) :=
  replayedLate.foldlM (StoreState.step transactionSample.idempotency
    (transactionSample.operation Platform.sample wallSample)) {}

/-- In every run a request is prepared once for all calls of its key, and receipts are issued for
prepared and cleaned results only. -/
theorem serialized_and_receiptsEarned
    (h : (transaction.machine P wall).Reachable Machine.anyStep s) :
    s.Serialized transaction.idempotency (transaction.operation P wall) ∧ ReceiptsEarned s := by
  refine ⟨StoreState.serialized_of_reachable h, ?_⟩
  intro call hcall result receipt hresult
  obtain ⟨success, hmem, hkey, hfingerprint, hvalue⟩ := success_of_receipt h hcall hresult
  exact ⟨success, hmem, hkey, hfingerprint, hvalue, (issued_of_success h hmem hvalue).1⟩

theorem serialized_and_receiptsEarned_sample : ∃ s, runSample = some s ∧
    s.Serialized transactionSample.idempotency
      (transactionSample.operation Platform.sample wallSample) ∧ ReceiptsEarned s := by
  have hruns : runSample.isSome = true := by decide +kernel
  obtain ⟨s, hs⟩ := Option.isSome_iff_exists.mp hruns
  exact ⟨s, hs, serialized_and_receiptsEarned (StoreState.reachable_of_foldlM hs)⟩

/-- Every receipt is returned before it expires. -/
def ReceiptsLive (wall : ℚ → Instant) (s : StoreState Prepared PreparationWork) : Prop :=
  ∀ call ∈ s.calls, ∀ result receipt now,
    call.phase = .returned (.ok (result, some receipt)) now → wall now < receipt.expiresAt

/-- The returns of receipts, with when they expire and when they were returned. -/
def receiptTimes (s : StoreState Prepared PreparationWork) : List (Instant × ℚ) :=
  s.calls.filterMap fun call =>
    match call.phase with
    | .returned (.ok (_, some receipt)) now => some (receipt.expiresAt, now)
    | _ => none

/-- The times of a return are those of a call. -/
theorem ReceiptsLive.times (h : ReceiptsLive wall s) {expiresAt : Instant} {now : ℚ}
    (hmem : (expiresAt, now) ∈ receiptTimes s) : wall now < expiresAt := by
  obtain ⟨call, hcall, htimes⟩ := List.mem_filterMap.mp hmem
  split at htimes
  · rename_i result receipt at' hphase
    cases htimes
    exact h call hcall result receipt _ hphase
  · cases htimes

/-- A receipt that was built long before it was stored is returned after it has expired. -/
theorem not_receiptsLive : ¬ ∀ (P : Platform) (wall : ℚ → Instant)
    (transaction : V2PreparationTransaction) (s : StoreState Prepared PreparationWork),
      Monotone wall → (transaction.machine P wall).Reachable Machine.anyStep s →
        ReceiptsLive wall s := by
  have hruns : runSample.map receiptTimes =
      some [(30000000, 20), (30000000, 40)] := by decide +kernel
  obtain ⟨s, hs, htimes⟩ := Option.map_eq_some_iff.mp hruns
  intro hall
  have hmono : Monotone wallSample := by
    intro a b hab
    exact Int.floor_le_floor (mul_le_mul_of_nonneg_right hab (by norm_num))
  have hlive := hall _ _ transactionSample s hmono (StoreState.reachable_of_foldlM hs)
  have hlt := hlive.times (by
    rw [htimes]
    exact List.mem_cons_of_mem _ List.mem_cons_self)
  exact absurd hlt (by decide +kernel)

end Receipts

end MediaBridge.Gateway
