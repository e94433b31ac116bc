import MediaBridge.Core.ConfigSnapshot
import MediaBridge.Foundation.Runs
import MediaBridge.Foundation.TrackedFiles

/-!
# The asset store

`media_bridge/assets.py`: files of tenants that are read once.

## Implementation notes

The file of an asset is named by its identifier, and stands under it. A call reads the clock when
it begins, and goes on in locked sections; `put` writes its file between two of them. Reads and
removals may fail in any way, writes do not fail, and looking for a file tells the truth. A token
is one that nobody has named before, and that no other call names before `put` has returned it.
-/

namespace MediaBridge.Core

open Foundation

/-- `AssetStore`, with the settings that its constructor accepts. -/
structure AssetStore where
  maxBytes : Int := 2 * 1024 * 1024
  ttlSeconds : ℚ := 300
  maxBytes_pos : 1 ≤ maxBytes
  ttl_range : 1 ≤ ttlSeconds ∧ ttlSeconds ≤ 3600

structure ConsumedAsset where
  data : Bytes
  filename : Option Str
  declaredMime : Option Str
deriving DecidableEq

/-- `_AssetRecord`. -/
structure AssetRecord where
  tenantId : Str
  filename : Option Str
  declaredMime : Option Str
  expiresAt : ℚ
deriving DecidableEq

/-- `^[A-Za-z0-9][A-Za-z0-9._-]{0,127}$`, matched in full. -/
def validTenantId : Str → Bool
  | [] => false
  | c :: rest =>
      c.isAsciiAlnum && rest.length ≤ 127 && rest.all fun d => urlSafeChar d || d == cp 46

/-- `Path(filename).name == filename and len(filename) <= 255`. -/
def safeFilename (filename : Str) : Bool :=
  decide (cp 47 ∉ filename) && decide (filename ≠ lit ".") && decide (filename.length ≤ 255)

/-- What a tenant asks. -/
inductive AssetRequest
  | put (tenantId : Str) (data : Bytes) (filename declaredMime : Option Str)
  | consume (assetId tenantId : Str)
  | delete (assetId tenantId : Str)
  | purge
  | clear

/-- The identifier that a request names. -/
def AssetRequest.assetId? : AssetRequest → Option Str
  | .put _ _ _ _ => none
  | .consume assetId _ => some assetId
  | .delete assetId _ => some assetId
  | .purge => none
  | .clear => none

/-- What a call returns; `failed` is the `AssetAccessError`. -/
inductive AssetAnswer
  | stored (assetId : Str)
  | consumed (asset : ConsumedAsset)
  | deleted (found : Bool)
  | done
  | failed (message : String)
deriving DecidableEq

/-- How far a call has come. -/
inductive AssetPhase
  /-- It has read the clock, and is about to purge. -/
  | purging
  /-- It is about to enter its own locked section, or to open its file. -/
  | ready
  /-- Its file is open. -/
  | writing (assetId : Str)
  /-- Its file is written, and not registered. -/
  | written (assetId : Str)
  | finished (answer : AssetAnswer)

/-- The token of a call whose file has no record yet. -/
def AssetPhase.pending? : AssetPhase → Option Str
  | .purging => none
  | .ready => none
  | .writing assetId => some assetId
  | .written assetId => some assetId
  | .finished _ => none

/-- A call, with its reading of the clock. -/
structure AssetCall where
  request : AssetRequest
  now : ℚ
  phase : AssetPhase

/-- A store, its directory and its calls; `drawn` and `registered` say which tokens have been drawn
and what has been registered. -/
structure AssetState where
  store : TrackedFiles Str AssetRecord Bytes := {}
  calls : List AssetCall := []
  drawn : List Str := []
  registered : Entries Str (AssetRecord × Bytes) := []

/-- What happens at a store. The `i`-th call goes on. -/
inductive AssetEvent
  | begins (request : AssetRequest) (now : ℚ)
  | purges (i : Nat) (removal : Str → Removal)
  | opens (i : Nat) (token : Str)
  | writes (i : Nat)
  | registers (i : Nat) (now : ℚ)
  | removes (i : Nat) (reads : Bool) (removal : Removal)
  | clears (i : Nat) (removal : Str → Removal)

namespace AssetStore

/-- The files and records of a store. -/
abbrev Shelf := TrackedFiles Str AssetRecord Bytes

/-- The identifiers of the expired records. -/
def expired (now : ℚ) (store : Shelf) : List Str :=
  Entries.keys (store.records.filter fun e => decide (e.2.expiresAt ≤ now))

/-- The locked section of `purge_expired`. -/
def purgeExpired (now : ℚ) (removal : Str → Removal) (store : Shelf) : Shelf × Option String :=
  match store.removeEach removal true (expired now store) with
  | (store, .gone) => (store, none)
  | (store, .failed) => (store, some "expired asset cleanup failed")
  | (store, .remains) => (store, some "expired asset cleanup could not be verified")

/-- The checks of `put`; the message of the `AssetAccessError`. -/
def putRefusal (settings : AssetStore) (tenantId : Str) (data : Bytes) (filename : Option Str) :
    Option String :=
  if !validTenantId tenantId then some "tenant identifier is invalid"
  else if settings.maxBytes < data.length then some "asset exceeds the configured byte limit"
  else if filename.any fun name => !safeFilename name then some "asset filename is unsafe"
  else none

/-- The record of a tenant, under the lock. -/
def tenantRecord? (store : Shelf) (assetId tenantId : Str) : Option AssetRecord :=
  (Entries.get? store.records assetId).filter fun record => decide (record.tenantId = tenantId)

/-- `consume`, after the purge. -/
def consume (settings : AssetStore) (assetId tenantId : Str) (reads : Bool) (removal : Removal)
    (store : Shelf) : Shelf × AssetAnswer :=
  if !validTenantId tenantId then (store, .failed "tenant identifier is invalid")
  else
    match tenantRecord? store assetId tenantId with
    | none => (store, .failed "asset is unavailable")
    | some record =>
        match if reads then Entries.get? store.files assetId else none with
        | none => (store, .failed "asset could not be consumed safely")
        | some data =>
            match store.unlink assetId removal with
            | (store, .failed) => (store, .failed "asset could not be consumed safely")
            | (store, .remains) => (store, .failed "asset deletion could not be verified")
            | (store, .gone) =>
                (store.forget assetId,
                  if settings.maxBytes < data.length then
                    .failed "asset exceeds the configured byte limit"
                  else .consumed ⟨data, record.filename, record.declaredMime⟩)

/-- `delete`, after the purge. -/
def delete (assetId tenantId : Str) (removal : Removal) (store : Shelf) : Shelf × AssetAnswer :=
  if !validTenantId tenantId then (store, .failed "tenant identifier is invalid")
  else
    match tenantRecord? store assetId tenantId with
    | none => (store, .deleted false)
    | some _ =>
        match store.unlink assetId removal with
        | (store, .failed) => (store, .failed "asset could not be deleted safely")
        | (store, .remains) => (store, .failed "asset deletion could not be verified")
        | (store, .gone) => (store.forget assetId, .deleted true)

/-- `clear`. -/
def clear (removal : Str → Removal) (store : Shelf) : Shelf × AssetAnswer :=
  match store.removeEach removal false (Entries.keys store.records) with
  | (store, .gone) => ({ store with records := [] }, .done)
  | (store, .failed) => (store, .failed "asset shutdown cleanup failed")
  | (store, .remains) => (store, .failed "asset shutdown cleanup could not be verified")

end AssetStore

namespace AssetState

/-- The `i`-th call is in another phase. -/
def setPhase (s : AssetState) (i : Nat) (call : AssetCall) (phase : AssetPhase) : AssetState :=
  { s with calls := s.calls.set i { call with phase := phase } }

/-- A call has drawn the token, and its file has no record yet. -/
def pending (s : AssetState) (assetId : Str) : Bool :=
  s.calls.any fun call => decide (call.phase.pending? = some assetId)

/-- A call names the identifier. -/
def named (s : AssetState) (assetId : Str) : Bool :=
  s.calls.any fun call => decide (call.request.assetId? = some assetId)

/-- Nobody has named the token before. -/
def fresh (s : AssetState) (token : Str) : Bool :=
  decide (token ∉ s.drawn) && !s.named token

/-- A call begins, unless it names the token of a call that has not returned it. -/
def begin (s : AssetState) (request : AssetRequest) (now : ℚ) : Option AssetState :=
  if request.assetId?.any s.pending then none
  else
    some { s with
      calls := s.calls ++ [⟨request, now, match request with
        | .clear => .ready
        | _ => .purging⟩] }

/-- The phase after a purge. -/
def purgedPhase (request : AssetRequest) : Option String → AssetPhase
  | some message => .finished (.failed message)
  | none =>
      match request with
      | .purge => .finished .done
      | _ => .ready

/-- A call has purged the store. -/
def purge (s : AssetState) (i : Nat) (call : AssetCall) (removal : Str → Removal) : AssetState :=
  let purged := AssetStore.purgeExpired call.now removal s.store
  { s.setPhase i call (purgedPhase call.request purged.2) with store := purged.1 }

/-- A file stands under a token. -/
def setFile (s : AssetState) (token : Str) (data : Bytes) : AssetState :=
  { s with store := { s.store with files := Entries.set s.store.files token data } }

/-- A call opens its file, if its token is fresh. -/
def openFile (s : AssetState) (i : Nat) (call : AssetCall) (token : Str) : Option AssetState :=
  if s.fresh token then
    some ({ s.setPhase i call (.writing token) with drawn := token :: s.drawn }.setFile token [])
  else none

/-- A call registers its file. -/
def register (settings : AssetStore) (s : AssetState) (i : Nat) (call : AssetCall) (token : Str)
    (tenantId : Str) (data : Bytes) (filename declaredMime : Option Str) (now : ℚ) : AssetState :=
  let record := ⟨tenantId, filename, declaredMime, now + settings.ttlSeconds⟩
  { s.setPhase i call (.finished (.stored token)) with
    store := { s.store with records := Entries.set s.store.records token record }
    registered := s.registered ++ [(token, record, data)] }

/-- The locked section of a call has an answer. -/
def answer (s : AssetState) (i : Nat) (call : AssetCall)
    (result : AssetStore.Shelf × AssetAnswer) : AssetState :=
  { s.setPhase i call (.finished result.2) with store := result.1 }

/-- A step of the `i`-th call; `none` if the call has not come so far. -/
def stepCall (settings : AssetStore) (s : AssetState) (i : Nat) (call : AssetCall) :
    AssetEvent → Option AssetState
  | .begins _ _ => none
  | .purges _ removal =>
      match call.phase with
      | .purging => some (s.purge i call removal)
      | _ => none
  | .opens _ token =>
      match call.phase, call.request with
      | .ready, .put tenantId data filename _ =>
          match settings.putRefusal tenantId data filename with
          | some message => some (s.setPhase i call (.finished (.failed message)))
          | none => s.openFile i call token
      | _, _ => none
  | .writes _ =>
      match call.phase, call.request with
      | .writing token, .put _ data _ _ =>
          some ((s.setFile token data).setPhase i call (.written token))
      | _, _ => none
  | .registers _ now =>
      match call.phase, call.request with
      | .written token, .put tenantId data filename declaredMime =>
          some (s.register settings i call token tenantId data filename declaredMime now)
      | _, _ => none
  | .removes _ reads removal =>
      match call.phase, call.request with
      | .ready, .consume assetId tenantId =>
          some (s.answer i call (settings.consume assetId tenantId reads removal s.store))
      | .ready, .delete assetId tenantId =>
          some (s.answer i call (AssetStore.delete assetId tenantId removal s.store))
      | _, _ => none
  | .clears _ removal =>
      match call.phase, call.request with
      | .ready, .clear => some (s.answer i call (AssetStore.clear removal s.store))
      | _, _ => none

/-- One step; `none` if it cannot happen now. -/
def step (settings : AssetStore) (s : AssetState) (event : AssetEvent) : Option AssetState :=
  match event with
  | .begins request now => s.begin request now
  | .purges i _ => (s.calls[i]?).bind fun call => s.stepCall settings i call event
  | .opens i _ => (s.calls[i]?).bind fun call => s.stepCall settings i call event
  | .writes i => (s.calls[i]?).bind fun call => s.stepCall settings i call event
  | .registers i _ => (s.calls[i]?).bind fun call => s.stepCall settings i call event
  | .removes i _ _ => (s.calls[i]?).bind fun call => s.stepCall settings i call event
  | .clears i _ => (s.calls[i]?).bind fun call => s.stepCall settings i call event

/-- The interleavings of the calls of a store. -/
def machine (settings : AssetStore) : Machine AssetState AssetEvent where
  initial s := s = {}
  step s event s' := s.step settings event = some s'

/-- What a step can do. -/
inductive Moves (settings : AssetStore) (s : AssetState) : AssetEvent → AssetState → Prop
  | begins {request : AssetRequest} {now : ℚ} {phase : AssetPhase} :
      (∀ assetId, request.assetId? = some assetId → s.pending assetId = false) →
      (phase = .purging ∨ phase = .ready ∧ request = .clear) →
      Moves settings s (.begins request now) { s with calls := s.calls ++ [⟨request, now, phase⟩] }
  | purges {i : Nat} {call : AssetCall} {removal : Str → Removal} : s.calls[i]? = some call →
      call.phase = .purging → Moves settings s (.purges i removal) (s.purge i call removal)
  | refused {i : Nat} {call : AssetCall} {token : Str} {message : String} :
      s.calls[i]? = some call → call.phase = .ready →
      Moves settings s (.opens i token) (s.setPhase i call (.finished (.failed message)))
  | opens {i : Nat} {call : AssetCall} {token : Str} : s.calls[i]? = some call →
      call.phase = .ready → s.fresh token = true →
      Moves settings s (.opens i token)
        ({ s.setPhase i call (.writing token) with drawn := token :: s.drawn }.setFile token [])
  | writes {i : Nat} {call : AssetCall} {token tenantId : Str} {data : Bytes}
      {filename declaredMime : Option Str} : s.calls[i]? = some call →
      call.phase = .writing token → call.request = .put tenantId data filename declaredMime →
      Moves settings s (.writes i) ((s.setFile token data).setPhase i call (.written token))
  | registers {i : Nat} {call : AssetCall} {token tenantId : Str} {data : Bytes}
      {filename declaredMime : Option Str} {now : ℚ} : s.calls[i]? = some call →
      call.phase = .written token → call.request = .put tenantId data filename declaredMime →
      Moves settings s (.registers i now)
        (s.register settings i call token tenantId data filename declaredMime now)
  | consumes {i : Nat} {call : AssetCall} {assetId tenantId : Str} {reads : Bool}
      {removal : Removal} : s.calls[i]? = some call → call.phase = .ready →
      call.request = .consume assetId tenantId →
      Moves settings s (.removes i reads removal)
        (s.answer i call (settings.consume assetId tenantId reads removal s.store))
  | deletes {i : Nat} {call : AssetCall} {assetId tenantId : Str} {reads : Bool}
      {removal : Removal} : s.calls[i]? = some call → call.phase = .ready →
      call.request = .delete assetId tenantId →
      Moves settings s (.removes i reads removal)
        (s.answer i call (AssetStore.delete assetId tenantId removal s.store))
  | clears {i : Nat} {call : AssetCall} {removal : Str → Removal} : s.calls[i]? = some call →
      call.phase = .ready → call.request = .clear →
      Moves settings s (.clears i removal) (s.answer i call (AssetStore.clear removal s.store))

variable {settings : AssetStore} {s s' : AssetState} {event : AssetEvent}

theorem moves_of_begin {request : AssetRequest} {now : ℚ} (h : s.begin request now = some s') :
    Moves settings s (.begins request now) s' := by
  unfold begin at h
  split at h
  · cases h
  · rename_i hnamed
    cases h
    refine .begins (fun assetId hid => ?_) ?_
    · rw [hid, Option.any_some] at hnamed
      exact Bool.eq_false_iff.mpr hnamed
    · cases request with
      | clear => exact .inr ⟨rfl, rfl⟩
      | _ => exact .inl rfl

theorem moves_of_open {i : Nat} {call : AssetCall} {token tenantId : Str} {data : Bytes}
    {filename : Option Str} (hcall : s.calls[i]? = some call) (hphase : call.phase = .ready)
    (h : (match settings.putRefusal tenantId data filename with
      | some message => some (s.setPhase i call (.finished (.failed message)))
      | none => s.openFile i call token) = some s') :
    Moves settings s (.opens i token) s' := by
  split at h
  · cases h
    exact .refused hcall hphase
  · unfold openFile at h
    split at h
    · rename_i hfresh
      cases h
      exact .opens hcall hphase hfresh
    · cases h

/-- A step is one of the moves. -/
theorem moves_of_step (h : s.step settings event = some s') : Moves settings s event s' := by
  cases event with
  | begins request now => exact moves_of_begin h
  | purges i removal =>
      obtain ⟨call, hcall, h⟩ := Option.bind_eq_some_iff.mp h
      simp only [stepCall] at h
      split at h
      · rename_i hphase
        cases h
        exact .purges hcall hphase
      · cases h
  | opens i token =>
      obtain ⟨call, hcall, h⟩ := Option.bind_eq_some_iff.mp h
      simp only [stepCall] at h
      split at h
      · rename_i hphase _
        exact moves_of_open hcall hphase h
      · cases h
  | writes i =>
      obtain ⟨call, hcall, h⟩ := Option.bind_eq_some_iff.mp h
      simp only [stepCall] at h
      split at h
      · rename_i hphase hrequest
        cases h
        exact .writes hcall hphase hrequest
      · cases h
  | registers i now =>
      obtain ⟨call, hcall, h⟩ := Option.bind_eq_some_iff.mp h
      simp only [stepCall] at h
      split at h
      · rename_i hphase hrequest
        cases h
        exact .registers hcall hphase hrequest
      · cases h
  | removes i reads removal =>
      obtain ⟨call, hcall, h⟩ := Option.bind_eq_some_iff.mp h
      simp only [stepCall] at h
      split at h
      · rename_i hphase hrequest
        cases h
        exact .consumes hcall hphase hrequest
      · rename_i hphase hrequest
        cases h
        exact .deletes hcall hphase hrequest
      · cases h
  | clears i removal =>
      obtain ⟨call, hcall, h⟩ := Option.bind_eq_some_iff.mp h
      simp only [stepCall] at h
      split at h
      · rename_i hphase hrequest
        cases h
        exact .clears hcall hphase hrequest
      · cases h

end AssetState

end MediaBridge.Core
