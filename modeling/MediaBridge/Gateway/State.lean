import MediaBridge.Core.OpenaiResponses

/-!
# Follow-up state

`media_bridge_gateway/state.py`: sanitized text and the media behind it, kept
for a limited time and for a limited number of responses.
-/

namespace MediaBridge.Gateway

open Foundation MediaBridge.Core

/-- A first character of a class, and at most 127 more of a second class. -/
def identifierPattern (head more : CodePoint → Bool) : Str → Bool
  | [] => false
  | c :: rest => head c && rest.length ≤ 127 && rest.all more

/-- `^[A-Za-z0-9][A-Za-z0-9._:-]{0,127}$`. -/
def responseIdPattern : Str → Bool :=
  identifierPattern CodePoint.isAsciiAlnum fun c =>
    c.isAsciiAlnum || c == cp 46 || c == cp 95 || c == cp 58 || c == cp 45

/-- `^[A-Za-z0-9][A-Za-z0-9._-]{0,127}$`. -/
def tenantIdPattern : Str → Bool :=
  identifierPattern CodePoint.isAsciiAlnum fun c =>
    c.isAsciiAlnum || c == cp 46 || c == cp 95 || c == cp 45

structure GatewayStateRecord where
  responseId : Str
  tenantId : Str
  sanitizedText : Str
  mediaTainted : Bool
  mediaModalities : Finset MediaType
  credentialSelector : Str
  targetId : Str
  snapshotVersion : Int
  expiresAt : ℚ

/-- The record as the normalizer reads it. -/
def GatewayStateRecord.forNormalizer (r : GatewayStateRecord) : ResponsesStateRecord where
  responseId := r.responseId
  tenantId := r.tenantId
  sanitizedText := r.sanitizedText
  mediaTainted := r.mediaTainted
  mediaModalities := r.mediaModalities
  expiresAt := r.expiresAt

/-- A store with its limits. The key of a record is its tenant and response. -/
structure GatewayStateStore where
  ttlSeconds : Nat := 1800
  maxEntries : Nat := 1000
  records : Entries (Str × Str) GatewayStateRecord := []
  ttl_range : 1 ≤ ttlSeconds ∧ ttlSeconds ≤ 86400
  entries_range : 1 ≤ maxEntries ∧ maxEntries ≤ 100000

/-- What a caller hands to `put`. -/
structure StateEntry where
  responseId : Str
  tenantId : Str
  credentialSelector : Str
  sanitizedText : Str
  mediaTainted : Bool
  mediaModalities : Finset MediaType
  targetId : Str
  snapshotVersion : Int

namespace GatewayStateStore

variable (store : GatewayStateStore)

/-- `_validate_identifiers`; `false` is the `ValueError`. -/
def identifiersValid (responseId tenantId credentialSelector : Str) : Bool :=
  responseIdPattern responseId && responseIdPattern credentialSelector &&
    tenantIdPattern tenantId

/-- `_purge_expired`. -/
def purgeExpired (now : ℚ) : GatewayStateStore :=
  { store with records := store.records.filter fun e => decide (now < e.2.expiresAt) }

/-- The checks of `put`; `false` is a `ValueError`. -/
def entryValid (entry : StateEntry) : Bool :=
  identifiersValid entry.responseId entry.tenantId entry.credentialSelector &&
    registryIdPattern entry.targetId && decide (0 ≤ entry.snapshotVersion) &&
    decide (entry.sanitizedText.length ≤ 200000) &&
    decide (entry.mediaTainted = decide (entry.mediaModalities ≠ ∅))

/-- The record that `put` stores. -/
def recordOf (entry : StateEntry) (now : ℚ) : GatewayStateRecord where
  responseId := entry.responseId
  tenantId := entry.tenantId
  sanitizedText := entry.sanitizedText
  mediaTainted := entry.mediaTainted
  mediaModalities := entry.mediaModalities
  credentialSelector := entry.credentialSelector
  targetId := entry.targetId
  snapshotVersion := entry.snapshotVersion
  expiresAt := now + store.ttlSeconds

/-- The entries after a record is stored and the oldest ones are evicted. -/
def stored (record : GatewayStateRecord) : GatewayStateStore :=
  let key := (record.tenantId, record.responseId)
  let records := Entries.erase store.records key ++ [(key, record)]
  { store with records := records.drop (records.length - store.maxEntries) }

/-- `put`; `none` is a `ValueError`. -/
def put (now : ℚ) (entry : StateEntry) : Option (GatewayStateStore × GatewayStateRecord) :=
  if entryValid entry then
    let record := store.recordOf entry now
    some ((store.purgeExpired now).stored record, record)
  else none

/-- `resolve`: the store after purging, and the record unless there is an error. -/
def resolve (now : ℚ) (responseId tenantId credentialSelector : Str) :
    GatewayStateStore × Option GatewayStateRecord :=
  if identifiersValid responseId tenantId credentialSelector then
    let store := store.purgeExpired now
    match Entries.get? store.records (tenantId, responseId) with
    | some record =>
        if record.credentialSelector = credentialSelector then (store, some record)
        else (store, none)
    | none => (store, none)
  else (store, none)

/-- `clear`. -/
def clear : GatewayStateStore := { store with records := [] }

variable {store}

theorem mem_purgeExpired {now : ℚ} {e : (Str × Str) × GatewayStateRecord}
    (h : e ∈ (store.purgeExpired now).records) : e ∈ store.records :=
  List.mem_of_mem_filter h

/-- A stored entry is the new one or an old one. -/
theorem mem_stored {record : GatewayStateRecord} {e : (Str × Str) × GatewayStateRecord}
    (h : e ∈ (store.stored record).records) :
    e ∈ store.records ∨ e = ((record.tenantId, record.responseId), record) := by
  have hall := List.mem_of_mem_drop h
  rcases List.mem_append.mp hall with hold | hnew
  · exact .inl (Entries.mem_erase.mp hold).1
  · exact .inr (List.mem_singleton.mp hnew)

/-- Resolving a response does not add records. -/
theorem mem_resolve {now : ℚ} {responseId tenantId selector : Str}
    {e : (Str × Str) × GatewayStateRecord}
    (h : e ∈ (store.resolve now responseId tenantId selector).1.records) :
    e ∈ store.records := by
  unfold resolve at h
  split at h
  · simp only at h
    split at h
    · split at h <;> exact mem_purgeExpired h
    · exact mem_purgeExpired h
  · exact h

/-- A resolved record is stored under the tenant that asks, was written with the
same credential, and has not expired. -/
theorem resolve_eq_some {now : ℚ} {responseId tenantId selector : Str}
    {record : GatewayStateRecord}
    (h : (store.resolve now responseId tenantId selector).2 = some record) :
    ((tenantId, responseId), record) ∈ store.records ∧
      record.credentialSelector = selector ∧ now < record.expiresAt := by
  unfold resolve at h
  split at h
  · simp only at h
    split at h
    · rename_i found hfound
      split at h
      · rename_i hselector
        cases h
        have hmem := Entries.mem_of_get? hfound
        have hfresh : decide (now < record.expiresAt) = true := (List.mem_filter.mp hmem).2
        exact ⟨mem_purgeExpired hmem, hselector, by simpa using hfresh⟩
      · cases h
    · cases h
  · cases h

/-- A stored entry says that it is tainted exactly when media are behind it. -/
theorem put_eq_some {now : ℚ} {entry : StateEntry} {store' : GatewayStateStore}
    {record : GatewayStateRecord} (h : store.put now entry = some (store', record)) :
    record = store.recordOf entry now ∧ store' = (store.purgeExpired now).stored record ∧
      (entry.mediaTainted = true ↔ entry.mediaModalities ≠ ∅) := by
  unfold put at h
  split at h
  · rename_i hvalid
    cases h
    have htaint : entry.mediaTainted = decide (entry.mediaModalities ≠ ∅) := by
      simp only [entryValid, Bool.and_eq_true, decide_eq_true_eq] at hvalid
      exact hvalid.2
    refine ⟨rfl, rfl, ?_⟩
    rw [htaint, decide_eq_true_iff]
  · cases h

end GatewayStateStore

end MediaBridge.Gateway
