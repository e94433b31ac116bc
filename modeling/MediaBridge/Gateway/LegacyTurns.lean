import MediaBridge.Foundation.JsonSorted
import MediaBridge.Foundation.Runs
import MediaBridge.Gateway.LegacyState

/-!
# Turns over the legacy store

A legacy ingress answers as a gateway whose store has the same limits, as long as its tenants'
names leave room for the selector, and each turn refers to a record that is still there.

## Implementation notes

The two stores hold the same records but for the credentials, targets and versions, which the
legacy store does not keep. A legacy store that finds no record raises an error that a
transaction does not know.
-/

namespace MediaBridge.Gateway

open Foundation MediaBridge.Core

/-- A gateway store with the limits of a legacy one. -/
def ResponsesStateStore.gatewayStore (store : ResponsesStateStore) : GatewayStateStore where
  ttlSeconds := store.ttlSeconds
  maxEntries := store.maxEntries
  ttl_range := store.ttl_range
  entries_range := store.entries_range

/-- The entries as the legacy store keeps them. -/
def forgotten (records : Entries (Str × Str) GatewayStateRecord) :
    Entries (Str × Str) ResponsesStateRecord :=
  records.map fun e => (e.1, e.2.forNormalizer)

/-- The entry as a tenant's credential would put it. -/
def TenantCredentials.entry (credentials : TenantCredentials) (entry : StateEntry) : StateEntry :=
  { entry with credentialSelector := credentials.selector entry.tenantId }

/-- The two stores hold the same records, each under its tenant and that tenant's
credential. -/
structure SameRecords (credentials : TenantCredentials) (legacy : ResponsesStateStore)
    (store : GatewayStateStore) : Prop where
  ttl : legacy.ttlSeconds = store.ttlSeconds
  limit : legacy.maxEntries = store.maxEntries
  records : legacy.records = forgotten store.records
  owned : ∀ e ∈ store.records,
    e.2.tenantId = e.1.1 ∧ e.2.credentialSelector = credentials.selector e.1.1

/-- A legacy store has a record of the tenant's response, and it has not expired. -/
def ResponsesStateStore.Knows (store : ResponsesStateStore) (now : ℚ)
    (responseId tenantId : Str) : Prop :=
  responseIdPattern responseId = true ∧
    ∃ record, ((tenantId, responseId), record) ∈ store.records ∧ now < record.expiresAt

/-- What is found is what is known. -/
theorem ResponsesStateStore.resolve_isSome_iff {store : ResponsesStateStore} {now : ℚ}
    {responseId tenantId : Str} (htenant : tenantIdPattern tenantId = true) :
    (store.resolve now responseId tenantId).2.isSome = true ↔
      store.Knows now responseId tenantId := by
  unfold resolve identifiersValid Knows
  rw [htenant, Bool.and_true]
  cases responseIdPattern responseId with
  | false => exact iff_of_false Bool.false_ne_true fun h => Bool.false_ne_true h.1
  | true =>
      rw [if_pos rfl, and_iff_right rfl]
      change Entries.has _ _ = true ↔ _
      rw [Entries.has_iff, Entries.keys, List.mem_map]
      constructor
      · rintro ⟨⟨key, record⟩, hmem, rfl⟩
        obtain ⟨hmem, hlive⟩ := List.mem_filter.mp hmem
        exact ⟨record, hmem, of_decide_eq_true hlive⟩
      · rintro ⟨record, hmem, hlive⟩
        exact ⟨_, List.mem_filter.mpr ⟨hmem, decide_eq_true hlive⟩, rfl⟩

/-- An entry that a transaction puts: its target and version are valid. -/
structure TransactionEntry (entry : StateEntry) : Prop where
  target : registryIdPattern entry.targetId = true
  version : 0 ≤ entry.snapshotVersion

namespace SameRecords

variable {credentials : TenantCredentials} {legacy : ResponsesStateStore}
  {store : GatewayStateStore} {now : ℚ} {entry : StateEntry}

theorem initial (legacy : ResponsesStateStore) :
    SameRecords credentials legacy.clear legacy.gatewayStore :=
  ⟨rfl, rfl, rfl, nofun⟩

theorem clear (h : SameRecords credentials legacy store) :
    SameRecords credentials legacy.clear store.clear :=
  ⟨h.ttl, h.limit, rfl, nofun⟩

theorem purge (h : SameRecords credentials legacy store) (now : ℚ) :
    SameRecords credentials (legacy.purgeExpired now) (store.purgeExpired now) where
  ttl := h.ttl
  limit := h.limit
  records := by
    change legacy.records.filter _ = (store.records.filter _).map _
    rw [h.records, forgotten, List.filter_map]
    rfl
  owned := fun e he => h.owned e (GatewayStateStore.mem_purgeExpired he)

/-- Storing a record and the same record under the tenant's credential. -/
theorem stored (h : SameRecords credentials legacy store) {record : GatewayStateRecord}
    (howned : record.credentialSelector = credentials.selector record.tenantId) :
    SameRecords credentials (legacy.stored record.forNormalizer) (store.stored record) where
  ttl := h.ttl
  limit := h.limit
  records := by
    simp only [ResponsesStateStore.stored, GatewayStateStore.stored, h.records, h.limit,
      forgotten, Entries.erase, List.filter_map, List.map_drop, List.map_append, List.map_cons,
      List.map_nil, List.length_append, List.length_map, List.length_cons, List.length_nil]
    rfl
  owned := by
    intro e he
    rcases GatewayStateStore.mem_stored he with hold | rfl
    · exact h.owned e hold
    · exact ⟨rfl, howned⟩

variable (credentials) in
/-- The stores accept the same entries. -/
theorem entryValid_eq (hentry : TransactionEntry entry) :
    GatewayStateStore.entryValid (credentials.entry entry) =
      ResponsesStateStore.entryValid entry := by
  simp only [GatewayStateStore.entryValid, ResponsesStateStore.entryValid,
    GatewayStateStore.identifiersValid, ResponsesStateStore.identifiersValid,
    TenantCredentials.entry, credentials.selector_valid, hentry.target, hentry.version,
    Bool.and_true, decide_true]
  rfl

/-- Both stores take an entry, or both refuse it. -/
theorem put (h : SameRecords credentials legacy store) (hentry : TransactionEntry entry) (now : ℚ) :
    (∃ record record' legacy' store',
      LegacyResponsesStateAdapter.api.put now entry legacy = (.ok record, legacy') ∧
        gatewayApi.put now (credentials.entry entry) store = (.ok record', store') ∧
        SameRecords credentials legacy' store') ∨
      (LegacyResponsesStateAdapter.api.put now entry legacy = (.error .valueError, legacy) ∧
        gatewayApi.put now (credentials.entry entry) store = (.error .valueError, store)) := by
  have hvalid := entryValid_eq credentials hentry
  cases haccepted : ResponsesStateStore.entryValid entry with
  | false =>
      rw [haccepted] at hvalid
      right
      simp only [LegacyResponsesStateAdapter.api, gatewayApi, ResponsesStateStore.put,
        GatewayStateStore.put, haccepted, hvalid, Bool.false_eq_true, if_false, and_self]
  | true =>
      rw [haccepted] at hvalid
      left
      simp only [LegacyResponsesStateAdapter.api, gatewayApi, ResponsesStateStore.put,
        GatewayStateStore.put, haccepted, hvalid, if_true]
      refine ⟨_, _, _, _, rfl, rfl, ?_⟩
      have hrecord : legacy.recordOf entry now =
          (store.recordOf (credentials.entry entry) now).forNormalizer := by
        rw [ResponsesStateStore.recordOf, h.ttl]
        rfl
      rw [hrecord]
      exact (h.purge now).stored rfl


/-- The stores find the same record, or neither finds one. -/
theorem resolve (h : SameRecords credentials legacy store) (now : ℚ) (responseId tenantId : Str) :
    SameRecords credentials (legacy.resolve now responseId tenantId).1
        (store.resolve now responseId tenantId (credentials.selector tenantId)).1 ∧
      (legacy.resolve now responseId tenantId).2 =
        (store.resolve now responseId tenantId (credentials.selector tenantId)).2.map
          GatewayStateRecord.forNormalizer := by
  have hvalid : GatewayStateStore.identifiersValid responseId tenantId
      (credentials.selector tenantId) =
        ResponsesStateStore.identifiersValid responseId tenantId := by
    rw [GatewayStateStore.identifiersValid, credentials.selector_valid, Bool.and_true]
    rfl
  have hpurge := h.purge now
  unfold ResponsesStateStore.resolve GatewayStateStore.resolve
  rw [hvalid]
  cases ResponsesStateStore.identifiersValid responseId tenantId with
  | false => exact ⟨h, rfl⟩
  | true =>
      simp only [if_true]
      rw [hpurge.records, forgotten, Entries.get?_map]
      cases hrecord : Entries.get? (store.purgeExpired now).records (tenantId, responseId) with
      | none => exact ⟨hpurge, rfl⟩
      | some record =>
          have howned : record.credentialSelector = credentials.selector tenantId :=
            (hpurge.owned _ (Entries.mem_of_get? hrecord)).2
          simp only
          rw [if_pos howned]
          exact ⟨hpurge, rfl⟩

/-- How the two interfaces answer: the same record, or two different errors. -/
theorem api_resolve (h : SameRecords credentials legacy store) {tenantId : Str}
    (htenant : tenantIdPattern tenantId = true) (now : ℚ) (responseId selector : Str) :
    (legacy.Knows now responseId tenantId ∧ ∃ record record' legacy' store',
      LegacyResponsesStateAdapter.api.resolve now responseId tenantId selector legacy =
          (.ok record, legacy') ∧
        gatewayApi.resolve now responseId tenantId (credentials.selector tenantId) store =
          (.ok record', store') ∧
        record.forNormalizer = record'.forNormalizer ∧ SameRecords credentials legacy' store') ∨
    (¬ legacy.Knows now responseId tenantId ∧ ∃ legacy' store',
      LegacyResponsesStateAdapter.api.resolve now responseId tenantId selector legacy =
          (.error .responsesStateError, legacy') ∧
        gatewayApi.resolve now responseId tenantId (credentials.selector tenantId) store =
          (.error .gatewayStateError, store')) := by
  obtain ⟨hsame, hfound⟩ := h.resolve now responseId tenantId
  rw [← ResponsesStateStore.resolve_isSome_iff htenant]
  simp only [LegacyResponsesStateAdapter.api, gatewayApi]
  rcases hlegacy : legacy.resolve now responseId tenantId with ⟨legacy', found⟩
  rcases hstore : store.resolve now responseId tenantId (credentials.selector tenantId) with
    ⟨store', found'⟩
  rw [hlegacy, hstore] at hsame hfound
  obtain rfl : found = found'.map GatewayStateRecord.forNormalizer := hfound
  cases found' with
  | none => exact .inr ⟨Bool.false_ne_true, _, _, rfl, rfl⟩
  | some record => exact .inl ⟨rfl, _, _, _, _, rfl, rfl, rfl, hsame⟩

end SameRecords

namespace TurnInput

variable {tx : GatewayTransaction} {input : TurnInput} {credentials : TenantCredentials}
  {legacy : ResponsesStateStore} {store : GatewayStateStore}

/-- A turn uses of an earlier record what the normalizer reads. -/
theorem prepareTurn_congr {record record' : GatewayStateRecord}
    (h : record.forNormalizer = record'.forNormalizer) :
    input.prepareTurn tx (some record) = input.prepareTurn tx (some record') := by
  unfold prepareTurn GatewayTransaction.normalizeAndCheck
  simp only [Option.map_some, h]
  cases OpenaiResponses.normalizeResponsesRequest tx.gate.unicode input.budget input.payload
      (some record'.forNormalizer) with
  | error e => cases e <;> rfl
  | ok normalized =>
      simp only
      cases tx.checkStateCapability input.checkedAt normalized with
      | none => rfl
      | some stop => rfl

/-- The target of a turn that has been answered was prepared by the gate. -/
theorem target_of_prepareTurn {previous : Option GatewayStateRecord} {answered : AnsweredTurn}
    (h : input.prepareTurn tx previous = .ok answered) :
    registryIdPattern answered.prepared.targetId = true := by
  unfold prepareTurn at h
  split at h
  · cases h
  rename_i admission _
  split at h
  · cases h
  rename_i outcome hgate
  split at h
  · cases h
  rename_i prepared hprepared
  obtain ⟨request, -, h⟩ := ok_of_bind h
  obtain ⟨response, -, h⟩ := ok_of_bind h
  cases h
  have htarget : prepared.targetId = admission.normalized.request.target.registryId.value := by
    cases (PreRequestGate.prepared_of_prepareForModel hgate hprepared).1 with
    | pdfs _ _ _ _ _ hready => exact hready.targetId
    | converted _ _ _ _ hready => exact hready.targetId
    | textOnly _ _ hready => exact hready.targetId
  rw [htarget]
  exact admission.normalized.request.target.registryId.accepted

/-- The subjects under which the two ingresses serve one tenant. -/
structure SameTenant (credentials : TenantCredentials) (legacySubject subject : DataPlaneSubject) :
    Prop where
  tenantId : legacySubject.tenantId = subject.tenantId
  selector : subject.credentialSelector = credentials.selector legacySubject.tenantId
  scopes : legacySubject.scopes = subject.scopes
  authorized : lit "responses:invoke" ∈ subject.scopes

variable {legacySubject subject : DataPlaneSubject}

/-- A turn that is answered ends in the same way, and the stores stay the same. -/
theorem recordTurn_same (hsubject : SameTenant credentials legacySubject subject)
    (h : SameRecords credentials legacy store) {answered : AnsweredTurn}
    (htarget : registryIdPattern answered.prepared.targetId = true) :
    ∃ ending deferred legacy' store',
      input.recordTurn tx LegacyResponsesStateAdapter.api legacySubject answered legacy =
          (ending, deferred, legacy') ∧
        input.recordTurn tx gatewayApi subject answered store =
          (ending, deferred.map credentials.entry, store') ∧
        SameRecords credentials legacy' store' ∧ ∀ entry ∈ deferred, TransactionEntry entry := by
  let entry := tx.stateEntry answered.response.responseId legacySubject answered.normalized
    answered.prepared
  have hentry : TransactionEntry entry := ⟨htarget, Int.natCast_nonneg _⟩
  have hcredential : tx.stateEntry answered.response.responseId subject answered.normalized
      answered.prepared = credentials.entry entry := by
    rw [GatewayTransaction.stateEntry, hsubject.selector, ← hsubject.tenantId]
    rfl
  unfold recordTurn
  rw [hcredential]
  cases answered.response.streaming with
  | true =>
      refine ⟨_, some entry, _, _, rfl, rfl, h, ?_⟩
      rintro _ ⟨⟩
      exact hentry
  | false =>
      simp only [Bool.false_eq_true, if_false]
      rcases h.put hentry input.recordedAt with
        ⟨record, record', legacy', store', hlegacy, hstore, hsame⟩ | ⟨hlegacy, hstore⟩
      · rw [hlegacy, hstore]
        exact ⟨_, none, _, _, rfl, rfl, hsame, nofun⟩
      · rw [hlegacy, hstore]
        exact ⟨_, none, _, _, rfl, rfl, h, nofun⟩

/-- A turn is served when each record that it refers to is known. -/
def Found (input : TurnInput) (store : ResponsesStateStore) : Prop :=
  ∀ previousId ∈ input.previousId?, store.Knows input.resolvedAt previousId input.tenantId

/-- What follows the first use of the store is the same for both. -/
theorem answer_same (hsubject : SameTenant credentials legacySubject subject)
    (h : SameRecords credentials legacy store) (previous previous' : Option GatewayStateRecord)
    (hprevious : input.prepareTurn tx previous = input.prepareTurn tx previous') :
    ∃ ending deferred legacy' store',
      (match input.prepareTurn tx previous with
        | .error ending => (ending, none, legacy)
        | .ok answered => input.recordTurn tx LegacyResponsesStateAdapter.api legacySubject
            answered legacy) = (ending, deferred, legacy') ∧
        (match input.prepareTurn tx previous' with
          | .error ending => (ending, none, store)
          | .ok answered => input.recordTurn tx gatewayApi subject answered store) =
          (ending, deferred.map credentials.entry, store') ∧
        SameRecords credentials legacy' store' ∧ ∀ entry ∈ deferred, TransactionEntry entry := by
  rw [hprevious]
  cases hturn : input.prepareTurn tx previous' with
  | error ending => exact ⟨ending, none, _, _, rfl, rfl, h, nofun⟩
  | ok answered => exact recordTurn_same hsubject h (target_of_prepareTurn hturn)

variable (tx) in
/-- A turn whose record is known ends in the same way over both stores. -/
theorem invoke_of_found (hsubject : SameTenant credentials legacySubject subject)
    (htenant : legacySubject.tenantId = input.tenantId)
    (h : SameRecords credentials legacy store) (hfound : input.Found legacy) :
    ∃ ending deferred legacy' store',
      input.invoke tx LegacyResponsesStateAdapter.api legacySubject legacy =
          (ending, deferred, legacy') ∧
        input.invoke tx gatewayApi subject store =
          (ending, deferred.map credentials.entry, store') ∧
        SameRecords credentials legacy' store' ∧ ∀ entry ∈ deferred, TransactionEntry entry := by
  unfold invoke findPrevious
  rw [hsubject.scopes, if_neg (not_not_intro hsubject.authorized),
    if_neg (not_not_intro hsubject.authorized), hsubject.selector, ← hsubject.tenantId, htenant]
  cases hprevious : input.previousId? with
  | none => exact answer_same hsubject h none none rfl
  | some previousId =>
      have hknows := hfound previousId hprevious
      rcases h.api_resolve input.tenant_valid input.resolvedAt previousId
          legacySubject.credentialSelector with
        ⟨-, record, record', legacy', store', hlegacy, hstore, hrecord, hsame⟩ | ⟨hunknown, -⟩
      · simp only [hlegacy, hstore]
        exact answer_same hsubject hsame _ _ (prepareTurn_congr hrecord)
      · exact absurd hknows hunknown

variable (tx) in
/-- A turn whose record is not known raises over the legacy store, and is refused over the
other. -/
theorem invoke_of_not_found (hsubject : SameTenant credentials legacySubject subject)
    (htenant : legacySubject.tenantId = input.tenantId)
    (h : SameRecords credentials legacy store) (hfound : ¬ input.Found legacy) :
    (input.invoke tx LegacyResponsesStateAdapter.api legacySubject legacy).1 =
        .state .responsesStateError ∧
      (input.invoke tx gatewayApi subject store).1 =
        .returned (blocked (lit "state_unavailable") (lit "Responses state is unavailable.")
          none 400) := by
  obtain ⟨previousId, hprevious, hunknown⟩ : ∃ previousId, input.previousId? = some previousId ∧
      ¬ legacy.Knows input.resolvedAt previousId input.tenantId := by
    simpa only [Found, Option.mem_def, not_forall, exists_prop] using hfound
  unfold invoke findPrevious
  rw [hsubject.scopes, if_neg (not_not_intro hsubject.authorized),
    if_neg (not_not_intro hsubject.authorized), hsubject.selector, ← hsubject.tenantId, htenant,
    hprevious]
  rcases h.api_resolve input.tenant_valid input.resolvedAt previousId
      legacySubject.credentialSelector with
    ⟨hknows, -⟩ | ⟨-, legacy', store', hlegacy, hstore⟩
  · exact absurd hknows hunknown
  · simp only [hlegacy, hstore, and_self]

end TurnInput

/-- A tenant's name leaves room for the selector exactly up to 121 characters. -/
theorem legacySelector_valid_iff {tenantId : Str} (h : tenantIdPattern tenantId = true) :
    responseIdPattern (legacySelector tenantId) = true ↔ tenantId.length ≤ 121 := by
  cases tenantId with
  | nil => cases h
  | cons c rest =>
      simp only [tenantIdPattern, identifierPattern, Bool.and_eq_true, List.all_eq_true] at h
      obtain ⟨⟨hhead, -⟩, hrest⟩ := h
      have hletters : ∀ d ∈ lit "egacy:" ++ c :: rest,
          (d.isAsciiAlnum || d == cp 46 || d == cp 95 || d == cp 58 || d == cp 45) = true := by
        rw [List.forall_mem_append, List.forall_mem_cons]
        refine ⟨List.all_eq_true.mp (by decide), ?_, fun d hd => ?_⟩
        · simp only [hhead, Bool.true_or]
        · have hd := hrest d hd
          simp only [Bool.or_eq_true] at hd ⊢
          tauto
      change (CodePoint.isAsciiAlnum _ && decide ((lit "egacy:" ++ c :: rest).length ≤ 127) &&
        (lit "egacy:" ++ c :: rest).all _) = true ↔ _
      rw [List.all_eq_true.mpr hletters, Bool.and_true, Bool.and_eq_true, decide_eq_true_iff,
        and_iff_right (by decide), List.length_append]
      change 6 + (c :: rest).length ≤ 127 ↔ _
      omega

/-- What an event meets at a legacy ingress that can serve it. -/
def IngressEvent.Served (ingress : Ingress ResponsesStateStore) : IngressEvent → Prop
  | .turn input => input.tenantId.length ≤ 121 ∧ input.Found ingress.store
  | .drained _ _ => True
  | .cleared => True

/-- The two ingresses have the same records, and the same ones are still to be put. -/
structure SameIngress (credentials : TenantCredentials) (legacy : Ingress ResponsesStateStore)
    (reference : Ingress GatewayStateStore) : Prop where
  store : SameRecords credentials legacy.store reference.store
  pending : reference.pending = legacy.pending.map (Option.map credentials.entry)
  entries : ∀ entry, some entry ∈ legacy.pending → TransactionEntry entry

namespace Ingress

variable (tx : GatewayTransaction) (credentials : TenantCredentials)

/-- A step of `ResponsesIngressGateway`. -/
def legacyStep (ingress : Ingress ResponsesStateStore) (event : IngressEvent) :
    IngressEnd × Ingress ResponsesStateStore :=
  ingress.step tx LegacyResponsesStateAdapter.api legacySubject event

/-- A step of a transaction over a `GatewayStateStore`. -/
def gatewayStep (ingress : Ingress GatewayStateStore) (event : IngressEvent) :
    IngressEnd × Ingress GatewayStateStore :=
  ingress.step tx gatewayApi credentials.subject event

variable {tx credentials} {legacy : Ingress ResponsesStateStore}
  {reference : Ingress GatewayStateStore}

theorem sameTenant {tenantId : Str} (htenant : tenantIdPattern tenantId = true)
    (hselector : responseIdPattern (legacySelector tenantId) = true) :
    TurnInput.SameTenant credentials
      ⟨legacySelector tenantId, tenantId, [lit "responses:invoke"], hselector, htenant,
        responses_scope⟩
      ⟨credentials.selector tenantId, tenantId, [lit "responses:invoke"],
        credentials.selector_valid tenantId, htenant, responses_scope⟩ :=
  ⟨rfl, rfl, rfl, List.mem_singleton_self _⟩

/-- What is put when a stream has been drained is put in both stores, or in neither. -/
theorem drain_same (h : SameIngress credentials legacy reference) (i : Nat) (now : ℚ) :
    SameIngress credentials (legacy.drain LegacyResponsesStateAdapter.api i now)
      (reference.drain gatewayApi i now) := by
  unfold drain
  rw [h.pending, List.getElem?_map]
  cases hpending : legacy.pending[i]? with
  | none => exact h
  | some deferred =>
      cases deferred with
      | none => exact h
      | some entry =>
          have hentry := h.entries entry (List.mem_of_getElem? hpending)
          simp only [Option.map_some]
          refine ⟨?_, ?_, fun e he => ?_⟩
          · rcases h.store.put hentry now with
              ⟨record, record', legacy', store', hlegacy, hstore, hsame⟩ | ⟨hlegacy, hstore⟩
            · simp only [hlegacy, hstore]
              exact hsame
            · simp only [hlegacy, hstore]
              exact h.store
          · rw [List.map_set, Option.map_none]
          · rcases List.mem_or_eq_of_mem_set he with hmem | hnone
            · exact h.entries e hmem
            · cases hnone

variable (tx) in
/-- An event that is served is answered in the same way by both, and they stay the same. -/
theorem step_of_served (h : SameIngress credentials legacy reference) {event : IngressEvent}
    (hserved : event.Served legacy) :
    (legacy.legacyStep tx event).1 = (reference.gatewayStep tx credentials event).1 ∧
      SameIngress credentials (legacy.legacyStep tx event).2
        (reference.gatewayStep tx credentials event).2 := by
  cases event with
  | cleared => exact ⟨rfl, h.store.clear, h.pending, h.entries⟩
  | drained i now => exact ⟨rfl, drain_same h i now⟩
  | turn input =>
      obtain ⟨hlength, hfound⟩ := hserved
      have hselector := (legacySelector_valid_iff input.tenant_valid).mpr hlength
      obtain ⟨ending, deferred, legacy', store', hlegacy, hstore, hsame, hentry⟩ :=
        TurnInput.invoke_of_found tx (sameTenant input.tenant_valid hselector) rfl
          h.store hfound
      simp only [legacyStep, gatewayStep, step, turn, legacySubject, TenantCredentials.subject,
        dif_pos hselector, hlegacy, hstore]
      refine ⟨trivial, hsame, ?_, fun entry hmem => ?_⟩
      · rw [h.pending, List.map_append]
        rfl
      · rcases List.mem_append.mp hmem with hold | hnew
        · exact h.entries entry hold
        · exact hentry entry (List.mem_singleton.mp hnew).symm

/-- A tenant with a long name has no subject. -/
theorem legacyStep_of_long {input : TurnInput} (h : ¬ input.tenantId.length ≤ 121) :
    (legacy.legacyStep tx (.turn input)).1 = .subjectInvalid := by
  rw [← legacySelector_valid_iff input.tenant_valid] at h
  simp only [legacyStep, step, turn, legacySubject, dif_neg h]

/-- An event that is not served is answered differently. -/
theorem step_of_not_served (h : SameIngress credentials legacy reference) {event : IngressEvent}
    (hserved : ¬ event.Served legacy) :
    (legacy.legacyStep tx event).1 ≠ (reference.gatewayStep tx credentials event).1 := by
  cases event with
  | cleared => exact absurd trivial hserved
  | drained i now => exact absurd trivial hserved
  | turn input =>
      by_cases hlength : input.tenantId.length ≤ 121
      · have hselector := (legacySelector_valid_iff input.tenant_valid).mpr hlength
        obtain ⟨hlegacy, hstore⟩ := TurnInput.invoke_of_not_found tx
          (sameTenant input.tenant_valid hselector) rfl h.store
          (fun hfound => hserved ⟨hlength, hfound⟩)
        simp only [legacyStep, gatewayStep, step, turn, legacySubject,
          TenantCredentials.subject, dif_pos hselector]
        rw [hlegacy, hstore]
        rintro ⟨⟩
      · rw [legacyStep_of_long hlength]
        rintro ⟨⟩

end Ingress

/-- Each record of a legacy store names the tenant of its key. -/
def ResponsesStateStore.Keyed (store : ResponsesStateStore) : Prop :=
  ∀ e ∈ store.records, e.2.tenantId = e.1.1

theorem ResponsesStateStore.keyed_clear (store : ResponsesStateStore) : store.clear.Keyed :=
  fun _ he => absurd he List.not_mem_nil

/-- The methods of the legacy store keep each record under its tenant. -/
theorem ResponsesStateStore.keeps_keyed :
    LegacyResponsesStateAdapter.api.Keeps ResponsesStateStore.Keyed where
  put now entry store hstore := by
    simp only [LegacyResponsesStateAdapter.api, put]
    cases entryValid entry with
    | false => exact hstore
    | true =>
        intro e he
        rcases List.mem_append.mp (List.mem_of_mem_drop he) with hold | hnew
        · exact hstore e (List.mem_of_mem_filter (Entries.mem_erase.mp hold).1)
        · rw [List.mem_singleton.mp hnew]
  resolve now responseId tenantId selector store hstore := by
    have hkept : (store.resolve now responseId tenantId).1.Keyed := by
      unfold resolve
      split
      · exact fun e he => hstore e (List.mem_of_mem_filter he)
      · exact hstore
    simp only [LegacyResponsesStateAdapter.api]
    split
    · rename_i hresolve
      rwa [hresolve] at hkept
    · rename_i hresolve
      rwa [hresolve] at hkept
  clear := fun store _ => store.keyed_clear

/-- A tenant is shown its own records only. -/
theorem ResponsesStateStore.Keyed.tenantId_eq {store : ResponsesStateStore} (h : store.Keyed)
    {now : ℚ} {responseId tenantId selector : Str} {record : GatewayStateRecord}
    (hresolve : (LegacyResponsesStateAdapter.api.resolve now responseId tenantId selector
      store).1 = .ok record) : record.tenantId = tenantId := by
  have hfound (found : ResponsesStateRecord)
      (hfound : (store.resolve now responseId tenantId).2 = some found) :
      found.tenantId = tenantId := by
    unfold ResponsesStateStore.resolve at hfound
    split at hfound
    · exact h _ (List.mem_of_mem_filter (Entries.mem_of_get? hfound))
    · cases hfound
  simp only [LegacyResponsesStateAdapter.api] at hresolve
  split at hresolve
  · rename_i store' found heq
    cases hresolve
    exact hfound found (by rw [heq])
  · cases hresolve

section Runs

variable (tx : GatewayTransaction) (credentials : TenantCredentials) (store : ResponsesStateStore)
  (events : List IngressEvent)

/-- A run of `ResponsesIngressGateway` from an empty store. -/
def legacyRun : List IngressEnd × Ingress ResponsesStateStore :=
  Ingress.run tx LegacyResponsesStateAdapter.api legacySubject ⟨store.clear, []⟩ events

/-- The same run over a `GatewayStateStore` with the same limits. -/
def gatewayRun : List IngressEnd × Ingress GatewayStateStore :=
  Ingress.run tx gatewayApi credentials.subject ⟨store.gatewayStore, []⟩ events

/-- What it is for the legacy path to refine the gateway's: each event is answered in the same
way, and no record is shown to another tenant. -/
structure RefinesGateway : Prop where
  agrees : (legacyRun tx store events).1 = (gatewayRun tx credentials store events).1
  isolated : ∀ now responseId tenantId selector record,
    (LegacyResponsesStateAdapter.api.resolve now responseId tenantId selector
      (legacyRun tx store events).2.store).1 = .ok record → record.tenantId = tenantId

/-- Each event can be served by the legacy ingress that it meets. -/
def AllServed : Prop :=
  EachStep (fun before event => event.Served (legacyRun tx store before).2) events

variable {tx credentials store events}

/-- As long as all events are served, the answers and the records are the same; the first one
that is not served is answered differently. -/
theorem agrees_iff :
    ((legacyRun tx store events).1 = (gatewayRun tx credentials store events).1 ↔
        AllServed tx store events) ∧
      (AllServed tx store events → SameIngress credentials (legacyRun tx store events).2
        (gatewayRun tx credentials store events).2) := by
  induction events using List.reverseRecOn with
  | nil =>
      refine ⟨iff_of_true rfl (eachStep_nil _), fun _ => ⟨.initial store, rfl, nofun⟩⟩
  | append_singleton events event ih =>
      obtain ⟨hagree, hsame⟩ := ih
      have hstep : AllServed tx store (events ++ [event]) ↔
          AllServed tx store events ∧ event.Served (legacyRun tx store events).2 :=
        eachStep_append_singleton
      rw [hstep, legacyRun, gatewayRun, Ingress.run_append_singleton,
        Ingress.run_append_singleton]
      simp only
      constructor
      · constructor
        · intro heq
          obtain ⟨hbefore, hlast⟩ := List.append_inj' heq rfl
          have hall := hagree.mp hbefore
          refine ⟨hall, ?_⟩
          by_contra hserved
          exact Ingress.step_of_not_served (hsame hall) hserved (List.cons.inj hlast).1
        · rintro ⟨hall, hserved⟩
          have hbefore := hagree.mpr hall
          have hlast := (Ingress.step_of_served tx (hsame hall) hserved).1
          exact congrArg₂ (fun ends last => ends ++ [last]) hbefore hlast
      · rintro ⟨hall, hserved⟩
        exact (Ingress.step_of_served tx (hsame hall) hserved).2

variable (tx credentials store events) in
/-- The legacy path refines the gateway's store in a run exactly when each of its turns can be
served. -/
theorem refinesGateway_iff :
    RefinesGateway tx credentials store events ↔ AllServed tx store events := by
  constructor
  · intro h
    exact agrees_iff.1.mp h.agrees
  · intro h
    refine ⟨agrees_iff.1.mpr h, fun now responseId tenantId selector record hresolve => ?_⟩
    have hkeyed : (legacyRun tx store events).2.store.Keyed :=
      Ingress.run_keeps ResponsesStateStore.keeps_keyed store.keyed_clear events
    exact hkeyed.tenantId_eq hresolve

/-- A turn of a tenant at time zero, for concrete runs. -/
def TurnInput.sample (tenantId : Str) (htenant : tenantIdPattern tenantId = true)
    (payload : Json) : TurnInput where
  tenantId := tenantId
  tenant_valid := htenant
  payload := payload
  budget := 0
  resolvedAt := 0
  checkedAt := 0
  gatedAt := 0
  gateSignedAt := 0
  verifiedAt := 0
  signedAt := 0
  recordedAt := 0
  entropy := SealedTurn.sampleEntropy
  provider := fun _ => .raised

/-- A turn that refers to a response nobody has stored. -/
def missingTurn : TurnInput :=
  .sample (lit "acme") (by decide)
    (.obj [(lit "previous_response_id", .str (lit "missing"))])

/-- A turn of a tenant with a long name. -/
def longTurn : TurnInput := .sample (List.replicate 128 (cp 97)) (by decide +kernel) .null

/-- A store with the defaults. -/
def ResponsesStateStore.sample : ResponsesStateStore where
  ttl_range := by decide
  entries_range := by decide

/-- Credentials that are the same for all tenants. -/
def TenantCredentials.sample : TenantCredentials := ⟨fun _ => lit "key", fun _ => by decide⟩

/-- An exception instead of the refusal, and a tenant that is not served at all. -/
theorem not_refinesGateway :
    (legacyRun SealedTurn.sampleTransaction .sample [.turn missingTurn]).1 =
        [.ended (.state .responsesStateError)] ∧
      (gatewayRun SealedTurn.sampleTransaction .sample .sample [.turn missingTurn]).1 =
        [.ended (.returned (TurnInput.blocked (lit "state_unavailable")
          (lit "Responses state is unavailable.") none 400))] ∧
      (legacyRun SealedTurn.sampleTransaction .sample [.turn longTurn]).1 = [.subjectInvalid] ∧
      ¬ ∀ tx credentials store events, RefinesGateway tx credentials store events := by
  have hmissing : (legacyRun SealedTurn.sampleTransaction .sample [.turn missingTurn]).1 =
      [.ended (.state .responsesStateError)] := rfl
  have hrefused : (gatewayRun SealedTurn.sampleTransaction .sample .sample
      [.turn missingTurn]).1 = [.ended (.returned (TurnInput.blocked (lit "state_unavailable")
        (lit "Responses state is unavailable.") none 400))] := rfl
  have hlong : (legacyRun SealedTurn.sampleTransaction .sample [.turn longTurn]).1 =
      [.subjectInvalid] :=
    congrArg (fun answer => [answer]) (Ingress.legacyStep_of_long (by decide +kernel))
  refine ⟨hmissing, hrefused, hlong, fun hall => ?_⟩
  have hagrees := (hall SealedTurn.sampleTransaction .sample .sample [.turn missingTurn]).agrees
  rw [hmissing, hrefused] at hagrees
  cases hagrees

end Runs

end MediaBridge.Gateway
