import MediaBridge.Foundation.Expiring
import MediaBridge.Gateway.State
import Mathlib.Algebra.Order.Field.Rat
import Mathlib.Tactic.Linarith

/-!
# Histories of the follow-up state

What `GatewayStateStore` answers after any sequence of calls: an exact map from tenants and
responses to records, whose entries expire and of which a limited number is kept.

## Implementation notes

The methods run statement by statement over the store, so that an exception leaves whatever
was done before it. The clock reading of a call is one of its arguments.
-/

namespace MediaBridge.Gateway

open Foundation MediaBridge.Core

namespace GatewayStateStore

/-- The exceptions of the methods. -/
inductive StateError
  | valueError (message : String)
  | gatewayStateError
deriving DecidableEq

/-- A method: what it does to the store stays done when it raises. -/
abbrev Method := ExceptT StateError (StateM GatewayStateStore)

/-- `if not condition: raise ValueError(message)`. -/
def require (condition : Bool) (message : String) : Except StateError Unit :=
  if condition then .ok () else .error (.valueError message)

/-- `_validate_identifiers`. -/
def validateIdentifiers (responseId tenantId credentialSelector : Str) :
    Except StateError Unit := do
  require (responseIdPattern responseId) "response identifier is invalid"
  require (responseIdPattern credentialSelector) "credential selector is invalid"
  require (tenantIdPattern tenantId) "tenant identifier is invalid"

/-- The checks at the top of `put`. -/
def validateEntry (entry : StateEntry) : Except StateError Unit := do
  validateIdentifiers entry.responseId entry.tenantId entry.credentialSelector
  require (registryIdPattern entry.targetId && decide (0 ≤ entry.snapshotVersion))
    "state target or snapshot version is invalid"
  require (decide (entry.sanitizedText.length ≤ 200000))
    "sanitized state text exceeds the limit"
  require (decide (entry.mediaTainted = decide (entry.mediaModalities ≠ ∅)))
    "state taint and media modalities must agree"

/-- A check that does not touch the store. -/
def liftExcept {α : Type} (result : Except StateError α) : Method α := ExceptT.mk (pure result)

/-- `put`. -/
def putMethod (now : ℚ) (entry : StateEntry) : Method GatewayStateRecord := do
  liftExcept (validateEntry entry)
  modify fun store => store.purgeExpired now
  let record := (← get).recordOf entry now
  modify fun store => store.stored record
  return record

/-- `resolve`. -/
def resolveMethod (now : ℚ) (responseId tenantId credentialSelector : Str) :
    Method GatewayStateRecord :=
  match validateIdentifiers responseId tenantId credentialSelector with
  | .error _ => throw .gatewayStateError
  | .ok () => do
      modify fun store => store.purgeExpired now
      let record? := Entries.get? (← get).records (tenantId, responseId)
      liftExcept (ownRecord credentialSelector record?)
where
  /-- The check of the record that was found. -/
  ownRecord (credentialSelector : Str) :
      Option GatewayStateRecord → Except StateError GatewayStateRecord
    | none => .error .gatewayStateError
    | some record =>
        if record.credentialSelector ≠ credentialSelector then .error .gatewayStateError
        else .ok record

/-- How a method ends on a store, and the store that it leaves. -/
def Method.runOn {α : Type} (method : Method α) (store : GatewayStateStore) :
    Except StateError α × GatewayStateStore :=
  (ExceptT.run method).run store

/-- What a method returns, in another form. -/
theorem Method.map_runOn {α β : Type} (f : α → β) (method : Method α)
    (store : GatewayStateStore) :
    (f <$> method : Method β).runOn store =
      ((method.runOn store).1.map f, (method.runOn store).2) := by
  rw [Method.runOn, ExceptT.run_map, StateT.run_map]
  rfl

section Methods

variable {store : GatewayStateStore} {now : ℚ} {entry : StateEntry}

theorem require_eq_ok_iff {condition : Bool} {message : String} :
    require condition message = .ok () ↔ condition = true := by
  cases condition with
  | true => exact iff_of_true rfl rfl
  | false => exact iff_of_false nofun Bool.false_ne_true

theorem bind_eq_ok_iff {first second : Except StateError Unit} :
    (first >>= fun _ => second) = .ok () ↔ first = .ok () ∧ second = .ok () := by
  cases first with
  | error e => exact iff_of_false nofun fun h => nomatch h.1
  | ok u => exact (and_iff_right rfl).symm

theorem validateIdentifiers_eq_ok_iff {responseId tenantId selector : Str} :
    validateIdentifiers responseId tenantId selector = .ok () ↔
      identifiersValid responseId tenantId selector = true := by
  rw [validateIdentifiers, bind_eq_ok_iff, bind_eq_ok_iff, require_eq_ok_iff, require_eq_ok_iff,
    require_eq_ok_iff, identifiersValid, Bool.and_eq_true, Bool.and_eq_true, and_assoc]

theorem validateEntry_eq_ok_iff : validateEntry entry = .ok () ↔ entryValid entry = true := by
  rw [validateEntry, bind_eq_ok_iff, bind_eq_ok_iff, bind_eq_ok_iff, require_eq_ok_iff,
    require_eq_ok_iff, require_eq_ok_iff, validateIdentifiers_eq_ok_iff, entryValid]
  simp only [Bool.and_eq_true, and_assoc]

/-- A failed check is a `ValueError`. -/
theorem exists_of_validateEntry {e : StateError} (h : validateEntry entry = .error e) :
    ∃ message, e = .valueError message := by
  have hrequire {condition : Bool} {message : String} {e : StateError}
      (h : require condition message = .error e) : ∃ message, e = .valueError message := by
    cases condition with
    | true => cases h
    | false =>
        cases h
        exact ⟨message, rfl⟩
  have hbind {first second : Except StateError Unit} {e : StateError}
      (hfirst : ∀ e, first = .error e → ∃ message, e = .valueError message)
      (hsecond : ∀ e, second = .error e → ∃ message, e = .valueError message)
      (h : (first >>= fun _ => second) = .error e) : ∃ message, e = .valueError message := by
    cases first with
    | error e' =>
        cases h
        exact hfirst _ rfl
    | ok u => exact hsecond e h
  refine hbind ?_ ?_ h
  · intro e h
    exact hbind (fun _ => hrequire) (fun _ => hbind (fun _ => hrequire) fun _ => hrequire) h
  · intro e h
    exact hbind (fun _ => hrequire) (fun _ => hbind (fun _ => hrequire) fun _ => hrequire) h

/-- A valid entry is stored. -/
theorem putMethod_of_valid (h : entryValid entry = true) :
    (putMethod now entry).runOn store =
      (.ok (store.recordOf entry now),
        (store.purgeExpired now).stored (store.recordOf entry now)) := by
  rw [← validateEntry_eq_ok_iff] at h
  unfold putMethod
  rw [h]
  rfl

variable (store now) in
/-- An entry that is refused leaves the store as it was. -/
theorem putMethod_of_invalid (h : entryValid entry = false) :
    ∃ message, (putMethod now entry).runOn store = (.error (.valueError message), store) := by
  cases hvalidate : validateEntry entry with
  | ok u =>
      rw [validateEntry_eq_ok_iff.mp hvalidate] at h
      cases h
  | error e =>
      obtain ⟨message, rfl⟩ := exists_of_validateEntry hvalidate
      refine ⟨message, ?_⟩
      unfold putMethod
      rw [hvalidate]
      rfl

/-- A lookup purges the store, unless an identifier is invalid. -/
theorem resolveMethod_runOn {responseId tenantId selector : Str} :
    (resolveMethod now responseId tenantId selector).runOn store =
      (match (store.resolve now responseId tenantId selector).2 with
        | some record => .ok record
        | none => .error .gatewayStateError,
      (store.resolve now responseId tenantId selector).1) := by
  unfold resolveMethod resolve
  cases hvalidate : validateIdentifiers responseId tenantId selector with
  | ok u =>
      rw [if_pos (validateIdentifiers_eq_ok_iff.mp hvalidate)]
      change (resolveMethod.ownRecord selector
        (Entries.get? (store.purgeExpired now).records (tenantId, responseId)),
          store.purgeExpired now) = _
      cases hget : Entries.get? (store.purgeExpired now).records (tenantId, responseId) with
      | none => simp only [hget, resolveMethod.ownRecord]
      | some record =>
          by_cases hselector : record.credentialSelector = selector
          · simp only [hget, resolveMethod.ownRecord, hselector, ne_eq, not_true_eq_false,
              if_false, if_true]
          · simp only [hget, resolveMethod.ownRecord, hselector, ne_eq, not_false_eq_true,
              if_true, if_false]
  | error e =>
      have hinvalid : ¬ identifiersValid responseId tenantId selector = true := by
        rw [← validateIdentifiers_eq_ok_iff, hvalidate]
        rintro ⟨⟩
      rw [if_neg hinvalid]
      rfl

end Methods

/-- A call of a method, with the time that the clock shows. -/
inductive Call
  | put (now : ℚ) (entry : StateEntry)
  | resolve (now : ℚ) (responseId tenantId credentialSelector : Str)
  | clear

namespace Call

/-- The reading of the clock. -/
def reading? : Call → Option ℚ
  | .put now _ => some now
  | .resolve now _ _ _ => some now
  | .clear => none

/-- The key under which a call stores a record, when it succeeds. -/
def storedKey? : Call → Option (Str × Str)
  | .put _ entry => if entryValid entry then some (entry.tenantId, entry.responseId) else none
  | .resolve .. => none
  | .clear => none

/-- The method that is called, with the record that it returns. -/
def method : Call → Method (Option GatewayStateRecord)
  | .put now entry => some <$> putMethod now entry
  | .resolve now responseId tenantId selector =>
      some <$> resolveMethod now responseId tenantId selector
  | .clear => do
      modify GatewayStateStore.clear
      return none

/-- What the call is to the map of records. -/
def op? (store : GatewayStateStore) : Call → Option (Expiring.Op (Str × Str) GatewayStateRecord ℚ)
  | .put now entry =>
      if entryValid entry then
        some (.put now (entry.tenantId, entry.responseId) (store.recordOf entry now))
      else none
  | .resolve now responseId tenantId selector =>
      if identifiersValid responseId tenantId selector then some (.look now) else none
  | .clear => some .clear

end Call

/-- The store after a call. -/
def after (store : GatewayStateStore) (call : Call) : GatewayStateStore :=
  (call.method.runOn store).2

/-- A new store with the same limits, after some calls. -/
def history (store : GatewayStateStore) (calls : List Call) : GatewayStateStore :=
  calls.foldl after store.clear

/-- The clock does not go back, and `now` is not before its last reading. -/
structure ClockForward (calls : List Call) (now : ℚ) : Prop where
  ordered : (calls.filterMap Call.reading?).Pairwise (· ≤ ·)
  past : ∀ t ∈ calls.filterMap Call.reading?, t ≤ now

/-- The last successful put of a key, without a clearing since. -/
structure LastStored (calls : List Call) (tenantId responseId : Str) (entry : StateEntry)
    (storedAt : ℚ) (later : List Call) : Prop where
  split : ∃ earlier, calls = earlier ++ .put storedAt entry :: later
  valid : entryValid entry = true
  key : (entry.tenantId, entry.responseId) = (tenantId, responseId)
  kept : ∀ call ∈ later, call ≠ .clear ∧ call.storedKey? ≠ some (tenantId, responseId)

/-- The keys that are stored by some calls. -/
def storedKeys (calls : List Call) : Finset (Str × Str) :=
  (calls.filterMap Call.storedKey?).toFinset

/-- The record that a tenant may read under a credential. -/
structure Current (store : GatewayStateStore) (calls : List Call) (now : ℚ)
    (responseId tenantId selector : Str) (record : GatewayStateRecord) (entry : StateEntry)
    (storedAt : ℚ) (later : List Call) : Prop where
  last : LastStored calls tenantId responseId entry storedAt later
  record : record = store.recordOf entry storedAt
  credential : entry.credentialSelector = selector
  lives : now < storedAt + store.ttlSeconds
  room : (storedKeys later).card < store.maxEntries

section Histories

variable {store : GatewayStateStore} {calls : List Call} {call : Call} {now : ℚ}

/-- The store after a call. -/
theorem after_eq : store.after call = { store with
    records := ((call.op? store).map
      (Expiring.apply GatewayStateRecord.expiresAt store.maxEntries store.records)).getD
        store.records } := by
  cases call with
  | clear => rfl
  | put now entry =>
      rw [after, Call.method, Method.map_runOn, Call.op?]
      cases hvalid : entryValid entry with
      | true =>
          rw [putMethod_of_valid hvalid]
          rfl
      | false =>
          obtain ⟨message, hrun⟩ := putMethod_of_invalid store now hvalid
          rw [hrun]
          rfl
  | resolve now responseId tenantId selector =>
      rw [after, Call.method, Method.map_runOn, resolveMethod_runOn, Call.op?, resolve]
      cases identifiersValid responseId tenantId selector with
      | false => rfl
      | true =>
          simp only [if_true]
          cases Entries.get? (store.purgeExpired now).records (tenantId, responseId) with
          | none => rfl
          | some record => simp only []; split <;> rfl

variable (store) in
/-- The history of the map of records. -/
def ops (calls : List Call) : List (Expiring.Op (Str × Str) GatewayStateRecord ℚ) :=
  calls.filterMap (Call.op? store)

variable (store) in
/-- A store is the bounded map of its history. -/
theorem history_eq (calls : List Call) : store.history calls = { store with
    records := Expiring.run GatewayStateRecord.expiresAt store.maxEntries (store.ops calls) } := by
  induction calls using List.reverseRecOn with
  | nil => rfl
  | append_singleton calls call ih =>
      have hlast : store.history (calls ++ [call]) = (store.history calls).after call := by
        rw [history, List.foldl_append]
        rfl
      have hop : call.op? (store.history calls) = call.op? store := by
        rw [ih]
        rfl
      rw [hlast, after_eq, hop, ops, List.filterMap_append]
      cases hcall : call.op? store with
      | none =>
          rw [List.filterMap_cons_none hcall, List.filterMap_nil, List.append_nil, ih]
          rfl
      | some op =>
          rw [List.filterMap_cons_some hcall, List.filterMap_nil, Expiring.run_append_singleton, ih]
          rfl

/-- The calls that change the map. -/
inductive Changes (store : GatewayStateStore) :
    Call → Expiring.Op (Str × Str) GatewayStateRecord ℚ → Prop
  | put (now : ℚ) {entry : StateEntry} : entryValid entry = true → Changes store (.put now entry)
      (.put now (entry.tenantId, entry.responseId) (store.recordOf entry now))
  | look (now : ℚ) {responseId tenantId selector : Str} :
      identifiersValid responseId tenantId selector = true →
      Changes store (.resolve now responseId tenantId selector) (.look now)
  | clear : Changes store .clear .clear

variable {op : Expiring.Op (Str × Str) GatewayStateRecord ℚ}

theorem op?_eq_some_iff : call.op? store = some op ↔ Changes store call op := by
  constructor
  · intro h
    cases call with
    | clear =>
        cases h
        exact .clear
    | put now entry =>
        rw [Call.op?] at h
        split at h
        · rename_i hvalid
          cases h
          exact .put now hvalid
        · cases h
    | resolve now responseId tenantId selector =>
        rw [Call.op?] at h
        split at h
        · rename_i hvalid
          cases h
          exact .look now hvalid
        · cases h
  · rintro (⟨now, hvalid⟩ | ⟨now, hvalid⟩ | -)
    · exact if_pos hvalid
    · exact if_pos hvalid
    · rfl

theorem key?_of_op? (h : call.op? store = some op) : op.key? = call.storedKey? := by
  cases op?_eq_some_iff.mp h with
  | put now hvalid => exact (if_pos hvalid).symm
  | look now hvalid => rfl
  | clear => rfl

theorem reading?_of_op? (h : call.op? store = some op) : op.reading? = call.reading? := by
  cases op?_eq_some_iff.mp h with
  | put now hvalid => rfl
  | look now hvalid => rfl
  | clear => rfl

/-- A call that is nothing to the map stores nothing. -/
theorem storedKey?_of_op?_none (h : call.op? store = none) : call.storedKey? = none := by
  cases call with
  | clear => cases h
  | resolve now responseId tenantId selector => rfl
  | put now entry =>
      rw [Call.op?] at h
      split at h
      · cases h
      · rename_i hinvalid
        exact if_neg hinvalid

variable (store) in
/-- The keys that a history stores. -/
theorem putKeys_ops (calls : List Call) :
    Expiring.putKeys (store.ops calls) = storedKeys calls := by
  rw [Expiring.putKeys, storedKeys, ops, List.filterMap_filterMap]
  congr 2
  funext call
  cases hop : call.op? store with
  | none => exact (storedKey?_of_op?_none hop).symm
  | some op => exact key?_of_op? hop

variable (store) in
theorem lives_ops (calls : List Call) : Expiring.Lives GatewayStateRecord.expiresAt
    (fun t => t + store.ttlSeconds) (store.ops calls) where
  mono := fun _ _ h => by simpa using h
  later := fun t => by
    have hpositive : (0 : ℚ) < store.ttlSeconds := by
      exact_mod_cast store.ttl_range.1
    linarith
  expires := by
    intro t key record hmem
    obtain ⟨call, -, hop⟩ := List.mem_filterMap.mp hmem
    cases op?_eq_some_iff.mp hop
    rfl

/-- The readings of a history are among those of its calls. -/
theorem readings_sublist (calls : List Call) :
    ((store.ops calls).filterMap Expiring.Op.reading?).Sublist
      (calls.filterMap Call.reading?) := by
  induction calls with
  | nil => exact .slnil
  | cons call calls ih =>
      cases hop : call.op? store with
      | none =>
          rw [ops, List.filterMap_cons_none hop]
          cases hreading : call.reading? with
          | none =>
              rw [List.filterMap_cons_none hreading]
              exact ih
          | some t =>
              rw [List.filterMap_cons_some hreading]
              exact ih.cons t
      | some op =>
          rw [ops, List.filterMap_cons_some hop]
          have hsame := reading?_of_op? hop
          cases hreading : call.reading? with
          | none =>
              rw [List.filterMap_cons_none hreading,
                List.filterMap_cons_none (hsame.trans hreading)]
              exact ih
          | some t =>
              rw [List.filterMap_cons_some hreading,
                List.filterMap_cons_some (hsame.trans hreading)]
              exact ih.cons_cons t

variable (store) in
theorem inOrder_ops (h : ClockForward calls now) : Expiring.InOrder (store.ops calls) now :=
  ⟨h.ordered.sublist (readings_sublist calls),
    fun t ht => h.past t ((readings_sublist calls).subset ht)⟩

/-- What calls keep, the operations keep. -/
theorem keeps_iff {key : Str × Str} : (∀ op ∈ store.ops calls, op.Keeps key) ↔
    ∀ call ∈ calls, call ≠ .clear ∧ call.storedKey? ≠ some key := by
  constructor
  · intro h call hcall
    constructor
    · rintro rfl
      have hop : Expiring.Op.clear ∈ store.ops calls := List.mem_filterMap.mpr ⟨.clear, hcall, rfl⟩
      exact (h _ hop).1 rfl
    · intro hkey
      cases hop : call.op? store with
      | none =>
          rw [storedKey?_of_op?_none hop] at hkey
          cases hkey
      | some op =>
          have hmem : op ∈ store.ops calls := List.mem_filterMap.mpr ⟨call, hcall, hop⟩
          exact (h op hmem).2 ((key?_of_op? hop).trans hkey)
  · intro h op hop
    obtain ⟨call, hcall, hop⟩ := List.mem_filterMap.mp hop
    obtain ⟨hclear, hkey⟩ := h call hcall
    constructor
    · rintro rfl
      cases op?_eq_some_iff.mp hop
      exact hclear rfl
    · rw [key?_of_op? hop]
      exact hkey

/-- The last put of the map is the last successful call. -/
theorem exists_lastStored {tenantId responseId : Str} {record : GatewayStateRecord} {t : ℚ}
    {before after : List (Expiring.Op (Str × Str) GatewayStateRecord ℚ)}
    (h : Expiring.LastPut (store.ops calls) (tenantId, responseId) record before t after) :
    ∃ entry later, LastStored calls tenantId responseId entry t later ∧
      record = store.recordOf entry t ∧ storedKeys later = Expiring.putKeys after := by
  obtain ⟨hsplit, hkept⟩ := h
  obtain ⟨earlier, rest, rfl, -, hrest⟩ := List.filterMap_eq_append_iff.mp hsplit
  obtain ⟨skipped, call, later, rfl, -, hop, rfl⟩ := List.filterMap_eq_cons_iff.mp hrest
  have hkept := keeps_iff.mp hkept
  have hkeys := putKeys_ops store later
  generalize hkey : (tenantId, responseId) = key at hop hkept
  cases op?_eq_some_iff.mp hop with
  | @put _ entry hvalid =>
      refine ⟨entry, later, ⟨⟨earlier ++ skipped, by simp⟩, hvalid, hkey.symm, ?_⟩, rfl,
        hkeys.symm⟩
      rw [hkey]
      exact hkept

variable (store) in
theorem LastStored.exists_lastPut {tenantId responseId : Str} {entry : StateEntry} {t : ℚ}
    {later : List Call} (h : LastStored calls tenantId responseId entry t later) :
    ∃ before, Expiring.LastPut (store.ops calls) (tenantId, responseId) (store.recordOf entry t)
      before t (store.ops later) := by
  obtain ⟨⟨earlier, rfl⟩, hvalid, hkey, hkept⟩ := h
  refine ⟨store.ops earlier, ?_, keeps_iff.mpr hkept⟩
  rw [ops, List.filterMap_append, List.filterMap_cons_some (op?_eq_some_iff.mpr (.put t hvalid)),
    hkey]
  rfl

theorem resolve_eq_some_iff {responseId tenantId selector : Str} {record : GatewayStateRecord} :
    (store.resolve now responseId tenantId selector).2 = some record ↔
      identifiersValid responseId tenantId selector = true ∧
        Entries.get? (store.purgeExpired now).records (tenantId, responseId) = some record ∧
          record.credentialSelector = selector := by
  rw [resolve]
  cases identifiersValid responseId tenantId selector with
  | false => exact iff_of_false (Option.some_ne_none _).symm fun h => absurd h.1 Bool.false_ne_true
  | true =>
      simp only [if_true, true_and]
      cases Entries.get? (store.purgeExpired now).records (tenantId, responseId) with
      | none =>
          have hnone : ¬ (none : Option GatewayStateRecord) = some record :=
            (Option.some_ne_none record).symm
          exact iff_of_false hnone fun h => hnone h.1
      | some found =>
          simp only [Option.some.injEq]
          split
          · rename_i hselector
            constructor
            · rintro ⟨⟩
              exact ⟨rfl, hselector⟩
            · rintro ⟨rfl, -⟩
              rfl
          · rename_i hselector
            refine iff_of_false (Option.some_ne_none record).symm ?_
            rintro ⟨rfl, hsame⟩
            exact hselector hsame

/-- A lookup gives the current record, and nothing else. -/
theorem resolve_history_iff (hclock : ClockForward calls now)
    {responseId tenantId selector : Str} {record : GatewayStateRecord} :
    ((store.history calls).resolve now responseId tenantId selector).2 = some record ↔
      ∃ entry storedAt later,
        Current store calls now responseId tenantId selector record entry storedAt later := by
  rw [resolve_eq_some_iff, history_eq]
  change _ ∧ Entries.get? (Expiring.purge GatewayStateRecord.expiresAt now
    (Expiring.run GatewayStateRecord.expiresAt store.maxEntries (store.ops calls)))
      (tenantId, responseId) = some record ∧ _ ↔ _
  rw [Expiring.get?_purge_run_iff (lives_ops store calls) (inOrder_ops store hclock)]
  constructor
  · rintro ⟨-, ⟨before, t, after, hlast, hlive, hroom⟩, hselector⟩
    obtain ⟨entry, later, hstored, rfl, hkeys⟩ := exists_lastStored hlast
    rw [← hkeys] at hroom
    exact ⟨entry, t, later, hstored, rfl, hselector, hlive, hroom⟩
  · rintro ⟨entry, t, later, hstored, rfl, hselector, hlive, hroom⟩
    obtain ⟨before, hlast⟩ := hstored.exists_lastPut store
    rw [← putKeys_ops store] at hroom
    refine ⟨?_, ⟨before, t, _, hlast, hlive, hroom⟩, hselector⟩
    have hvalid := hstored.valid
    simp only [entryValid, Bool.and_eq_true] at hvalid
    have hkey := hstored.key
    rw [Prod.mk.injEq] at hkey
    rw [← hkey.1, ← hkey.2, ← hselector]
    exact hvalid.1.1.1.1

/-- Every record says that it is tainted exactly when media are behind it. -/
theorem tainted_history (calls : List Call) : ∀ e ∈ (store.history calls).records,
    (e.2.mediaTainted = true ↔ e.2.mediaModalities ≠ ∅) := by
  intro e he
  rw [history_eq] at he
  obtain ⟨t, hput⟩ := Expiring.exists_put_of_mem_run he
  obtain ⟨call, -, hop⟩ := List.mem_filterMap.mp hput
  obtain ⟨key, record⟩ := e
  cases op?_eq_some_iff.mp hop with
  | @put _ entry hvalid =>
      simp only [entryValid, Bool.and_eq_true, decide_eq_true_eq] at hvalid
      change entry.mediaTainted = true ↔ entry.mediaModalities ≠ ∅
      rw [hvalid.2, decide_eq_true_iff]

/-- The clock after one more call. -/
theorem ClockForward.snoc {call : Call} (h : ClockForward calls now)
    (hreading : call.reading? = some now) : ClockForward (calls ++ [call]) now := by
  have hreadings : (calls ++ [call]).filterMap Call.reading? =
      calls.filterMap Call.reading? ++ [now] := by
    rw [List.filterMap_append, List.filterMap_cons_some hreading]
    rfl
  constructor
  · rw [hreadings, List.pairwise_append]
    refine ⟨h.ordered, List.pairwise_singleton _ _, fun t ht t' ht' => ?_⟩
    rw [List.mem_singleton.mp ht']
    exact h.past t ht
  · rw [hreadings, List.forall_mem_append, List.forall_mem_singleton]
    exact ⟨h.past, le_rfl⟩

/-- A record that lives is dropped only for more recent ones that live. -/
theorem full_of_dropped (hclock : ClockForward calls now) {key : Str × Str}
    {record : GatewayStateRecord} (hreading : call.reading? = some now)
    (hmem : (key, record) ∈ (store.history calls).records) (hlive : now < record.expiresAt)
    (hgone : key ∉ Entries.keys ((store.history calls).after call).records) :
    ((store.history calls).after call).records.length = store.maxEntries ∧
      ∃ entry storedAt later, LastStored (calls ++ [call]) key.1 key.2 entry storedAt later ∧
        ∀ e ∈ ((store.history calls).after call).records,
          now < e.2.expiresAt ∧ e.1 ∈ storedKeys later := by
  have hlast : (store.history calls).after call = store.history (calls ++ [call]) := by
    rw [history, history, List.foldl_append]
    rfl
  rw [hlast, history_eq] at hgone ⊢
  rw [history_eq] at hmem
  have hops : store.ops (calls ++ [call]) = store.ops calls ++ (call.op? store).toList := by
    rw [ops, ops, List.filterMap_append]
    cases hop : call.op? store with
    | none => rw [List.filterMap_cons_none hop]; rfl
    | some op => rw [List.filterMap_cons_some hop]; rfl
  cases hop : call.op? store with
  | none =>
      rw [hop, Option.toList_none, List.append_nil] at hops
      rw [hops] at hgone
      exact absurd (List.mem_map_of_mem hmem) hgone
  | some op =>
      rw [hop, Option.toList_some] at hops
      have hlives := lives_ops store (calls ++ [call])
      have horder := inOrder_ops store (hclock.snoc hreading)
      simp only [hops] at hgone hlives horder ⊢
      obtain ⟨before, t, after, hput, hfull, hall⟩ := Expiring.full_of_evicted hlives horder
        ((reading?_of_op? hop).trans hreading) store.entries_range.1 hmem hlive hgone
      rw [← hops] at hput
      obtain ⟨entry, later, hstored, -, hkeys⟩ := exists_lastStored hput
      refine ⟨hfull, entry, t, later, hstored, ?_⟩
      rw [hkeys]
      exact hall

/-- What a store answers and keeps, after any calls. -/
structure ExactMap (store : GatewayStateStore) (calls : List Call) (now : ℚ) : Prop where
  found : ∀ responseId tenantId selector record,
    ((Call.resolve now responseId tenantId selector).method.runOn (store.history calls)).1 =
        .ok (some record) ↔
      ∃ entry storedAt later,
        Current store calls now responseId tenantId selector record entry storedAt later
  refused : ∀ responseId tenantId selector,
    (¬ ∃ record entry storedAt later,
      Current store calls now responseId tenantId selector record entry storedAt later) →
    ((Call.resolve now responseId tenantId selector).method.runOn (store.history calls)).1 =
      .error .gatewayStateError
  evicted : ∀ call key record, call.reading? = some now →
    (key, record) ∈ (store.history calls).records → now < record.expiresAt →
    key ∉ Entries.keys ((store.history calls).after call).records →
    ((store.history calls).after call).records.length = store.maxEntries ∧
      ∃ entry storedAt later, LastStored (calls ++ [call]) key.1 key.2 entry storedAt later ∧
        ∀ e ∈ ((store.history calls).after call).records,
          now < e.2.expiresAt ∧ e.1 ∈ storedKeys later
  tainted : ∀ e ∈ (store.history calls).records,
    (e.2.mediaTainted = true ↔ e.2.mediaModalities ≠ ∅)
  unchanged : ∀ t entry error store',
    (putMethod t entry).runOn (store.history calls) = (.error error, store') →
      store' = store.history calls

/-- A store is an exact map whose entries expire. -/
theorem exactMap_history (hclock : ClockForward calls now) : ExactMap store calls now where
  found responseId tenantId selector record := by
    rw [← resolve_history_iff hclock, Call.method, Method.map_runOn, resolveMethod_runOn]
    cases ((store.history calls).resolve now responseId tenantId selector).2 with
    | none => exact iff_of_false nofun nofun
    | some found =>
        simp only [Except.map, Except.ok.injEq, Option.some.injEq]
  refused responseId tenantId selector hnone := by
    rw [Call.method, Method.map_runOn, resolveMethod_runOn]
    cases hfound : ((store.history calls).resolve now responseId tenantId selector).2 with
    | none => rfl
    | some record => exact absurd ⟨record, (resolve_history_iff hclock).mp hfound⟩ hnone
  evicted call key record := full_of_dropped hclock
  tainted := tainted_history calls
  unchanged t entry error store' hrun := by
    cases hvalid : entryValid entry with
    | true =>
        rw [putMethod_of_valid hvalid] at hrun
        cases hrun
    | false =>
        obtain ⟨message, hsame⟩ := putMethod_of_invalid (store.history calls) t hvalid
        rw [hsame] at hrun
        cases hrun
        rfl

/-- The entry of a turn, for concrete runs. -/
def StateEntry.sample (responseId : Str) : StateEntry where
  responseId := responseId
  tenantId := lit "acme"
  credentialSelector := lit "key"
  sanitizedText := lit "hello"
  mediaTainted := false
  mediaModalities := ∅
  targetId := lit "basic"
  snapshotVersion := 1

/-- A store that keeps one record for ten seconds. -/
def sample : GatewayStateStore where
  ttlSeconds := 10
  maxEntries := 1
  ttl_range := by decide
  entries_range := by decide

theorem exactMap_sample :
    ExactMap sample [.put 0 (StateEntry.sample (lit "a")), .put 1 (StateEntry.sample (lit "b")),
      .resolve 2 (lit "a") (lit "acme") (lit "key")] 3 := by
  apply exactMap_history
  constructor
  · decide +kernel
  · decide +kernel

end Histories

end GatewayStateStore

end MediaBridge.Gateway
