import MediaBridge.Control.Schemas
import MediaBridge.Core.ConfigSnapshot
import MediaBridge.Foundation.Interleaving

/-!
# Connections

`update`, `revoke` and `record_test_result` of `media_bridge_control/connections.py`: each reads the
row of a connection, and later writes the columns that it has changed.

## Implementation notes

The row is read without a lock. A flush locks it until the commit, so the two are one step, which
may fail as a rollback does: then the name belongs to another connection. The check of the kind of
a secret, which the database makes at the flush, depends on nothing that another transaction
writes. `revokeCommitted` says that a revoke has committed.
-/

namespace MediaBridge.Control

open Foundation MediaBridge.Core Gateway

/-- The values of `status`. -/
inductive ConnectionStatus
  | untested
  | ready
  | failed
  | revoked
deriving DecidableEq

/-- The fields of a `ConnectionCreate`. -/
structure ConnectionFields where
  name : Str
  gatewayUrl : Str
  credentialSecretRef : SecretReference
  enabled : Bool := true
deriving DecidableEq

/-- `ConnectionCreate.model_validate`; `none` is a `ValidationError`. -/
def ConnectionFields.validate (U : UnicodeData) (fields : ConnectionFields) :
    Option ConnectionFields :=
  if Constrained.Valid 128 namePattern fields.name ∧
      Constrained.Valid 2048 anyText fields.gatewayUrl ∧ fields.credentialSecretRef.Valid then
    (validateGatewayUrl U fields.gatewayUrl).map fun url => { fields with gatewayUrl := url }
  else none

/-- A row of `connections`. -/
structure Connection extends ConnectionFields where
  status : ConnectionStatus := .untested
  lastSuccessAt : Option Instant := none
  lastErrorCode : Option Str := none
  revokedAt : Option Instant := none
deriving DecidableEq

/-- The fields of a `ConnectionUpdate` that are set. -/
structure ConnectionChanges where
  name : Option Str := none
  gatewayUrl : Option Str := none
  credentialSecretRef : Option SecretReference := none
  enabled : Option Bool := none
deriving DecidableEq

/-- What `update` validates. -/
def ConnectionChanges.candidate (changes : ConnectionChanges) (row : Connection) :
    ConnectionFields where
  name := changes.name.getD row.name
  gatewayUrl := changes.gatewayUrl.getD row.gatewayUrl
  credentialSecretRef := changes.credentialSecretRef.getD row.credentialSecretRef
  enabled := changes.enabled.getD row.enabled

/-- A call on a connection. -/
inductive ConnectionCall
  | update (changes : ConnectionChanges)
  | revoke (revokedAt : Datetime)
  | recordTestResult (succeeded : Bool) (errorCode : Option Str) (testedAt : Datetime)
deriving DecidableEq

/-- `_SAFE_ERROR`. -/
def safeErrorPattern : Str → Bool
  | [] => false
  | c :: rest => c.isAsciiLower && rest.length ≤ 63 && rest.all fun d =>
      d.isAsciiLower || d.isAsciiDigit || d == cp 95

namespace ConnectionCall

/-- The checks before the transaction; the text is the code of a `ConnectionServiceError`. -/
def check : ConnectionCall → Option String
  | .update _ => none
  | .revoke revokedAt => if revokedAt.aware then none else some "invalid_timestamp"
  | .recordTestResult succeeded errorCode testedAt =>
      if ¬ testedAt.aware then some "invalid_timestamp"
      else if succeeded ∧ errorCode.isSome then some "invalid_test_result"
      else if ¬ succeeded ∧ ¬ errorCode.any safeErrorPattern then some "invalid_test_result"
      else none

/-- What a call makes of the row that it has read. -/
def assign (U : UnicodeData) (row : Connection) : ConnectionCall → Except String Connection
  | .update changes =>
      if row.revokedAt.isSome then .error "connection_not_found"
      else
        match (changes.candidate row).validate U with
        | none => .error "invalid_connection"
        | some candidate =>
            if candidate.credentialSecretRef.kind = .db then .error "connection_conflict"
            else .ok { row with
              toConnectionFields := candidate
              status := .untested
              lastErrorCode := none }
  | .revoke revokedAt => .ok { row with
      enabled := false
      status := .revoked
      revokedAt := some revokedAt.instant
      lastErrorCode := none }
  | .recordTestResult true _ testedAt =>
      if row.revokedAt.isSome then .error "connection_revoked"
      else .ok { row with
        status := .ready
        lastSuccessAt :=
          if row.lastSuccessAt.all fun last => last < testedAt.instant then some testedAt.instant
          else row.lastSuccessAt
        lastErrorCode := none }
  | .recordTestResult false errorCode _ =>
      if row.revokedAt.isSome then .error "connection_revoked"
      else .ok { row with
        status := .failed
        lastErrorCode := errorCode }

/-- The call is a revocation. -/
def revokes : ConnectionCall → Bool
  | .update _ => false
  | .revoke _ => true
  | .recordTestResult .. => false

end ConnectionCall

/-- A column after a flush: it is written if the assigned value differs from the one read. -/
def written {α : Type} [DecidableEq α] (read assigned current : α) : α :=
  if assigned = read then current else assigned

/-- The row after a flush. -/
def Connection.flush (read assigned current : Connection) : Connection where
  name := written read.name assigned.name current.name
  gatewayUrl := written read.gatewayUrl assigned.gatewayUrl current.gatewayUrl
  credentialSecretRef :=
    ⟨written read.credentialSecretRef.kind assigned.credentialSecretRef.kind
      current.credentialSecretRef.kind,
    written read.credentialSecretRef.identifier assigned.credentialSecretRef.identifier
      current.credentialSecretRef.identifier⟩
  enabled := written read.enabled assigned.enabled current.enabled
  status := written read.status assigned.status current.status
  lastSuccessAt := written read.lastSuccessAt assigned.lastSuccessAt current.lastSuccessAt
  lastErrorCode := written read.lastErrorCode assigned.lastErrorCode current.lastErrorCode
  revokedAt := written read.revokedAt assigned.revokedAt current.revokedAt

/-- The committed row of a connection. -/
structure ConnectionRow where
  row : Connection
  revokeCommitted : Bool := false
deriving DecidableEq

/-- A call: what it has still to do. -/
inductive ConnectionTransaction
  | called (call : ConnectionCall)
  | assigned (call : ConnectionCall) (read assigned : Connection)
  | ended (error : Option String)
deriving DecidableEq

namespace ConnectionTransaction

/-- One step of a call. -/
def next (U : UnicodeData) (current : ConnectionRow) :
    ConnectionTransaction → Option (ConnectionRow × ConnectionTransaction)
  | .called call =>
      match call.check with
      | some error => some (current, .ended (some error))
      | none =>
          match call.assign U current.row with
          | .error error => some (current, .ended (some error))
          | .ok row => some (current, .assigned call current.row row)
  | .assigned call read row =>
      some (⟨read.flush row current.row, current.revokeCommitted || call.revokes⟩, .ended none)
  | .ended _ => none

/-- The calls on a connection, interleaved. -/
def system (U : UnicodeData) : TransactionSystem ConnectionRow ConnectionTransaction where
  begins
    | .called _ => true
    | .assigned .. => false
    | .ended _ => false
  next := next U
  waits _ _ := false
  ended := .ended none

/-- A call does not undo a revocation when it commits: an update and a test result commit before
any revocation, or have no status and no enabling to write; a revocation has read that the
connection is enabled, if it is. -/
def Respects (current : Connection) : ConnectionTransaction → Bool
  | .called _ => true
  | .assigned (.update changes) read _ =>
      current.revokedAt.isNone ||
        (decide (read.status = .untested) && (decide (changes.enabled ≠ some true) || read.enabled))
  | .assigned (.revoke _) read _ => !current.enabled || read.enabled
  | .assigned (.recordTestResult succeeded _ _) read _ =>
      current.revokedAt.isNone ||
        decide (read.status = if succeeded then .ready else .failed)
  | .ended _ => true

/-- The calls that commit respect revocations. -/
def RevokesApart (s : Sessions ConnectionRow ConnectionTransaction) :
    SessionEvent ConnectionTransaction → Prop
  | .start _ => True
  | .rollback _ => True
  | .step i => s.running[i]?.all (Respects s.committed.row) = true

instance (s : Sessions ConnectionRow ConnectionTransaction) :
    (e : SessionEvent ConnectionTransaction) → Decidable (RevokesApart s e)
  | .start _ => isTrue trivial
  | .rollback _ => isTrue trivial
  | .step _ => inferInstanceAs (Decidable (_ = true))

end ConnectionTransaction

/-- A connection as `create` stores it. -/
def Created (current : ConnectionRow) : Prop :=
  current.row.status = .untested ∧ current.row.revokedAt = none ∧ current.revokeCommitted = false

instance (current : ConnectionRow) : Decidable (Created current) :=
  inferInstanceAs (Decidable (_ ∧ _ ∧ _))

/-- The connection is revoked in every column that says so. -/
structure Connection.Revoked (row : Connection) : Prop where
  status : row.status = .revoked
  disabled : row.enabled = false
  revokedAt : row.revokedAt.isSome = true

section Invariant

variable {U : UnicodeData} {call : ConnectionCall} {read row current : Connection}

/-- An update and a test result leave the time of a revocation as they have read it: not set. -/
theorem ConnectionCall.assign_of_not_revokes (h : call.assign U read = .ok row)
    (hcall : call.revokes = false) :
    read.revokedAt = none ∧ row.revokedAt = none ∧ row.status ≠ .revoked := by
  cases call with
  | update changes =>
      simp only [assign] at h
      split at h
      · cases h
      · next hnone =>
          have hread : read.revokedAt = none := by simpa using hnone
          split at h
          · cases h
          · split at h
            · cases h
            · cases h
              exact ⟨hread, hread, by simp⟩
  | revoke revokedAt => cases hcall
  | recordTestResult succeeded errorCode testedAt =>
      cases succeeded <;> simp only [assign] at h <;> split at h
      · cases h
      · next hnone =>
          have hread : read.revokedAt = none := by simpa using hnone
          cases h
          exact ⟨hread, hread, by simp⟩
      · cases h
      · next hnone =>
          have hread : read.revokedAt = none := by simpa using hnone
          cases h
          exact ⟨hread, hread, by simp⟩

/-- An update enables a connection that it has read disabled only if it is asked to. -/
theorem ConnectionCall.enabled_of_update {changes : ConnectionChanges}
    (h : ConnectionCall.assign U read (.update changes) = .ok row) :
    row.enabled = changes.enabled.getD read.enabled ∧ row.status = .untested := by
  simp only [assign] at h
  split at h
  · cases h
  · split at h
    · cases h
    · next candidate hvalid =>
        split at h
        · cases h
        · cases h
          unfold ConnectionFields.validate at hvalid
          split at hvalid
          · obtain ⟨url, -, rfl⟩ := Option.map_eq_some_iff.mp hvalid
            exact ⟨rfl, rfl⟩
          · cases hvalid

/-- A test result leaves whether a connection is enabled as it is. -/
theorem ConnectionCall.enabled_of_recordTestResult {succeeded : Bool} {errorCode : Option Str}
    {testedAt : Datetime}
    (h : ConnectionCall.assign U read (.recordTestResult succeeded errorCode testedAt) =
      .ok row) :
    row.enabled = read.enabled ∧ row.status = if succeeded then .ready else .failed := by
  cases succeeded <;> simp only [assign] at h <;> split at h
  · cases h
  · cases h
    exact ⟨rfl, rfl⟩
  · cases h
  · cases h
    exact ⟨rfl, rfl⟩

theorem written_self {α : Type} [DecidableEq α] (read current : α) :
    written read read current = current := if_pos rfl

namespace ConnectionTransaction

/-- A commit that respects revocations keeps a revoked connection revoked. -/
theorem revoked_flush (hassign : call.assign U read = .ok row)
    (hrespects : Respects current (.assigned call read row) = true) (h : current.Revoked) :
    (read.flush row current).Revoked := by
  have hset := h.revokedAt
  cases call with
  | update changes =>
      obtain ⟨hread, hrow, -⟩ := ConnectionCall.assign_of_not_revokes hassign rfl
      obtain ⟨henabled, hstatus⟩ := ConnectionCall.enabled_of_update hassign
      have hnot : current.revokedAt.isNone = false := by
        rw [← Option.not_isSome, hset]
        rfl
      simp only [Respects, hnot, Bool.false_or, Bool.and_eq_true, decide_eq_true_eq] at hrespects
      obtain ⟨hsame, hkeeps⟩ := hrespects
      refine ⟨?_, ?_, ?_⟩
      · change written read.status row.status current.status = _
        rw [hstatus, hsame, written_self]
        exact h.status
      · change written read.enabled row.enabled current.enabled = false
        unfold written
        split
        · exact h.disabled
        · next hne =>
            rw [henabled] at hne ⊢
            cases hchange : changes.enabled with
            | none =>
                rw [hchange] at hne
                exact absurd rfl hne
            | some value =>
                cases value with
                | false => rfl
                | true => simp_all
      · change (written read.revokedAt row.revokedAt current.revokedAt).isSome = true
        rw [hrow, hread, written_self]
        exact hset
  | revoke revokedAt =>
      cases hassign
      simp only [Respects, Bool.or_eq_true, Bool.not_eq_true'] at hrespects
      refine ⟨?_, ?_, ?_⟩
      · change written read.status .revoked current.status = _
        unfold written
        split
        · exact h.status
        · rfl
      · change written read.enabled false current.enabled = false
        unfold written
        split
        · exact h.disabled
        · rfl
      · change (written read.revokedAt (some revokedAt.instant) current.revokedAt).isSome = true
        unfold written
        split
        · exact hset
        · rfl
  | recordTestResult succeeded errorCode testedAt =>
      obtain ⟨hread, hrow, -⟩ := ConnectionCall.assign_of_not_revokes hassign rfl
      obtain ⟨henabled, hstatus⟩ := ConnectionCall.enabled_of_recordTestResult hassign
      have hnot : current.revokedAt.isNone = false := by
        rw [← Option.not_isSome, hset]
        rfl
      simp only [Respects, hnot, Bool.false_or, decide_eq_true_eq] at hrespects
      refine ⟨?_, ?_, ?_⟩
      · change written read.status row.status current.status = _
        rw [hstatus, hrespects, written_self]
        exact h.status
      · change written read.enabled row.enabled current.enabled = false
        rw [henabled, written_self]
        exact h.disabled
      · change (written read.revokedAt row.revokedAt current.revokedAt).isSome = true
        rw [hrow, hread, written_self]
        exact hset

/-- The commit of a revocation that has read whether the connection is enabled revokes it. -/
theorem revoked_flush_revoke {revokedAt : Datetime}
    (hassign : ConnectionCall.assign U read (.revoke revokedAt) = .ok row)
    (hrespects : Respects current (.assigned (.revoke revokedAt) read row) = true)
    (hread : read.revokedAt.isSome = true ∨ read.status = .revoked → current.Revoked) :
    (read.flush row current).Revoked := by
  cases hassign
  simp only [Respects, Bool.or_eq_true, Bool.not_eq_true'] at hrespects
  refine ⟨?_, ?_, ?_⟩
  · change written read.status .revoked current.status = _
    unfold written
    split
    · next hsame => exact (hread (.inr hsame.symm)).status
    · rfl
  · change written read.enabled false current.enabled = false
    unfold written
    split
    · next hsame =>
        rw [← hsame] at hrespects
        exact hrespects.resolve_right Bool.false_ne_true
    · rfl
  · change (written read.revokedAt (some revokedAt.instant) current.revokedAt).isSome = true
    unfold written
    split
    · next hsame =>
        rw [← hsame] at hread
        exact (hread (.inl rfl)).revokedAt
    · rfl

/-- A connection that shows a revocation anywhere is revoked. -/
def Settled (current : ConnectionRow) : Prop :=
  current.revokeCommitted = true ∨ current.row.revokedAt.isSome = true ∨
    current.row.status = .revoked → current.row.Revoked

/-- A call has assigned to the row that it has read, and what was revoked then still is. -/
def Assigned (U : UnicodeData) (current : ConnectionRow) : ConnectionTransaction → Prop
  | .called _ => True
  | .assigned call read row => call.assign U read = .ok row ∧
      (read.revokedAt.isSome = true ∨ read.status = .revoked → current.row.Revoked)
  | .ended _ => True

theorem Assigned.of_revoked {before after : ConnectionRow} {t : ConnectionTransaction}
    (h : before.row.Revoked → after.row.Revoked) (ht : Assigned U before t) :
    Assigned U after t := by
  cases t with
  | called _ => trivial
  | assigned call read row => exact ⟨ht.1, fun hread => h (ht.2 hread)⟩
  | ended _ => trivial

/-- What a commit that respects revocations keeps. -/
theorem settled_commit {before : ConnectionRow} (h : Settled before)
    (hread : Assigned U before (.assigned call read row))
    (hrespects : Respects before.row (.assigned call read row) = true) :
    Settled ⟨read.flush row before.row, before.revokeCommitted || call.revokes⟩ ∧
      (before.row.Revoked → (read.flush row before.row).Revoked) := by
  obtain ⟨hassign, hread⟩ := hread
  refine ⟨?_, revoked_flush hassign hrespects⟩
  intro hshown
  cases hrevokes : call.revokes with
  | true =>
      cases call with
      | update _ => cases hrevokes
      | revoke _ => exact revoked_flush_revoke hassign hrespects hread
      | recordTestResult _ _ _ => cases hrevokes
  | false =>
      -- What another call writes shows no revocation.
      obtain ⟨hnone, hrow, hstatus⟩ := ConnectionCall.assign_of_not_revokes hassign hrevokes
      apply revoked_flush hassign hrespects
      apply h
      rw [hrevokes, Bool.or_false] at hshown
      rcases hshown with hcommitted | hat | hshows
      · exact .inl hcommitted
      · change (written read.revokedAt row.revokedAt before.row.revokedAt).isSome = true at hat
        rw [hrow, hnone, written_self] at hat
        exact .inr (.inl hat)
      · change written read.status row.status before.row.status = .revoked at hshows
        unfold written at hshows
        split at hshows
        · exact .inr (.inr hshows)
        · exact absurd hshows hstatus

/-- Every step that respects revocations keeps what they have written. -/
theorem settled_of_reachable {s : Sessions ConnectionRow ConnectionTransaction}
    (h : ((system U).machine Created).Reachable RevokesApart s) :
    Settled s.committed ∧ ∀ t ∈ s.running, Assigned U s.committed t := by
  apply h.invariant
  · rintro s ⟨⟨hstatus, hat, hcommitted⟩, hrunning⟩
    constructor
    · rintro (hshown | hshown | hshown)
      · rw [hcommitted] at hshown
        cases hshown
      · rw [hat] at hshown
        cases hshown
      · rw [hstatus] at hshown
        cases hshown
    · intro t ht
      rw [hrunning] at ht
      cases ht
  · rintro s e s' ⟨hsettled, hassigned⟩ hallowed hstep
    apply (TransactionSystem.happens_of_apply hstep).keeps hsettled hassigned
    · intro t ht
      cases t with
      | called _ => trivial
      | assigned _ _ _ => cases ht
      | ended _ => trivial
    · trivial
    · rintro i t after t' rfl ht hown hnext
      cases t with
      | called call =>
          change next U s.committed (.called call) = _ at hnext
          simp only [next] at hnext
          split at hnext
          · cases hnext
            exact ⟨hsettled, trivial, fun _ hu => hu⟩
          · split at hnext
            · cases hnext
              exact ⟨hsettled, trivial, fun _ hu => hu⟩
            · next row hassign =>
                cases hnext
                refine ⟨hsettled, ⟨hassign, ?_⟩, fun _ hu => hu⟩
                exact fun hshown => hsettled (.inr hshown)
      | assigned call read row =>
          cases hnext
          have hrespects : Respects s.committed.row (.assigned call read row) = true := by
            have hall : s.running[i]?.all (Respects s.committed.row) = true := hallowed
            rw [ht] at hall
            exact hall
          obtain ⟨hkept, hrevoked⟩ := settled_commit hsettled hown hrespects
          exact ⟨hkept, trivial, fun _ hu => hu.of_revoked hrevoked⟩
      | ended _ => cases hnext

end ConnectionTransaction

end Invariant

/-- In every run of calls that respect revocations, a connection is revoked in every committed
state after a revoke has committed. -/
theorem revoked_after_revoke (U : UnicodeData) {s : Sessions ConnectionRow ConnectionTransaction}
    (h : ((ConnectionTransaction.system U).machine Created).Reachable
      ConnectionTransaction.RevokesApart s)
    (hcommitted : s.committed.revokeCommitted = true) : s.committed.row.Revoked :=
  (ConnectionTransaction.settled_of_reachable h).1 (.inl hcommitted)

section Samples

/-- A connection to a gateway. -/
def sampleConnection : ConnectionRow where
  row := {
    name := lit "edge"
    gatewayUrl := lit "https://edge.example"
    credentialSecretRef := ⟨.env, lit "EDGE_KEY"⟩ }

theorem created_sampleConnection : Created sampleConnection := by decide

/-- A connection after a revocation at an instant. -/
def sampleRevoked (time : Instant) : Connection :=
  { sampleConnection.row with enabled := false, status := .revoked, revokedAt := some time }

/-- A test result that comes after a revocation is refused. -/
theorem revoked_after_revoke_sample : (sampleRevoked 7).Revoked :=
  revoked_after_revoke (.ascii id)
    (s := ⟨⟨sampleRevoked 7, true⟩, [.ended none, .ended (some "connection_revoked")]⟩)
    (TransactionSystem.reachable_of_schedule created_sampleConnection
      [.start (.called (.revoke ⟨7, some 0⟩)), .step 0, .step 0,
        .start (.called (.recordTestResult true none ⟨9, some 0⟩)), .step 1]
      (by decide +kernel)) rfl

/-- A test that reads the connection before a revocation, and ends after it, makes it ready. -/
theorem ready_after_revoke : ¬ ∀ (U : UnicodeData)
    (s : Sessions ConnectionRow ConnectionTransaction),
    ((ConnectionTransaction.system U).machine Created).Reachable Machine.anyStep s →
      s.committed.revokeCommitted = true → s.committed.row.Revoked := by
  intro h
  have hrun : ((ConnectionTransaction.system (.ascii id)).machine Created).Reachable
      Machine.anyStep ⟨⟨{ sampleRevoked 7 with status := .ready, lastSuccessAt := some 9 }, true⟩,
        [.ended none, .ended none]⟩ :=
    TransactionSystem.reachable_of_schedule created_sampleConnection
      [.start (.called (.revoke ⟨7, some 0⟩)),
        .start (.called (.recordTestResult true none ⟨9, some 0⟩)),
        .step 1, .step 0, .step 0, .step 1]
      (by decide +kernel)
  have hready := (h (.ascii id) _ hrun rfl).status
  cases hready

end Samples

end MediaBridge.Control
