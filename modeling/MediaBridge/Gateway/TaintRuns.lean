import MediaBridge.Foundation.Runs
import MediaBridge.Gateway.SentMedia
import Mathlib.Data.Finset.Lattice.Lemmas

/-!
# Taint over conversation chains

Turns of any tenants and transactions run over one shared state store. A turn
starts, waits for the gate, waits for the provider, and records its state at
once or when its stream has been drained; any other turn may move in between,
and a turn may end at any point.

## Implementation notes

`deliveries` and `commits` are the history of the run. They decide nothing: the
store, the turns in progress and the events determine the next state. A turn
keeps the record it resolved, as `invoke` does, so that an eviction in the
meantime does not matter.
-/

namespace MediaBridge.Gateway

open Foundation MediaBridge.Core

/-- A turn that has passed the checks before the gate. -/
structure Turn where
  tx : GatewayTransaction
  subject : DataPlaneSubject
  budget : Nat
  payload : Entries Str Json
  checkedAt : Instant
  normalized : NormalizedResponsesRequest
  previous : Option GatewayStateRecord

/-- A turn whose sealed request has reached the provider boundary. -/
structure Delivery where
  turn : Turn
  gatedAt : Instant
  prepared : DownstreamPayload
  request : SealedGatewayRequest

/-- A turn whose state has been recorded. -/
structure Commit where
  delivery : Delivery
  record : GatewayStateRecord

/-- Where a turn in progress waits. -/
inductive Phase
  | gate (turn : Turn)
  | provider (delivery : Delivery)
  | stream (delivery : Delivery) (responseId : Str)

structure ChainState where
  store : GatewayStateStore
  running : Nat → Option Phase
  deliveries : List Delivery
  commits : List Commit

/-- What can happen. A turn is named by a number; times are clock readings. -/
inductive TurnEvent
  | start (id : Nat) (tx : GatewayTransaction) (subject : DataPlaneSubject) (budget : Nat)
      (payload : Entries Str Json) (now : ℚ) (checkedAt : Instant)
  | gated (id : Nat) (now : Instant) (gateSignedAt verifiedAt signedAt : ℚ)
      (entropy : { data : Bytes // data.length = 18 })
  | answered (id : Nat) (responseId : Str) (streaming : Bool) (now : ℚ)
  | drained (id : Nat) (now : ℚ)
  | ended (id : Nat)
  | cleared

namespace ChainState

variable (s : ChainState)

/-- A turn goes on to another phase, or is over. -/
def move (id : Nat) (phase : Option Phase) : ChainState :=
  { s with running := Function.update s.running id phase }

/-- `invoke` up to the gate. -/
def start (id : Nat) (tx : GatewayTransaction) (subject : DataPlaneSubject) (budget : Nat)
    (payload : Entries Str Json) (now : ℚ) (checkedAt : Instant) : ChainState :=
  match tx.beginTurn budget s.store now checkedAt (.obj payload) subject with
  | (store, .error _) => { s with store := store }
  | (store, .ok admission) =>
      move { s with store := store } id (some (.gate
        ⟨tx, subject, budget, payload, checkedAt, admission.normalized, admission.previous⟩))

/-- The gate has answered: the request is sealed and reaches the provider boundary. -/
def sealTurn (id : Nat) (turn : Turn) (now : Instant) (gateSignedAt verifiedAt signedAt : ℚ)
    (entropy : { data : Bytes // data.length = 18 }) : ChainState :=
  match turn.tx.gate.prepareForModel now gateSignedAt turn.subject.tenantId
      turn.normalized.request with
  | .error _ => s.move id none
  | .ok outcome =>
      match outcome.prepared with
      | none => s.move id none
      | some prepared =>
          match turn.tx.sealRequest verifiedAt signedAt entropy turn.payload turn.normalized
              prepared with
          | .error _ => s.move id none
          | .ok request =>
              let delivery : Delivery := ⟨turn, now, prepared, request⟩
              move { s with deliveries := s.deliveries ++ [delivery] } id
                (some (.provider delivery))

/-- `_record_state` for a turn that is then over. -/
def record (id : Nat) (delivery : Delivery) (responseId : Str) (now : ℚ) : ChainState :=
  match delivery.turn.tx.recordState s.store now responseId delivery.turn.subject
      delivery.turn.normalized delivery.prepared with
  | none => s.move id none
  | some (store, stored) =>
      move { s with store := store, commits := s.commits ++ [⟨delivery, stored⟩] } id none

/-- One event. An event that does not fit the phase of its turn changes nothing. -/
def apply : TurnEvent → ChainState
  | .start id tx subject budget payload now checkedAt =>
      match s.running id with
      | none => s.start id tx subject budget payload now checkedAt
      | some _ => s
  | .gated id now gateSignedAt verifiedAt signedAt entropy =>
      match s.running id with
      | some (.gate turn) => s.sealTurn id turn now gateSignedAt verifiedAt signedAt entropy
      | _ => s
  | .answered id responseId streaming now =>
      match s.running id with
      | some (.provider delivery) =>
          if streaming then s.move id (some (.stream delivery responseId))
          else s.record id delivery responseId now
      | _ => s
  | .drained id now =>
      match s.running id with
      | some (.stream delivery responseId) => s.record id delivery responseId now
      | _ => s
  | .ended id => s.move id none
  | .cleared => { s with store := s.store.clear }

end ChainState

/-- Payloads come from `json.loads`, which leaves no duplicate keys. -/
def TurnEvent.WellFormed : TurnEvent → Prop
  | .start _ _ _ _ payload _ _ => (Json.obj payload).WellFormed
  | _ => True

/-- The runs of turns over one store. -/
def chainMachine : Machine ChainState TurnEvent where
  initial s := s.store.records = [] ∧ s.running = (fun _ => none) ∧ s.deliveries = [] ∧
    s.commits = []
  step s e s' := e.WellFormed ∧ s' = s.apply e

/-- The modalities passed to the provider along the chain that leads to a record:
those of the turn that recorded it, and those of the chain it followed. -/
inductive ChainModalities (commits : List Commit) :
    GatewayStateRecord → Finset MediaType → Prop
  | first {c} : c ∈ commits → c.delivery.turn.previous = none →
      ChainModalities commits c.record (sentModalities c.delivery.request.payload)
  | follow {c r m} : c ∈ commits → c.delivery.turn.previous = some r →
      ChainModalities commits r m →
      ChainModalities commits c.record (sentModalities c.delivery.request.payload ∪ m)

/-- The target of a turn takes all of these media at a time of its gate. -/
def Turn.TargetTakes (turn : Turn) (now : Instant) (modalities : Finset MediaType) : Prop :=
  ∃ capability, turn.tx.gate.registry.ResolvesToVision
      turn.normalized.request.target.registryId.value now capability ∧
    capability.supportsAll modalities = true ∧
    (MediaType.pdf ∈ modalities → capability.pdfPassthroughVerified = true)

/-- What the checks before the gate leave behind. -/
structure Turn.Checked (turn : Turn) : Prop where
  payload : (Json.obj turn.payload).WellFormed
  normalized : OpenaiResponses.normalizeResponsesRequest turn.tx.gate.unicode turn.budget
    (.obj turn.payload) (turn.previous.map GatewayStateRecord.forNormalizer) =
      .ok turn.normalized
  state : turn.tx.checkStateCapability turn.checkedAt turn.normalized = none
  tenant : ∀ r, turn.previous = some r → r.tenantId = turn.subject.tenantId

/-- A delivery is the result of the gate and of the sealing of its turn. -/
structure Delivery.Sealed (d : Delivery) : Prop where
  checked : d.turn.Checked
  turn : ∃ t : SealedTurn d.turn.tx, t.payload = d.turn.payload ∧
    t.normalized = d.turn.normalized ∧ t.prepared = d.prepared ∧
    t.sealedRequest = d.request ∧ t.now = d.gatedAt

/-- The record of a commit carries the modalities that its turn sent and followed. -/
structure Commit.Recorded (c : Commit) : Prop where
  delivered : c.delivery.Sealed
  modalities : c.record.mediaModalities = sentModalities c.delivery.request.payload ∪
    match c.delivery.turn.previous with
    | some r => r.mediaModalities
    | none => ∅
  tainted : c.record.mediaTainted = true ↔ c.record.mediaModalities ≠ ∅
  tenant : c.record.tenantId = c.delivery.turn.subject.tenantId

namespace Turn

variable {turn : Turn}

theorem Checked.previousState (h : turn.Checked) :
    turn.normalized.previousState = turn.previous.map GatewayStateRecord.forNormalizer := by
  obtain ⟨fields, input, current, parts, -, hfrom⟩ :=
    OpenaiResponses.normalizedFrom_of_ok h.normalized
  exact hfrom.previousState

/-- The earlier response of a turn is the one its payload names. -/
theorem Checked.previousId (h : turn.Checked) :
    (∀ r, turn.previous = some r →
      Json.field turn.payload "previous_response_id" = .str r.responseId) ∧
    (turn.previous = none → Json.field turn.payload "previous_response_id" = .null) := by
  obtain ⟨fields, input, current, parts, hpayload, hfrom⟩ :=
    OpenaiResponses.normalizedFrom_of_ok h.normalized
  cases hpayload
  have hagrees := hfrom.agrees
  constructor
  · intro r hr
    rw [hr] at hagrees
    exact OpenaiResponses.stateAgrees_some hagrees
  · intro hnone
    rw [hnone] at hagrees
    exact OpenaiResponses.stateAgrees_none hagrees

/-- A turn that follows tainted state has passed the check of its target. -/
theorem Checked.targetTakes (h : turn.Checked) {r : GatewayStateRecord}
    (hprevious : turn.previous = some r) (htainted : r.mediaTainted = true) :
    turn.TargetTakes turn.checkedAt r.mediaModalities := by
  have hstate := h.state
  simp only [GatewayTransaction.checkStateCapability, h.previousState, hprevious,
    Option.map_some, GatewayStateRecord.forNormalizer, htainted, Bool.not_true,
    Bool.false_eq_true, if_false] at hstate
  split at hstate
  · cases hstate
  rename_i capability hcapability
  split at hstate
  · cases hstate
  split at hstate
  · cases hstate
  split at hstate
  · cases hstate
  rename_i hvision
  split at hstate
  · cases hstate
  rename_i hsupports
  split at hstate
  · cases hstate
  rename_i hpdf
  simp only [ne_eq, not_not] at hvision
  have hresolve : turn.tx.gate.registry.resolve turn.normalized.request.target.registryId.value
      turn.checkedAt = ⟨.vision, some capability⟩ := by
    rw [← hvision, ← hcapability]
  obtain ⟨c, hc, htarget⟩ := CapabilityRegistry.resolve_vision_iff.mp hresolve
  cases hc
  refine ⟨capability, htarget, by simpa using hsupports, ?_⟩
  intro hmem
  by_contra hno
  exact hpdf ⟨hmem, hno⟩

end Turn

/-- A target that took the media at the check is not stale at the gate. -/
theorem Delivery.Sealed.targetTakes {d : Delivery} (h : d.Sealed) {m : Finset MediaType}
    (hchecked : d.turn.TargetTakes d.turn.checkedAt m) : d.turn.TargetTakes d.gatedAt m := by
  obtain ⟨c, htarget, hsupports, hpdf⟩ := hchecked
  obtain ⟨t, -, hnormalized, -, -, hnow⟩ := h.turn
  obtain ⟨-, -, hstale⟩ := PreRequestGate.prepared_of_prepareForModel t.outcome_eq t.prepared_eq
  rw [hnormalized, hnow] at hstale
  exact ⟨c, htarget.at_time hstale, hsupports, hpdf⟩

namespace GatewayTransaction

variable {tx : GatewayTransaction}

theorem normalizeAndCheck_eq_ok {budget : Nat} {gateNow : Instant} {payload : Json}
    {previous : Option GatewayStateRecord} {admission : Admission}
    (h : tx.normalizeAndCheck budget gateNow payload previous = .ok admission) :
    admission.previous = previous ∧
      OpenaiResponses.normalizeResponsesRequest tx.gate.unicode budget payload
        (previous.map GatewayStateRecord.forNormalizer) = .ok admission.normalized ∧
      tx.checkStateCapability gateNow admission.normalized = none := by
  unfold normalizeAndCheck at h
  split at h
  · cases h
  · cases h
  · rename_i normalized hnormalized
    split at h
    · cases h
    · rename_i hstate
      cases h
      exact ⟨rfl, hnormalized, hstate⟩

/-- Looking up state does not add records, and finds one that is stored. -/
theorem findState_cases (store : GatewayStateStore) (now : ℚ) (payload : Json)
    (subject : DataPlaneSubject) :
    (∀ e ∈ (findState store now payload subject).1.records, e ∈ store.records) ∧
      ∀ r, (findState store now payload subject).2 = .ok (some r) →
        ∃ id, ((subject.tenantId, id), r) ∈ store.records := by
  unfold findState
  split
  · exact ⟨fun _ he => he, by simp⟩
  · split
    · exact ⟨fun _ he => he, by simp⟩
    · rename_i previousId _
      have hmem : ∀ e ∈ (store.resolve now previousId subject.tenantId
          subject.credentialSelector).1.records, e ∈ store.records :=
        fun _ he => GatewayStateStore.mem_resolve he
      split
      · rename_i store' record hresolve
        rw [hresolve] at hmem
        refine ⟨hmem, ?_⟩
        intro r hr
        cases hr
        have hsome : (store.resolve now previousId subject.tenantId
            subject.credentialSelector).2 = some record := by
          rw [hresolve]
        exact ⟨previousId, (GatewayStateStore.resolve_eq_some hsome).1⟩
      · rename_i store' hresolve
        rw [hresolve] at hmem
        exact ⟨hmem, by simp⟩

/-- What the beginning of a turn does to the store, and what it passes on. -/
theorem beginTurn_cases (tx : GatewayTransaction) (budget : Nat) (store : GatewayStateStore)
    (now : ℚ) (gateNow : Instant) (payload : Json) (subject : DataPlaneSubject) :
    (∀ e ∈ (tx.beginTurn budget store now gateNow payload subject).1.records,
      e ∈ store.records) ∧
      ∀ admission, (tx.beginTurn budget store now gateNow payload subject).2 = .ok admission →
        tx.normalizeAndCheck budget gateNow payload admission.previous = .ok admission ∧
          ∀ r, admission.previous = some r →
            ∃ id, ((subject.tenantId, id), r) ∈ store.records := by
  unfold beginTurn
  split
  · exact ⟨fun _ he => he, by simp⟩
  · obtain ⟨hstore, hfound⟩ := findState_cases store now payload subject
    split
    · rename_i hfind
      rw [hfind] at hstore
      exact ⟨hstore, by simp⟩
    · rename_i store' previous hfind
      rw [hfind] at hstore hfound
      refine ⟨hstore, ?_⟩
      intro admission hadmission
      obtain ⟨hprevious, -, -⟩ := normalizeAndCheck_eq_ok hadmission
      rw [hprevious]
      exact ⟨hadmission, fun r hr => hfound r (by rw [hr])⟩

end GatewayTransaction

namespace ChainState

/-- A turn follows a record of an earlier commit. -/
def Follows (commits : List Commit) (turn : Turn) : Prop :=
  ∀ r, turn.previous = some r → ∃ c ∈ commits, c.record = r

/-- A phase is the result of the steps before it. -/
def Sound (commits : List Commit) : Phase → Prop
  | .gate turn => turn.Checked ∧ Follows commits turn
  | .provider d => d.Sealed ∧ Follows commits d.turn
  | .stream d _ => d.Sealed ∧ Follows commits d.turn

/-- What every event preserves. -/
structure Invariant (s : ChainState) : Prop where
  stored : ∀ e ∈ s.store.records, e.1 = (e.2.tenantId, e.2.responseId) ∧
    ∃ c ∈ s.commits, c.record = e.2
  running : ∀ id phase, s.running id = some phase → Sound s.commits phase
  delivered : ∀ d ∈ s.deliveries, d.Sealed ∧ Follows s.commits d.turn
  recorded : ∀ c ∈ s.commits, c.Recorded ∧ Follows s.commits c.delivery.turn
  chained : ∀ c ∈ s.commits, ChainModalities s.commits c.record c.record.mediaModalities

theorem Follows.mono {commits more : List Commit} {turn : Turn} (h : Follows commits turn) :
    Follows (commits ++ more) turn := by
  intro r hr
  obtain ⟨c, hc, hrecord⟩ := h r hr
  exact ⟨c, List.mem_append_left _ hc, hrecord⟩

theorem Sound.mono {commits more : List Commit} {phase : Phase} (h : Sound commits phase) :
    Sound (commits ++ more) phase := by
  cases phase with
  | gate turn => exact ⟨h.1, h.2.mono⟩
  | provider d => exact ⟨h.1, h.2.mono⟩
  | stream d _ => exact ⟨h.1, h.2.mono⟩

end ChainState

theorem ChainModalities.mono {commits more : List Commit} {r : GatewayStateRecord}
    {m : Finset MediaType} (h : ChainModalities commits r m) :
    ChainModalities (commits ++ more) r m := by
  induction h with
  | first hc hnone => exact .first (List.mem_append_left _ hc) hnone
  | follow hc hprevious _ ih => exact .follow (List.mem_append_left _ hc) hprevious ih

/-- Along a chain of recorded commits, the modalities are those of the record. -/
theorem ChainModalities.eq_mediaModalities {commits : List Commit}
    (hcommits : ∀ c ∈ commits, c.Recorded) {r : GatewayStateRecord} {m : Finset MediaType}
    (h : ChainModalities commits r m) : m = r.mediaModalities := by
  induction h with
  | first hc hnone =>
      rw [(hcommits _ hc).modalities, hnone, Finset.union_empty]
  | follow hc hprevious _ ih =>
      rw [(hcommits _ hc).modalities, hprevious, ih]

namespace ChainState

variable {s : ChainState}

/-- A turn that ends or waits elsewhere changes no record. -/
theorem Invariant.move (h : s.Invariant) {id : Nat} {phase : Option Phase}
    (hphase : ∀ p, phase = some p → Sound s.commits p) : (s.move id phase).Invariant := by
  refine ⟨h.stored, ?_, h.delivered, h.recorded, h.chained⟩
  intro id' p hp
  change Function.update s.running id phase id' = some p at hp
  by_cases hid : id' = id
  · subst hid
    rw [Function.update_self] at hp
    exact hphase p hp
  · rw [Function.update_of_ne hid] at hp
    exact h.running id' p hp

/-- Records may disappear from the store. -/
theorem Invariant.withStore (h : s.Invariant) {store : GatewayStateStore}
    (hstore : ∀ e ∈ store.records, e ∈ s.store.records) :
    ({ s with store := store } : ChainState).Invariant :=
  ⟨fun e he => h.stored e (hstore e he), h.running, h.delivered, h.recorded, h.chained⟩

theorem Invariant.start (h : s.Invariant) {id : Nat} {tx : GatewayTransaction}
    {subject : DataPlaneSubject} {budget : Nat} {payload : Entries Str Json} {now : ℚ}
    {checkedAt : Instant} (hpayload : (Json.obj payload).WellFormed) :
    (s.start id tx subject budget payload now checkedAt).Invariant := by
  obtain ⟨hstore, hadmission⟩ := GatewayTransaction.beginTurn_cases tx budget s.store now
    checkedAt (.obj payload) subject
  unfold ChainState.start
  split
  · rename_i hbegin
    rw [hbegin] at hstore
    exact h.withStore hstore
  · rename_i store admission hbegin
    rw [hbegin] at hstore hadmission
    obtain ⟨hchecked, hprevious⟩ := hadmission admission rfl
    obtain ⟨-, hnormalized, hstate⟩ := GatewayTransaction.normalizeAndCheck_eq_ok hchecked
    refine (h.withStore hstore).move ?_
    intro phase hphase
    cases hphase
    refine ⟨⟨hpayload, hnormalized, hstate, ?_⟩, ?_⟩
    · intro r hr
      obtain ⟨rid, hmem⟩ := hprevious r hr
      have hkey := (h.stored _ hmem).1
      simp only [Prod.mk.injEq] at hkey
      exact hkey.1.symm
    · intro r hr
      obtain ⟨rid, hmem⟩ := hprevious r hr
      exact (h.stored _ hmem).2

theorem Invariant.sealTurn (h : s.Invariant) {id : Nat} {turn : Turn}
    (hturn : Sound s.commits (.gate turn)) {now : Instant}
    {gateSignedAt verifiedAt signedAt : ℚ} {entropy : { data : Bytes // data.length = 18 }} :
    (s.sealTurn id turn now gateSignedAt verifiedAt signedAt entropy).Invariant := by
  have hended : (s.move id none).Invariant := h.move (by simp)
  unfold ChainState.sealTurn
  split
  · exact hended
  rename_i outcome houtcome
  split
  · exact hended
  rename_i prepared hprepared
  split
  · exact hended
  rename_i request hrequest
  let t : SealedTurn turn.tx := ⟨turn.budget, turn.payload, _, turn.normalized, now,
    gateSignedAt, turn.subject.tenantId, outcome, prepared, verifiedAt, signedAt, entropy,
    request, hturn.1.normalized, houtcome, hprepared, hrequest⟩
  have hsealed : Delivery.Sealed ⟨turn, now, prepared, request⟩ :=
    ⟨hturn.1, t, rfl, rfl, rfl, rfl, rfl⟩
  have hdelivered : ({ s with deliveries := s.deliveries ++ [⟨turn, now, prepared, request⟩] } :
      ChainState).Invariant := by
    refine ⟨h.stored, h.running, ?_, h.recorded, h.chained⟩
    intro d hd
    rcases List.mem_append.mp hd with hold | hnew
    · exact h.delivered d hold
    · obtain rfl := List.mem_singleton.mp hnew
      exact ⟨hsealed, hturn.2⟩
  refine hdelivered.move ?_
  intro phase hphase
  cases hphase
  exact ⟨hsealed, hturn.2⟩

/-- What `_record_state` stores agrees with what the turn sent and followed. -/
theorem recorded_of_recordState {d : Delivery} (hd : d.Sealed) {store store' : GatewayStateStore}
    {now : ℚ} {responseId : Str} {record : GatewayStateRecord}
    (h : d.turn.tx.recordState store now responseId d.turn.subject d.turn.normalized
      d.prepared = some (store', record)) : Commit.Recorded ⟨d, record⟩ := by
  obtain ⟨rfl, -, htaint⟩ := GatewayStateStore.put_eq_some h
  obtain ⟨t, hpayload, -, hprepared, hrequest, -⟩ := hd.turn
  have hsent : sentModalities d.request.payload = (detectMedia d.prepared.content).modalities := by
    rw [← hrequest, ← hprepared]
    apply t.sentModalities_eq
    rw [hpayload]
    exact hd.checked.payload
  refine ⟨hd, ?_, htaint, rfl⟩
  change GatewayTransaction.stateModalities d.turn.normalized d.prepared = _
  rw [GatewayTransaction.stateModalities, hsent, hd.checked.previousState]
  cases d.turn.previous <;> rfl

theorem Invariant.record (h : s.Invariant) {id : Nat} {d : Delivery} (hd : d.Sealed)
    (hfollows : Follows s.commits d.turn) {responseId : Str} {now : ℚ} :
    (s.record id d responseId now).Invariant := by
  unfold ChainState.record
  split
  · exact h.move (by simp)
  rename_i store' stored hrecord
  have hrecorded := recorded_of_recordState hd hrecord
  obtain ⟨-, hstore, -⟩ := GatewayStateStore.put_eq_some hrecord
  have hnew : ChainModalities (s.commits ++ [⟨d, stored⟩]) stored stored.mediaModalities := by
    have hmem : (⟨d, stored⟩ : Commit) ∈ s.commits ++ [⟨d, stored⟩] := by simp
    have hmodalities := hrecorded.modalities
    cases hprevious : d.turn.previous with
    | none =>
        rw [hprevious, Finset.union_empty] at hmodalities
        rw [hmodalities]
        exact .first (c := ⟨d, stored⟩) hmem hprevious
    | some r =>
        rw [hprevious] at hmodalities
        obtain ⟨c, hc, rfl⟩ := hfollows r hprevious
        rw [hmodalities]
        exact .follow (c := ⟨d, stored⟩) hmem hprevious (h.chained c hc).mono
  have hcommitted : ({ s with store := store', commits := s.commits ++ [⟨d, stored⟩] } :
      ChainState).Invariant := by
    refine ⟨?_, fun id phase hp => (h.running id phase hp).mono,
      fun d hd => ⟨(h.delivered d hd).1, (h.delivered d hd).2.mono⟩, ?_, ?_⟩
    · intro e he
      rw [hstore] at he
      rcases GatewayStateStore.mem_stored he with hold | rfl
      · obtain ⟨hkey, c, hc, hrec⟩ := h.stored e (GatewayStateStore.mem_purgeExpired hold)
        exact ⟨hkey, c, List.mem_append_left _ hc, hrec⟩
      · exact ⟨rfl, ⟨d, stored⟩, by simp, rfl⟩
    · intro c hc
      rcases List.mem_append.mp hc with hold | hlast
      · exact ⟨(h.recorded c hold).1, (h.recorded c hold).2.mono⟩
      · obtain rfl := List.mem_singleton.mp hlast
        exact ⟨hrecorded, hfollows.mono⟩
    · intro c hc
      rcases List.mem_append.mp hc with hold | hlast
      · exact (h.chained c hold).mono
      · obtain rfl := List.mem_singleton.mp hlast
        exact hnew
  exact hcommitted.move (by simp)

/-- Every event preserves the invariant. -/
theorem Invariant.apply (h : s.Invariant) {e : TurnEvent} (he : e.WellFormed) :
    (s.apply e).Invariant := by
  cases e with
  | start id tx subject budget payload now checkedAt =>
      rw [ChainState.apply]
      split
      · exact h.start he
      · exact h
  | gated id now gateSignedAt verifiedAt signedAt entropy =>
      rw [ChainState.apply]
      split
      · rename_i turn hturn
        exact h.sealTurn (h.running id _ hturn)
      · exact h
  | answered id responseId streaming now =>
      rw [ChainState.apply]
      split
      · rename_i d hd
        obtain ⟨hsealed, hfollows⟩ := h.running id _ hd
        split
        · refine h.move ?_
          intro phase hphase
          cases hphase
          exact ⟨hsealed, hfollows⟩
        · exact h.record hsealed hfollows
      · exact h
  | drained id now =>
      rw [ChainState.apply]
      split
      · rename_i d responseId hd
        obtain ⟨hsealed, hfollows⟩ := h.running id _ hd
        exact h.record hsealed hfollows
      · exact h
  | ended id => exact h.move (by simp)
  | cleared => exact h.withStore (by simp [GatewayStateStore.clear])

end ChainState

/-- In every reachable state the invariant holds. -/
theorem chain_invariant {s : ChainState} (h : chainMachine.Reachable Machine.anyStep s) :
    s.Invariant := by
  refine h.invariant ?_ ?_
  · rintro s ⟨hrecords, hrunning, hdeliveries, hcommits⟩
    refine ⟨?_, ?_, ?_, ?_, ?_⟩
    · simp [hrecords]
    · simp [hrunning]
    · simp [hdeliveries]
    · simp [hcommits]
    · simp [hcommits]
  · rintro s e s' hs - ⟨he, rfl⟩
    exact hs.apply he

/-- What the store and the deliveries of a run say about taint. -/
structure ChainTaint (s : ChainState) : Prop where
  stored : ∀ e ∈ s.store.records, ChainModalities s.commits e.2 e.2.mediaModalities ∧
    ∀ m, ChainModalities s.commits e.2 m → e.2.mediaModalities = m
  linked : ∀ c ∈ s.commits, ∀ r, c.delivery.turn.previous = some r →
    Json.field c.delivery.turn.payload "previous_response_id" = .str r.responseId ∧
      r.tenantId = c.delivery.turn.subject.tenantId
  unlinked : ∀ c ∈ s.commits, c.delivery.turn.previous = none →
    Json.field c.delivery.turn.payload "previous_response_id" = .null
  followed : ∀ d ∈ s.deliveries, ∀ r, d.turn.previous = some r →
    ∃ m, ChainModalities s.commits r m ∧ r.mediaModalities = m ∧
      (r.mediaTainted = true ↔ m ≠ ∅) ∧
      (m ≠ ∅ → d.turn.TargetTakes d.turn.checkedAt m ∧ d.turn.TargetTakes d.gatedAt m)

/-- Taint never shrinks along a chain, and no follow-up of tainted state reaches the
provider boundary unless its target takes all the media of the chain. -/
theorem chain_taint {s : ChainState} (h : chainMachine.Reachable Machine.anyStep s) :
    ChainTaint s := by
  have hs := chain_invariant h
  have hrecorded : ∀ c ∈ s.commits, c.Recorded := fun c hc => (hs.recorded c hc).1
  refine ⟨?_, ?_, ?_, ?_⟩
  · intro e he
    obtain ⟨-, c, hc, hrecord⟩ := hs.stored e he
    rw [← hrecord]
    exact ⟨hs.chained c hc, fun m hm => (hm.eq_mediaModalities hrecorded).symm⟩
  · intro c hc r hr
    obtain ⟨⟨hd, -, -, -⟩, -⟩ := hs.recorded c hc
    exact ⟨hd.checked.previousId.1 r hr, hd.checked.tenant r hr⟩
  · intro c hc hnone
    obtain ⟨⟨hd, -, -, -⟩, -⟩ := hs.recorded c hc
    exact hd.checked.previousId.2 hnone
  · intro d hd r hr
    obtain ⟨hsealed, hfollows⟩ := hs.delivered d hd
    obtain ⟨c, hc, rfl⟩ := hfollows r hr
    have htainted := (hrecorded c hc).tainted
    refine ⟨_, hs.chained c hc, rfl, htainted, ?_⟩
    intro hne
    have hchecked := hsealed.checked.targetTakes hr (htainted.mpr hne)
    exact ⟨hchecked, hsealed.targetTakes hchecked⟩

section Sample

/-- A user message about a PDF, or only with a text, for the PDF model. -/
def sampleInput (items : List Json) (previous : Json) : Entries Str Json :=
  [(lit "model", .str (lit "pdf-model")), (lit "previous_response_id", previous),
    (lit "input", .arr [.obj [(lit "role", .str (lit "user")), (lit "content", .arr items)]])]

def samplePdfItem : Json :=
  .obj [(lit "type", .str (lit "input_file")),
    (lit "file_data", .str (lit "data:application/pdf;base64,JVBERi0="))]

def sampleTextItem : Json :=
  .obj [(lit "type", .str (lit "input_text")), (lit "text", .str (lit "and now?"))]

def sampleSubject : DataPlaneSubject where
  credentialSelector := lit "key-1"
  tenantId := lit "tenant"
  scopes := [lit "responses:invoke"]
  selector_valid := by decide
  tenant_valid := by decide
  scopes_valid := by decide

/-- A turn with a PDF, and a turn that follows it with a text. -/
def sampleEvents : List TurnEvent :=
  [.start 0 SealedTurn.sampleTransaction sampleSubject 900 (sampleInput [samplePdfItem] .null)
      0 0,
    .gated 0 0 0 0 0 SealedTurn.sampleEntropy, .answered 0 (lit "resp_1") true 0, .drained 0 0,
    .start 1 SealedTurn.sampleTransaction sampleSubject 900
      (sampleInput [sampleTextItem] (.str (lit "resp_1"))) 1 0,
    .gated 1 0 0 0 0 SealedTurn.sampleEntropy, .answered 1 (lit "resp_2") false 1]

theorem ttl_range_sampleStore : 1 ≤ 1800 ∧ 1800 ≤ 86400 := by decide

theorem entries_range_sampleStore : 1 ≤ 1000 ∧ 1000 ≤ 100000 := by decide

def sampleStart : ChainState :=
  ⟨{ ttl_range := ttl_range_sampleStore, entries_range := entries_range_sampleStore },
    fun _ => none, [], []⟩

theorem wellFormed_sampleEvents : ∀ e ∈ sampleEvents, e.WellFormed := by
  have hpdf : (Json.obj (sampleInput [samplePdfItem] .null)).WellFormed := by
    simp only [sampleInput, samplePdfItem, Json.WellFormed, Json.WellFormedFields,
      Json.WellFormedItems, and_true, true_and]
    decide
  have htext : (Json.obj (sampleInput [sampleTextItem] (.str (lit "resp_1")))).WellFormed := by
    simp only [sampleInput, sampleTextItem, Json.WellFormed, Json.WellFormedFields,
      Json.WellFormedItems, and_true, true_and]
    decide
  simp [sampleEvents, TurnEvent.WellFormed, hpdf, htext]

/-- A chain of two turns, the second one with the PDF of the first behind it. -/
def sampleRun : ChainState := sampleEvents.foldl ChainState.apply sampleStart

theorem sampleRun_lengths :
    sampleRun.commits.length = 2 ∧ sampleRun.deliveries.length = 2 := by
  decide +kernel

theorem chain_taint_sample :
    sampleRun.commits.length = 2 ∧ sampleRun.deliveries.length = 2 ∧ ChainTaint sampleRun := by
  have hsteps : ∀ s, ∀ e ∈ sampleEvents, chainMachine.step s e (s.apply e) :=
    fun s e he => ⟨wellFormed_sampleEvents e he, rfl⟩
  refine ⟨sampleRun_lengths.1, sampleRun_lengths.2, ?_⟩
  exact chain_taint (Machine.Reachable.foldl hsteps (.start ⟨rfl, rfl, rfl, rfl⟩))

end Sample

end MediaBridge.Gateway
