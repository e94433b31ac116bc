import MediaBridge.Control.IssuedTokens
import MediaBridge.Foundation.Runs

/-!
# Revoked credentials

Credentials are captured when a draft is made, and published later, by `publish` and by
`rollback`: what becomes of those that have been revoked or deleted since.

## Implementation notes

The parts of a configuration that hold no credentials are arbitrary. An operation that fails
changes nothing; a selector is not drawn twice. `used` and `ended` say which credentials have been
issued, and which have been revoked or deleted.
-/

namespace MediaBridge.Control

open Foundation MediaBridge.Core Gateway

/-- The parts of a configuration body that hold no credentials. -/
structure ConfigRest where
  registry : Json
  providers : Json
  routingProfiles : Json
  defaults : Json
  policy : Json

/-- What `_snapshot_body` has read, and which credentials had been revoked or deleted then. -/
structure CapturedConfig where
  rest : ConfigRest
  rows : List ClientCredential
  ended : List Str

/-- `_snapshot_body`. -/
def CapturedConfig.body (isoformat : Datetime → Str) (D : DatabaseReads)
    (config : CapturedConfig) : Entries Str Json :=
  [(lit "registry", config.rest.registry), (lit "providers", config.rest.providers),
    (lit "routing_profiles", config.rest.routingProfiles),
    (lit "defaults", config.rest.defaults), (lit "policy", config.rest.policy),
    (lit "data_plane_auth",
      .obj [(lit "entries", .arr (dataPlaneAuthEntries isoformat D config.rows))])]

/-- A snapshot, and which credentials had been revoked or deleted when it was published. -/
structure PublishedConfig where
  config : CapturedConfig
  ended : List Str

structure ControlState where
  credentials : List ClientCredential := []
  drafts : List CapturedConfig := []
  snapshots : List PublishedConfig := []
  used : List Str := []
  ended : List Str := []

/-- The operations of the control plane that concern credentials. -/
inductive ControlEvent
  | issue (name : Str) (scopes : List Str) (expiresAt : Option Datetime) (now : Instant)
      (draw : TokenDraw)
  | revoke (selector : Str) (now : Instant)
  | delete (selector : Str)
  | draft (rest : ConfigRest)
  | publish (draft : Nat)
  | rollback (version : Nat)

namespace ControlState

variable (S : SecurityContext) (L : SnapshotLibrary) (D : DatabaseReads) (s : ControlState)

/-- A new row, unless its selector has been drawn before. -/
def add (row : ClientCredential) : ControlState :=
  if row.selector ∈ s.used then s
  else { s with credentials := s.credentials ++ [row], used := row.selector :: s.used }

/-- There is a row for the selector. -/
def holds (selector : Str) : Bool := s.credentials.any fun row => decide (row.selector = selector)

/-- The rows after `revoke`. -/
def revokedRows (selector : Str) (now : Instant) : List ClientCredential :=
  s.credentials.map fun row =>
    if row.selector = selector then CredentialService.revoked row now else row

/-- The rows after `delete`. -/
def remainingRows (selector : Str) : List ClientCredential :=
  s.credentials.filter fun row => decide (row.selector ≠ selector)

/-- A configuration is signed, stored and written, if it can be signed. -/
def publishConfig (config : CapturedConfig) : ControlState :=
  match ConfigSnapshot.snapshotDigest L (config.body L.isoformat D) with
  | .ok _ => { s with snapshots := s.snapshots ++ [⟨config, s.ended⟩] }
  | .error _ => s

/-- The next state. -/
def apply : ControlEvent → ControlState
  | .issue name scopes expiresAt now draw =>
      match CredentialService.issue S name scopes expiresAt now draw with
      | .ok (_, row) => s.add row
      | .error _ => s
  | .revoke selector now =>
      if s.holds selector then
        { s with credentials := s.revokedRows selector now, ended := selector :: s.ended }
      else s
  | .delete selector =>
      if s.holds selector then
        { s with credentials := s.remainingRows selector, ended := selector :: s.ended }
      else s
  | .draft rest => { s with drafts := s.drafts ++ [⟨rest, s.credentials, s.ended⟩] }
  | .publish draft =>
      match s.drafts[draft]? with
      | some config => s.publishConfig L D config
      | none => s
  | .rollback version =>
      match s.snapshots[version - 1]? with
      | some previous => s.publishConfig L D previous.config
      | none => s

/-- The operations of a control plane, in any order. -/
def machine : Machine ControlState ControlEvent where
  initial s := s = {}
  step s event s' := s' = s.apply S L D event

end ControlState

section Authentication

variable {S : SecurityContext} {L : SnapshotLibrary} {D : DatabaseReads}

/-- A snapshot makes some header authenticate as the credential. -/
def CapturedConfig.Authenticates (S : SecurityContext) (L : SnapshotLibrary) (D : DatabaseReads)
    (config : CapturedConfig) (selector : Str) : Prop :=
  ∃ verifier, SnapshotCredentialVerifier.build L.reader (config.body L.isoformat D) S.pepper =
    some verifier ∧ ∃ now header scope cookie subject,
      verifier.authenticate S.platform now header scope cookie = .ok subject ∧
        subject.credentialSelector = selector

/-- The gateway accepts the credentials of a snapshot. -/
def CapturedConfig.Accepted (S : SecurityContext) (L : SnapshotLibrary) (D : DatabaseReads)
    (config : CapturedConfig) : Prop :=
  (SnapshotCredentialVerifier.build L.reader (config.body L.isoformat D) S.pepper).isSome = true

/-- The document of the credentials in a body. -/
theorem publishes_body {config : CapturedConfig}
    (hreads : ReadsBack L.reader L.isoformat D config.rows) :
    Publishes L.reader L.isoformat D (config.body L.isoformat D) config.rows := by
  refine ⟨?_, hreads⟩
  unfold CapturedConfig.body
  rw [Json.field_cons_of_ne (by decide), Json.field_cons_of_ne (by decide),
    Json.field_cons_of_ne (by decide), Json.field_cons_of_ne (by decide),
    Json.field_cons_of_ne (by decide), Json.field_cons_self]

/-- What lies behind a subject. -/
theorem entry_of_authenticate {P : Platform} {verifier : SnapshotCredentialVerifier}
    {now : Datetime} {header : Option Str} {scope : Str} {cookie : Option Str}
    {subject : DataPlaneSubject} (h : verifier.authenticate P now header scope cookie = .ok subject) :
    ∃ selector entry, verifier.lookup selector = some entry ∧
      SnapshotCredentialVerifier.usable entry now.instant scope = true ∧ scope ∈ allowedScopes ∧
        SnapshotCredentialVerifier.subjectOf entry = some subject := by
  unfold SnapshotCredentialVerifier.authenticate at h
  split at h
  · cases h
  split at h
  · cases h
  rename_i hscope
  split at h
  · cases h
  split at h
  · cases h
  split at h
  · cases h
  rename_i entry hentry
  obtain ⟨selector, -, hlookup⟩ := Option.bind_eq_some_iff.mp hentry
  unfold SnapshotCredentialVerifier.accept at h
  split at h
  · cases h
  rename_i husable
  rw [Bool.not_eq_true', Bool.not_eq_false] at husable
  split at h
  · cases h
  split at h
  · cases h
  split at h
  · cases h
  rename_i subject' hsubject
  cases h
  exact ⟨selector, entry, hlookup, husable, not_not.mp hscope, hsubject⟩

/-- A credential that authenticates was captured before it was revoked. -/
theorem row_of_authenticates {config : CapturedConfig} {selector : Str}
    (hreads : ReadsBack L.reader L.isoformat D config.rows)
    (h : config.Authenticates S L D selector) :
    config.Accepted S L D ∧ headAlnum selector = true ∧
      ∃ row ∈ config.rows, row.selector = selector ∧ row.revokedAt = none := by
  obtain ⟨verifier, hbuild, now, header, scope, cookie, subject, hauth, rfl⟩ := h
  obtain ⟨key, entry, hlookup, husable, hscope, hsubject⟩ := entry_of_authenticate hauth
  obtain ⟨row, hrow, hstands⟩ := (publishes_body hreads).exists_row hbuild hlookup
  obtain ⟨hselector, -, -⟩ := subject_of_subjectOf hsubject
  have hlive := (hstands.usable_iff now.instant hscope).mp husable
  refine ⟨Option.isSome_iff_exists.mpr ⟨verifier, hbuild⟩, ?_, row, hrow, ?_, hlive.unrevoked⟩
  · rw [hselector, ← subjectOf_isSome_iff, hsubject]
    rfl
  · rw [hselector, hstands.selector]

/-- A credential may be used for something when it is issued. -/
theorem Issued.exists_scope {row : ClientCredential} {raw : Str} (h : Issued S row raw) :
    ∃ scope, scope ∈ row.scopes := by
  obtain ⟨name, scopes, expiresAt, now, draw, issued, row₀, hissue, -, hrow⟩ := h
  obtain ⟨_, hcheck, hissue⟩ := ok_of_bind hissue
  have hscopes : row.scopes = CredentialService.sortedScopes scopes := by
    rw [hrow]
    split at hissue
    · cases hissue
    · cases hissue
      rfl
  unfold CredentialService.checkRequest at hcheck
  split at hcheck
  · cases hcheck
  · rename_i hvalid
    simp only [Bool.or_eq_true, not_or, Bool.not_eq_true, Bool.not_eq_false', List.all_eq_true,
      decide_eq_true_eq, List.isEmpty_eq_false_iff] at hvalid
    obtain ⟨scope, hscope⟩ := List.exists_mem_of_ne_nil _ hvalid.1.2
    refine ⟨scope, ?_⟩
    rw [hscopes, CredentialService.mem_sortedScopes]
    exact ⟨hvalid.2 scope hscope, hscope⟩

/-- An unrevoked credential of an accepted snapshot authenticates before it expires. -/
theorem authenticates_of_row {config : CapturedConfig} {row : ClientCredential} {raw : Str}
    (hreads : ReadsBack L.reader L.isoformat D config.rows) (haccepted : config.Accepted S L D)
    (hrow : row ∈ config.rows) (hissued : Issued S row raw) (hunrevoked : row.revokedAt = none)
    (hhead : headAlnum row.selector = true) : config.Authenticates S L D row.selector := by
  obtain ⟨verifier, hbuild⟩ := Option.isSome_iff_exists.mp haccepted
  have hpublishes := publishes_body (L := L) (D := D) hreads
  obtain ⟨entry, hlookup, hstands⟩ := hpublishes.exists_lookup hbuild hrow
  obtain ⟨scope, hscope⟩ := hissued.exists_scope
  let now : Datetime := ⟨row.expiresAt.elim 0 fun i => i - 1, some 0⟩
  have hlive : Live row now.instant scope := by
    refine ⟨hunrevoked, fun i hi => ?_, hscope⟩
    change row.expiresAt.elim 0 (fun i => i - 1) < i
    rw [hi]
    exact sub_one_lt i
  rw [← hstands.selector, ← subjectOf_isSome_iff] at hhead
  obtain ⟨subject, hsubject⟩ := Option.isSome_iff_exists.mp hhead
  refine ⟨verifier, hbuild, now, some (bearerHeader raw), scope, none, subject, ?_, ?_⟩
  · rw [authenticate_token hissued.shape (hpublishes.entries_of_build hbuild).2 hlookup hstands rfl
      hlive none nofun, hsubject]
  · rw [(subject_of_subjectOf hsubject).1, hstands.selector]

end Authentication

/-- Rows that were issued, of which exactly the ended ones are revoked. -/
def Faithful (S : SecurityContext) (rows : List ClientCredential) (ended : List Str) : Prop :=
  ∀ row ∈ rows, (∃ raw, Issued S row raw) ∧ (row.selector ∈ ended ↔ row.revokedAt ≠ none)

namespace ControlState

variable {S : SecurityContext} {L : SnapshotLibrary} {D : DatabaseReads} {s s' : ControlState}
  {event : ControlEvent}

/-- What holds of a control plane in every run. -/
structure Sound (S : SecurityContext) (s : ControlState) : Prop where
  credentials_used : ∀ row ∈ s.credentials, row.selector ∈ s.used
  ended_used : ∀ selector ∈ s.ended, selector ∈ s.used
  credentials : Faithful S s.credentials s.ended
  drafts : ∀ config ∈ s.drafts, Faithful S config.rows config.ended
  snapshots : ∀ snapshot ∈ s.snapshots, Faithful S snapshot.config.rows snapshot.config.ended

theorem sound_initial : Sound S {} where
  credentials_used := nofun
  ended_used := nofun
  credentials := nofun
  drafts := nofun
  snapshots := nofun

/-- The row of an issued credential. -/
theorem issued_of_issue {name : Str} {scopes : List Str} {expiresAt : Option Datetime}
    {now : Instant} {draw : TokenDraw} {issued : IssuedCredential} {row : ClientCredential}
    (h : CredentialService.issue S name scopes expiresAt now draw = .ok (issued, row)) :
    Issued S row issued.credential ∧ row.revokedAt = none := by
  refine ⟨⟨name, scopes, expiresAt, now, draw, issued, row, h, rfl, rfl⟩, ?_⟩
  obtain ⟨_, -, h⟩ := ok_of_bind h
  split at h
  · cases h
  · cases h
    rfl

theorem Sound.add (h : Sound S s) {row : ClientCredential} {raw : Str} (hissued : Issued S row raw)
    (hunrevoked : row.revokedAt = none) : Sound S (s.add row) := by
  unfold ControlState.add
  split
  · exact h
  · rename_i hfresh
    have hended : row.selector ∉ s.ended := fun hmem => hfresh (h.ended_used _ hmem)
    constructor
    case credentials_used =>
      rw [List.forall_mem_append, List.forall_mem_singleton]
      exact ⟨fun other hother => List.mem_cons_of_mem _ (h.credentials_used other hother),
        List.mem_cons_self⟩
    case ended_used => exact fun selector hmem => List.mem_cons_of_mem _ (h.ended_used _ hmem)
    case credentials =>
      refine List.forall_mem_append.mpr ⟨h.credentials, List.forall_mem_singleton.mpr ?_⟩
      exact ⟨⟨raw, hissued⟩, iff_of_false hended (not_not.mpr hunrevoked)⟩
    case drafts => exact h.drafts
    case snapshots => exact h.snapshots

/-- A revoked row was issued, too. -/
theorem Issued.revoked {row : ClientCredential} {raw : Str} (h : Issued S row raw)
    (now : Instant) : Issued S (CredentialService.revoked row now) raw := by
  obtain ⟨name, scopes, expiresAt, at', draw, issued, row₀, hissue, hraw, hrow⟩ := h
  refine ⟨name, scopes, expiresAt, at', draw, issued, row₀, hissue, hraw, ?_⟩
  unfold CredentialService.revoked
  rw [hrow]

theorem Sound.revoke (h : Sound S s) {selector : Str} (hholds : s.holds selector = true)
    (now : Instant) :
    Sound S { s with credentials := s.revokedRows selector now, ended := selector :: s.ended } := by
  obtain ⟨held, hheld, hselector⟩ := List.any_eq_true.mp hholds
  have hused : selector ∈ s.used := by
    rw [← of_decide_eq_true hselector]
    exact h.credentials_used held hheld
  constructor
  case credentials_used =>
    intro row hrow
    obtain ⟨old, hold, rfl⟩ := List.mem_map.mp hrow
    split
    · exact h.credentials_used old hold
    · exact h.credentials_used old hold
  case ended_used => exact List.forall_mem_cons.mpr ⟨hused, h.ended_used⟩
  case credentials =>
    intro row hrow
    obtain ⟨old, hold, rfl⟩ := List.mem_map.mp hrow
    obtain ⟨⟨raw, hissued⟩, hiff⟩ := h.credentials old hold
    split
    · rename_i heq
      refine ⟨⟨raw, Issued.revoked hissued now⟩, iff_of_true ?_ (Option.some_ne_none _)⟩
      exact List.mem_cons.mpr (.inl heq)
    · rename_i hne
      refine ⟨⟨raw, hissued⟩, ?_⟩
      rw [List.mem_cons, or_iff_right hne]
      exact hiff
  case drafts => exact h.drafts
  case snapshots => exact h.snapshots

theorem Sound.delete (h : Sound S s) {selector : Str} (hholds : s.holds selector = true) :
    Sound S { s with credentials := s.remainingRows selector, ended := selector :: s.ended } := by
  obtain ⟨held, hheld, hselector⟩ := List.any_eq_true.mp hholds
  have hused : selector ∈ s.used := by
    rw [← of_decide_eq_true hselector]
    exact h.credentials_used held hheld
  constructor
  case credentials_used =>
    exact fun row hrow => h.credentials_used row (List.mem_filter.mp hrow).1
  case ended_used => exact List.forall_mem_cons.mpr ⟨hused, h.ended_used⟩
  case credentials =>
    intro row hrow
    obtain ⟨hold, hne⟩ := List.mem_filter.mp hrow
    obtain ⟨hissued, hiff⟩ := h.credentials row hold
    refine ⟨hissued, ?_⟩
    rw [List.mem_cons, or_iff_right (of_decide_eq_true hne)]
    exact hiff
  case drafts => exact h.drafts
  case snapshots => exact h.snapshots

theorem Sound.publishConfig (h : Sound S s) {config : CapturedConfig}
    (hconfig : Faithful S config.rows config.ended) : Sound S (s.publishConfig L D config) := by
  unfold ControlState.publishConfig
  split
  · exact { h with
      snapshots := List.forall_mem_append.mpr
        ⟨h.snapshots, List.forall_mem_singleton.mpr hconfig⟩ }
  · exact h

/-- An operation keeps the control plane sound. -/
theorem Sound.apply (h : Sound S s) (event : ControlEvent) : Sound S (s.apply S L D event) := by
  cases event with
  | issue name scopes expiresAt now draw =>
      simp only [ControlState.apply]
      split
      · rename_i issued row hissue
        obtain ⟨hissued, hunrevoked⟩ := issued_of_issue hissue
        exact h.add hissued hunrevoked
      · exact h
  | revoke selector now =>
      simp only [ControlState.apply]
      split
      · rename_i hholds
        exact h.revoke hholds now
      · exact h
  | delete selector =>
      simp only [ControlState.apply]
      split
      · rename_i hholds
        exact h.delete hholds
      · exact h
  | draft rest =>
      exact { h with
        drafts := List.forall_mem_append.mpr
          ⟨h.drafts, List.forall_mem_singleton.mpr h.credentials⟩ }
  | publish draft =>
      simp only [ControlState.apply]
      split
      · rename_i config hconfig
        exact h.publishConfig (h.drafts config (List.mem_of_getElem? hconfig))
      · exact h
  | rollback version =>
      simp only [ControlState.apply]
      split
      · rename_i previous hprevious
        exact h.publishConfig (h.snapshots previous (List.mem_of_getElem? hprevious))
      · exact h

/-- Every run is sound. -/
theorem sound_of_reachable (h : (machine S L D).Reachable Machine.anyStep s) : Sound S s := by
  refine h.invariant ?_ ?_
  · rintro s rfl
    exact sound_initial
  · rintro s event s' hsound - rfl
    exact hsound.apply event

/-- No snapshot makes a credential authenticate that had been revoked or deleted before. -/
def RevokedForGood (S : SecurityContext) (L : SnapshotLibrary) (D : DatabaseReads)
    (s : ControlState) : Prop :=
  ∀ snapshot ∈ s.snapshots, ∀ selector ∈ snapshot.ended,
    ¬ snapshot.config.Authenticates S L D selector

/-- No credential of an accepted snapshot was revoked or deleted after its configuration had been
captured and before it was published. Selectors that start with a hyphen or an underscore are
left out, since they never authenticate. -/
def CapturedLate (S : SecurityContext) (L : SnapshotLibrary) (D : DatabaseReads)
    (s : ControlState) : Prop :=
  ∀ snapshot ∈ s.snapshots, snapshot.config.Accepted S L D → ∀ row ∈ snapshot.config.rows,
    headAlnum row.selector = true → row.selector ∈ snapshot.ended →
      row.selector ∈ snapshot.config.ended

/-- Revocation is permanent exactly if every configuration was captured late enough. -/
theorem revokedForGood_iff (h : (machine S L D).Reachable Machine.anyStep s)
    (hreads : ∀ snapshot ∈ s.snapshots, ReadsBack L.reader L.isoformat D snapshot.config.rows) :
    RevokedForGood S L D s ↔ CapturedLate S L D s := by
  have hsound := sound_of_reachable h
  constructor
  · intro hgood snapshot hsnapshot haccepted row hrow hhead hended
    obtain ⟨⟨raw, hissued⟩, hiff⟩ := hsound.snapshots snapshot hsnapshot row hrow
    rw [hiff]
    intro hunrevoked
    exact hgood snapshot hsnapshot row.selector hended
      (authenticates_of_row (hreads snapshot hsnapshot) haccepted hrow hissued hunrevoked hhead)
  · intro hlate snapshot hsnapshot selector hended hauthenticates
    obtain ⟨haccepted, hhead, row, hrow, rfl, hunrevoked⟩ :=
      row_of_authenticates (hreads snapshot hsnapshot) hauthenticates
    have hcaptured := hlate snapshot hsnapshot haccepted row hrow hhead hended
    obtain ⟨-, hiff⟩ := hsound.snapshots snapshot hsnapshot row hrow
    exact hiff.mp hcaptured hunrevoked

section Sample

/-- A configuration of empty parts. -/
def emptyRest : ConfigRest := ⟨.obj [], .obj [], .obj [], .obj [], .obj []⟩

/-- A security context that knows the digest of the sample token. -/
def securitySample : SecurityContext := sampleSecurity (sampleToken 0) zeroDigest

/-- A draft is made before its credential is revoked, and published afterwards. -/
def staleDraft : List ControlEvent :=
  [.issue (lit "client") [lit "responses:invoke"] none 0 (sampleDraw 0), .draft emptyRest,
    .revoke (sampleRow 0 zeroDigest).selector 1, .publish 0]

/-- The state after the run. -/
def staleState : ControlState :=
  staleDraft.foldl (ControlState.apply securitySample sampleLibrary storedOrder) {}

theorem reachable_staleState :
    (machine securitySample sampleLibrary storedOrder).Reachable Machine.anyStep staleState :=
  Machine.Reachable.foldl (fun _ _ _ => rfl) (.start rfl)

/-- What a snapshot says of credentials. -/
def credentialParts (snapshot : PublishedConfig) : List ClientCredential × List Str :=
  (snapshot.config.rows, snapshot.ended)

/-- The only snapshot of the run. -/
theorem snapshots_staleState : ∃ snapshot, staleState.snapshots = [snapshot] ∧
    snapshot.config.rows = [sampleRow 0 zeroDigest] ∧
    snapshot.ended = [(sampleRow 0 zeroDigest).selector] ∧
    snapshot.config.Accepted securitySample sampleLibrary storedOrder := by
  have hparts : staleState.snapshots.map credentialParts =
      [([sampleRow 0 zeroDigest], [(sampleRow 0 zeroDigest).selector])] := by decide +kernel
  have haccepted : (staleState.snapshots.all fun snapshot =>
      (SnapshotCredentialVerifier.build sampleLibrary.reader
        (snapshot.config.body sampleLibrary.isoformat storedOrder)
        securitySample.pepper).isSome) = true := by decide +kernel
  obtain ⟨snapshot, hsnapshots, hsnapshot⟩ := List.map_eq_singleton_iff.mp hparts
  obtain ⟨hrows, hended⟩ := Prod.mk.inj hsnapshot
  refine ⟨snapshot, hsnapshots, hrows, hended, ?_⟩
  exact List.all_eq_true.mp haccepted snapshot (by rw [hsnapshots]; exact List.mem_singleton_self _)

theorem readsBack_sampleRow :
    ReadsBack sampleLibrary.reader sampleLibrary.isoformat storedOrder
      [sampleRow 0 zeroDigest] :=
  (publishes_credentialBody 0 zeroDigest).readsBack

theorem revokedForGood_iff_staleState :
    RevokedForGood securitySample sampleLibrary storedOrder staleState ↔
      CapturedLate securitySample sampleLibrary storedOrder staleState := by
  refine revokedForGood_iff reachable_staleState fun snapshot hsnapshot => ?_
  obtain ⟨only, hsnapshots, hrows, -, -⟩ := snapshots_staleState
  rw [hsnapshots, List.mem_singleton] at hsnapshot
  rw [hsnapshot, hrows]
  exact readsBack_sampleRow

/-- A draft that is older than the revocation makes the credential valid again. -/
theorem not_revokedForGood : ¬ ∀ (S : SecurityContext) (L : SnapshotLibrary) (D : DatabaseReads)
    (s : ControlState), (machine S L D).Reachable Machine.anyStep s →
      (∀ snapshot ∈ s.snapshots, ReadsBack L.reader L.isoformat D snapshot.config.rows) →
        RevokedForGood S L D s := by
  intro hall
  obtain ⟨snapshot, hsnapshots, hrows, hended, haccepted⟩ := snapshots_staleState
  have hmem : snapshot ∈ staleState.snapshots := by
    rw [hsnapshots]
    exact List.mem_singleton_self _
  have hreads : ReadsBack sampleLibrary.reader sampleLibrary.isoformat storedOrder
      snapshot.config.rows := by
    rw [hrows]
    exact readsBack_sampleRow
  have hgood := hall securitySample sampleLibrary storedOrder staleState reachable_staleState
    fun other hother => by
      rw [hsnapshots, List.mem_singleton] at hother
      rw [hother]
      exact hreads
  have hrow : sampleRow 0 zeroDigest ∈ snapshot.config.rows := by
    rw [hrows]
    exact List.mem_singleton_self _
  refine hgood snapshot hmem (sampleRow 0 zeroDigest).selector ?_ ?_
  · rw [hended]
    exact List.mem_singleton_self _
  · exact authenticates_of_row hreads haccepted hrow (issued_sampleRow (by decide +kernel)) rfl
      (by decide +kernel)

end Sample

end ControlState

end MediaBridge.Control
