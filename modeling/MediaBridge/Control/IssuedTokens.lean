import MediaBridge.Control.Credentials
import MediaBridge.Foundation.Collect
import MediaBridge.Gateway.SnapshotRuntime

/-!
# Issued tokens at the gateway

A token that the control plane has issued, in the hands of `authenticate`: which tokens
pass, and that nothing else does.
-/

namespace MediaBridge.Control

open Foundation MediaBridge.Core Gateway

/-- A row with the token that was handed out for it; it may have been revoked since. -/
def Issued (S : SecurityContext) (row : ClientCredential) (raw : Str) : Prop :=
  ∃ name scopes expiresAt now draw issued row₀,
    CredentialService.issue S name scopes expiresAt now draw = .ok (issued, row₀) ∧
      issued.credential = raw ∧ row = { row₀ with revokedAt := row.revokedAt }

/-- A row may be used for a scope at a time. -/
structure Live (row : ClientCredential) (now : Instant) (scope : Str) : Prop where
  unrevoked : row.revokedAt = none
  unexpired : ∀ i ∈ row.expiresAt, now < i
  scope : scope ∈ row.scopes

/-- Fields are read back as they were written. -/
structure ReadsBack (R : FieldReader) (isoformat : Datetime → Str) (D : DatabaseReads)
    (rows : List ClientCredential) : Prop where
  boolean : ∀ b b', R.boolean (.bool b) = some b' → b' = b
  datetime : ∀ row ∈ rows, ∀ i ∈ row.expiresAt, ∀ d,
    R.datetime (.str (isoformat (D.datetime i))) = some d → d.instant = i

/-- No other text has the digest of one of the tokens. -/
def Unforgeable (S : SecurityContext) (tokens : List Str) : Prop :=
  ∀ raw ∈ tokens, ∀ other, other ≠ raw →
    SnapshotCredentialVerifier.digest S.platform S.pepper other ≠
      SnapshotCredentialVerifier.digest S.platform S.pepper raw

/-- The subject of a row. -/
structure IsSubjectOf (subject : DataPlaneSubject) (row : ClientCredential) : Prop where
  selector : subject.credentialSelector = row.selector
  tenant : subject.tenantId = lit "client-" ++ row.selector
  scopes : ∀ scope, scope ∈ subject.scopes ↔ scope ∈ row.scopes

/-- The header with a token. -/
def bearerHeader (raw : Str) : Str := SnapshotCredentialVerifier.bearerPrefix ++ raw

/-- The live tokens authenticate as their rows, and every other header is rejected. -/
structure AuthenticatesExactly (P : Platform) (verifier : SnapshotCredentialVerifier)
    (published : List (ClientCredential × Str)) (now : Datetime) (scope : Str) : Prop where
  issued : ∀ row raw, (row, raw) ∈ published → Live row now.instant scope →
    ∀ cookie : Option Str, (∀ c ∈ cookie, Str.strip c = []) →
      ∃ subject, verifier.authenticate P now (some (bearerHeader raw)) scope cookie =
        .ok subject ∧ IsSubjectOf subject row
  others : ∀ header : Option Str, (∀ h ∈ header, Str.encodable h = true) →
    (∀ row raw, (row, raw) ∈ published → Live row now.instant scope →
      header ≠ some (bearerHeader raw)) →
    ∀ cookie, ∃ code, verifier.authenticate P now header scope cookie = .error (.rejected code)

/-- The first character is a letter or a digit. -/
def headAlnum (selector : Str) : Bool := selector.head?.any CodePoint.isAsciiAlnum

/-- What is known of a token. -/
structure TokenShape (S : SecurityContext) (row : ClientCredential) (raw : Str) : Prop where
  exists_parts : ∃ selector secret, raw = lit "mbc_" ++ (selector ++ cp 46 :: secret) ∧
    row.selector = selector ∧ selector.length = 16 ∧ secret.length = 43 ∧
    (∀ c ∈ selector, urlSafeChar c = true) ∧ ∀ c ∈ secret, urlSafeChar c = true
  digest : SnapshotCredentialVerifier.digest S.platform S.pepper raw = some row.credentialDigest
  scopes : ∀ scope ∈ row.scopes, scope ∈ allowedScopes

theorem encodeUrl_length_of_mod {data : Bytes} {n : Nat} (h : data.length = n) :
    (Base64.encodeUrl data).length + Base64.padCount n = (n + 2) / 3 * 4 := by
  rw [← h]
  exact Base64.encodeUrl_length data

theorem urlSafeChar_encodeUrl (data : Bytes) : ∀ c ∈ Base64.encodeUrl data, urlSafeChar c = true :=
  Base64.forall_mem_encodeUrl (by decide) data

/-- Every issued token has that shape. -/
theorem Issued.shape {S : SecurityContext} {row : ClientCredential} {raw : Str}
    (h : Issued S row raw) : TokenShape S row raw := by
  obtain ⟨name, scopes, expiresAt, now, draw, issued, row₀, hissue, rfl, hrow⟩ := h
  obtain ⟨-, -, hissue⟩ := ok_of_bind hissue
  unfold SecurityContext.issueToken at hissue
  cases hdigest : S.digest (lit "mbc" ++ cp 95 :: Base64.encodeUrl draw.selectorBytes ++
      cp 46 :: Base64.encodeUrl draw.secretBytes) (lit "client_credential") with
  | none =>
      simp only [hdigest, Option.bind_eq_bind, Option.bind_none] at hissue
      cases hissue
  | some digest =>
      simp only [hdigest, Option.bind_eq_bind, Option.bind_some] at hissue
      cases hissue
      rw [hrow]
      refine ⟨⟨Base64.encodeUrl draw.selectorBytes, Base64.encodeUrl draw.secretBytes, ?_, rfl,
        ?_, ?_, urlSafeChar_encodeUrl _, urlSafeChar_encodeUrl _⟩, hdigest, ?_⟩
      · exact List.append_assoc _ _ _
      · have hlength := encodeUrl_length_of_mod draw.selector_length
        exact hlength
      · have hlength := encodeUrl_length_of_mod draw.secret_length
        exact Nat.succ.inj hlength
      · intro scope hscope
        exact (CredentialService.mem_sortedScopes.mp hscope).1

theorem not_isSpace_of_urlSafeChar {c : CodePoint} (h : urlSafeChar c = true) :
    c.isSpace = false := by
  simp only [urlSafeChar, CodePoint.isAsciiAlnum, CodePoint.isAsciiAlpha, CodePoint.isAsciiLower,
    CodePoint.isAsciiUpper, CodePoint.isAsciiDigit, Bool.or_eq_true, Bool.and_eq_true,
    decide_eq_true_eq, beq_iff_eq] at h
  rcases h with (hrange | rfl) | rfl
  · simp only [CodePoint.isSpace, Bool.or_eq_false_iff, Bool.and_eq_false_iff,
      decide_eq_false_iff_not, beq_eq_false_iff_ne]
    omega
  · decide
  · decide

theorem ne_of_urlSafeChar {c d : CodePoint} (h : urlSafeChar c = true)
    (hd : urlSafeChar d = false) : c ≠ d := by
  rintro rfl
  rw [h] at hd
  cases hd

namespace TokenShape

variable {S : SecurityContext} {row : ClientCredential} {raw : Str} (h : TokenShape S row raw)
include h

/-- The characters of a token. -/
theorem char_of_mem : ∀ c ∈ raw, urlSafeChar c = true ∨ c = cp 46 := by
  obtain ⟨selector, secret, rfl, -, -, -, hselector, hsecret⟩ := h.exists_parts
  have hmark : ∀ c ∈ lit "mbc_", urlSafeChar c = true :=
    List.all_eq_true.mp (by decide)
  intro c hc
  simp only [List.mem_append, List.mem_cons] at hc
  rcases hc with hc | hc | rfl | hc
  · exact .inl (hmark c hc)
  · exact .inl (hselector c hc)
  · exact .inr rfl
  · exact .inl (hsecret c hc)

/-- A token passes the header reader. -/
theorem bearer : SnapshotCredentialVerifier.bearer (some (bearerHeader raw)) = some raw := by
  have hspace : ∀ c ∈ raw, c.isSpace = false := by
    intro c hc
    rcases h.char_of_mem c hc with hsafe | rfl
    · exact not_isSpace_of_urlSafeChar hsafe
    · decide
  have hlength : raw.length = 64 := by
    obtain ⟨selector, secret, rfl, -, hselector, hsecret, -⟩ := h.exists_parts
    simp [hselector, hsecret, lit]
  have hempty : raw.isEmpty = false := by
    rw [List.isEmpty_eq_false_iff]
    rintro rfl
    cases hlength
  have hblank : cp 32 ∉ raw := by
    intro hmem
    have hno := hspace _ hmem
    revert hno
    decide
  have hstart : Str.startsWith (bearerHeader raw) SnapshotCredentialVerifier.bearerPrefix =
      true :=
    (Str.startsWith_iff _ _).mpr (List.prefix_append _ _)
  have hdrop : (bearerHeader raw).drop 7 = raw := List.drop_left' (by decide)
  have hlong : ¬ 160 < raw.length := by omega
  simp only [SnapshotCredentialVerifier.bearer, Option.bind_eq_bind, Option.bind_some, hstart,
    hdrop, hempty, Str.strip_of_forall_not_isSpace hspace, hblank, hlong, ne_eq,
    not_true_eq_false, decide_false, Bool.or_false, Bool.not_true, Bool.false_eq_true, if_false]

/-- The selector of a token is that of its row. -/
theorem selector : SnapshotCredentialVerifier.selector raw = some row.selector := by
  obtain ⟨selector, secret, rfl, rfl, hselector, hsecret, hsafe, -⟩ := h.exists_parts
  have hstart : Str.startsWith (lit "mbc_" ++ (row.selector ++ cp 46 :: secret))
      SnapshotCredentialVerifier.tokenPrefix = true :=
    (Str.startsWith_iff _ _).mpr (List.prefix_append _ _)
  have hdrop : (lit "mbc_" ++ (row.selector ++ cp 46 :: secret)).drop 4 =
      row.selector ++ cp 46 :: secret := List.drop_left' (by decide)
  have hdot : cp 46 ∉ row.selector := by
    intro hmem
    exact ne_of_urlSafeChar (hsafe _ hmem) (by decide) rfl
  have hpattern : credentialSelectorPattern row.selector = true := by
    simp only [credentialSelectorPattern, hselector, Bool.and_eq_true, decide_eq_true_eq,
      List.all_eq_true]
    exact ⟨⟨by decide, by decide⟩, hsafe⟩
  have hempty : secret.isEmpty = false := by
    rw [List.isEmpty_eq_false_iff]
    rintro rfl
    cases hsecret
  have hshort : ¬ 64 < secret.length := by omega
  simp only [SnapshotCredentialVerifier.selector, hstart, hdrop,
    Str.partitionAt_append_cons hdot, hpattern, hempty, hshort, Bool.not_true,
    Bool.false_eq_true, if_false, Bool.or_false, decide_false]

end TokenShape

/-- An entry of the snapshot stands for a row. -/
structure StandsFor (entry : SnapshotCredentialEntry) (row : ClientCredential) : Prop where
  selector : entry.selector.value = row.selector
  digest : entry.digest.value = row.credentialDigest
  scopes : ∀ scope, scope ∈ entry.scopes ↔ scope ∈ allowedScopes ∧ scope ∈ row.scopes
  expiry : entry.expiresAt.map Datetime.instant = row.expiresAt
  revoked : entry.revoked = row.revokedAt.isSome

/-- What is known of an entry that has been read. -/
structure ReadFrom (R : FieldReader) (fields : Entries Str Json)
    (entry : SnapshotCredentialEntry) : Prop where
  selector : (Json.field fields "selector").str? = some entry.selector.value
  digest : (Json.field fields "digest").str? = some entry.digest.value
  scopes : ∃ scopes, RuntimeSnapshot.textItems (Json.field fields "scopes") = some scopes ∧
    entry.scopes = scopes.dedup
  expiry : RuntimeSnapshot.optionalTime R fields "expires_at" = some entry.expiresAt
  revoked : RuntimeSnapshot.optionalFlag R fields "revoked" = some entry.revoked

theorem readFrom_of_readEntry {R : FieldReader} {v : Json} {fields : Entries Str Json}
    (hv : v.obj? = some fields) {entry : SnapshotCredentialEntry}
    (h : SnapshotAuth.readEntry R v = some entry) : ReadFrom R fields entry := by
  obtain ⟨fields', hfields, h⟩ := Option.bind_eq_some_iff.mp h
  obtain rfl : fields' = fields := Option.some_inj.mp (hfields.symm.trans hv)
  split at h
  · cases h
  · obtain ⟨rawSelector, hrawSelector, h⟩ := Option.bind_eq_some_iff.mp h
    obtain ⟨selector, hselector, h⟩ := Option.bind_eq_some_iff.mp h
    obtain ⟨rawDigest, hrawDigest, h⟩ := Option.bind_eq_some_iff.mp h
    obtain ⟨digest, hdigest, h⟩ := Option.bind_eq_some_iff.mp h
    obtain ⟨scopes, hscopes, h⟩ := Option.bind_eq_some_iff.mp h
    obtain ⟨expiresAt, hexpiresAt, h⟩ := Option.bind_eq_some_iff.mp h
    obtain ⟨revoked, hrevoked, h⟩ := Option.bind_eq_some_iff.mp h
    dsimp only at h
    split at h
    · cases h
      refine ⟨?_, ?_, ⟨scopes, hscopes, rfl⟩, hexpiresAt, hrevoked⟩
      · rw [hrawSelector, Constrained.value_of_validate hselector]
      · rw [hrawDigest, Constrained.value_of_validate hdigest]
    · cases h

theorem textItems_map_str (texts : List Str) :
    RuntimeSnapshot.textItems (.arr (texts.map .str)) = some texts := by
  refine mapM_eq_some_iff.mpr ?_
  rw [List.map_map]
  rfl

theorem optionalFlag_of_field {R : FieldReader} {fields : Entries Str Json} {key : String}
    {b : Bool} (h : Json.field fields key = .bool b) :
    RuntimeSnapshot.optionalFlag R fields key = R.boolean (.bool b) := by
  rw [RuntimeSnapshot.optionalFlag, Json.get?_of_field h nofun]

/-- What is read from the entry of a row stands for the row. -/
theorem standsFor_of_readEntry {R : FieldReader} {isoformat : Datetime → Str}
    {D : DatabaseReads} {rows : List ClientCredential} (hreads : ReadsBack R isoformat D rows)
    {row : ClientCredential} (hrow : row ∈ rows) {entry : SnapshotCredentialEntry}
    (h : SnapshotAuth.readEntry R (dataPlaneAuthEntry isoformat D row) = some entry) :
    StandsFor entry row := by
  have hread := readFrom_of_readEntry rfl h
  refine ⟨?_, ?_, ?_, ?_, ?_⟩
  · have hselector := hread.selector
    rw [Json.field_cons_self] at hselector
    exact (Option.some_inj.mp hselector).symm
  · have hdigest := hread.digest
    rw [Json.field_cons_of_ne (by decide), Json.field_cons_self] at hdigest
    exact (Option.some_inj.mp hdigest).symm
  · obtain ⟨scopes, hscopes, hentry⟩ := hread.scopes
    rw [Json.field_cons_of_ne (by decide), Json.field_cons_of_ne (by decide),
      Json.field_cons_self, textItems_map_str] at hscopes
    intro scope
    rw [hentry, List.mem_dedup, ← Option.some_inj.mp hscopes]
    exact CredentialService.mem_sortedScopes
  · have hexpiry := hread.expiry
    rw [RuntimeSnapshot.optionalTime, Json.field_cons_of_ne (by decide),
      Json.field_cons_of_ne (by decide), Json.field_cons_of_ne (by decide),
      Json.field_cons_self] at hexpiry
    cases hinstant : row.expiresAt with
    | none =>
        rw [hinstant] at hexpiry
        rw [← Option.some_inj.mp hexpiry]
        rfl
    | some i =>
        rw [hinstant] at hexpiry
        obtain ⟨d, hd, hexpiry⟩ := Option.bind_eq_some_iff.mp hexpiry
        split at hexpiry
        · rw [← Option.some_inj.mp hexpiry, ← hreads.datetime row hrow i hinstant d hd]
          rfl
        · cases hexpiry
  · refine hreads.boolean _ _ ((optionalFlag_of_field ?_).symm.trans hread.revoked)
    rw [Json.field_cons_of_ne (by decide), Json.field_cons_of_ne (by decide),
      Json.field_cons_of_ne (by decide), Json.field_cons_of_ne (by decide), Json.field_cons_self]

/-- An entry is usable exactly when its row is live. -/
theorem StandsFor.usable_iff {entry : SnapshotCredentialEntry} {row : ClientCredential}
    (h : StandsFor entry row) (now : Instant) {scope : Str} (hscope : scope ∈ allowedScopes) :
    SnapshotCredentialVerifier.usable entry now scope = true ↔ Live row now scope := by
  have hexpired : entry.expiresAt.any (fun d => decide (d.instant ≤ now)) = false ↔
      ∀ i ∈ row.expiresAt, now < i := by
    rw [← h.expiry]
    cases entry.expiresAt with
    | none => simp
    | some d => simp
  rw [SnapshotCredentialVerifier.usable, Bool.and_eq_true, Bool.and_eq_true, Bool.not_eq_true',
    Bool.not_eq_true', hexpired, decide_eq_true_iff, h.revoked, h.scopes, Option.isSome_eq_false_iff,
    Option.isNone_iff_eq_none]
  constructor
  · rintro ⟨⟨hrevoked, hexpiry⟩, -, hmem⟩
    exact ⟨hrevoked, hexpiry, hmem⟩
  · intro hlive
    exact ⟨⟨hlive.unrevoked, hlive.unexpired⟩, hscope, hlive.scope⟩

/-- An identifier from its first character and the rest. -/
theorem identifierPattern_cons_iff {head more : CodePoint → Bool} {c : CodePoint} {rest : Str} :
    identifierPattern head more (c :: rest) = true ↔
      head c = true ∧ rest.length ≤ 127 ∧ ∀ d ∈ rest, more d = true := by
  rw [identifierPattern, Bool.and_eq_true, Bool.and_eq_true, decide_eq_true_iff,
    List.all_eq_true, and_assoc]

/-- A subject is made for an entry exactly when its selector starts with a letter or a
digit. -/
theorem subjectOf_isSome_iff (entry : SnapshotCredentialEntry) :
    (SnapshotCredentialVerifier.subjectOf entry).isSome = true ↔
      headAlnum entry.selector.value = true := by
  have hscopes : entry.scopes ≠ [] ∧ ∀ scope ∈ entry.scopes, scopePattern scope = true := by
    refine ⟨entry.scopes_ne, fun scope hscope => ?_⟩
    have hallowed : ∀ s ∈ allowedScopes, scopePattern s = true :=
      List.all_eq_true.mp (by decide)
    exact hallowed scope (entry.scopes_allowed scope hscope)
  have hpattern := entry.selector.accepted
  simp only [credentialSelectorPattern, Bool.and_eq_true, decide_eq_true_eq,
    List.all_eq_true] at hpattern
  obtain ⟨⟨-, hlength⟩, hsafe⟩ := hpattern
  have htenant : tenantIdPattern (lit "client-" ++ entry.selector.value) = true := by
    have hcons : lit "client-" ++ entry.selector.value =
        cp 99 :: (lit "lient-" ++ entry.selector.value) := rfl
    have hletters : ∀ c ∈ lit "lient-", urlSafeChar c = true := List.all_eq_true.mp (by decide)
    have hsix : (lit "lient-").length = 6 := by decide
    rw [tenantIdPattern, hcons, identifierPattern_cons_iff, List.length_append, hsix]
    refine ⟨by decide, by omega, fun d hd => ?_⟩
    have hchar : urlSafeChar d = true := (List.mem_append.mp hd).elim (hletters d) (hsafe d)
    rw [urlSafeChar] at hchar
    grind
  have hselector : responseIdPattern entry.selector.value = true ↔
      headAlnum entry.selector.value = true := by
    cases hvalue : entry.selector.value with
    | nil => exact iff_of_false nofun nofun
    | cons c rest =>
        rw [hvalue] at hlength hsafe
        rw [responseIdPattern, identifierPattern_cons_iff]
        refine ⟨fun h => h.1, fun h => ⟨h, ?_, fun d hd => ?_⟩⟩
        · simp only [List.length_cons] at hlength
          omega
        · have hchar := hsafe d (List.mem_cons_of_mem _ hd)
          rw [urlSafeChar] at hchar
          grind
  rw [SnapshotCredentialVerifier.subjectOf]
  split
  · rename_i h
    exact iff_of_true rfl (hselector.mp h.1)
  · rename_i h
    refine iff_of_false nofun fun hhead => h ⟨hselector.mpr hhead, htenant, hscopes⟩

theorem subject_of_subjectOf {entry : SnapshotCredentialEntry} {subject : DataPlaneSubject}
    (h : SnapshotCredentialVerifier.subjectOf entry = some subject) :
    subject.credentialSelector = entry.selector.value ∧
      subject.tenantId = lit "client-" ++ entry.selector.value ∧
      subject.scopes = entry.scopes := by
  unfold SnapshotCredentialVerifier.subjectOf at h
  split at h
  · cases h
    exact ⟨rfl, rfl, rfl⟩
  · cases h

/-- The header from which a token has been read. -/
theorem header_of_bearer {header : Option Str} {raw : Str}
    (h : SnapshotCredentialVerifier.bearer header = some raw) :
    header = some (bearerHeader raw) := by
  obtain ⟨text, htext, hraw⟩ := Option.bind_eq_some_iff.mp h
  split at hraw
  · cases hraw
  · rename_i hstart
    rw [Bool.not_eq_true', Bool.not_eq_false, Str.startsWith_iff] at hstart
    obtain ⟨rest, rfl⟩ := hstart
    have hdrop : (SnapshotCredentialVerifier.bearerPrefix ++ rest).drop 7 = rest :=
      List.drop_left' (by decide)
    dsimp only at hraw
    rw [hdrop] at hraw
    split at hraw
    · cases hraw
    · cases hraw
      exact htext

/-- A text with an encoding has a digest. -/
theorem exists_digest (P : Platform) (pepper : Bytes) {raw : Str}
    (h : Str.encodable raw = true) :
    ∃ digest, SnapshotCredentialVerifier.digest P pepper raw = some digest := by
  have hpurpose : Str.encodable (lit "client_credential") = true := by decide
  have hpayload : Str.encodable (SnapshotCredentialVerifier.credentialPayload raw) = true := by
    rw [Str.encodable, List.all_eq_true] at h hpurpose ⊢
    intro c hc
    rcases List.mem_append.mp hc with hc | hc
    · exact hpurpose c hc
    · rcases List.mem_cons.mp hc with rfl | hc
      · decide
      · exact h c hc
  rw [SnapshotCredentialVerifier.digest, Utf8.encode, if_pos hpayload]
  exact ⟨_, rfl⟩

/-- The entries of a document that has been read. -/
theorem entries_of_readDocument {R : FieldReader} {v : Json}
    {entries : List SnapshotCredentialEntry} (h : SnapshotAuth.readDocument R v = some entries)
    {fields : Entries Str Json} (hv : v.obj? = some fields) {items : List Json}
    (hitems : Json.field fields "entries" = .arr items) :
    items.mapM (SnapshotAuth.readEntry R) = some entries := by
  obtain ⟨fields', hfields, h⟩ := Option.bind_eq_some_iff.mp h
  obtain rfl : fields' = fields := Option.some_inj.mp (hfields.symm.trans hv)
  split at h
  · cases h
  · rw [hitems] at h
    dsimp only at h
    split at h
    · exact h
    · cases h

/-- What a snapshot publishes of the credentials. -/
structure Publishes (R : FieldReader) (isoformat : Datetime → Str) (D : DatabaseReads)
    (body : Entries Str Json) (rows : List ClientCredential) : Prop where
  document : Json.field body "data_plane_auth" =
    .obj [(lit "entries", .arr (dataPlaneAuthEntries isoformat D rows))]
  readsBack : ReadsBack R isoformat D rows

namespace Publishes

variable {R : FieldReader} {isoformat : Datetime → Str} {D : DatabaseReads}
  {body : Entries Str Json} {rows : List ClientCredential}
  (h : Publishes R isoformat D body rows) {pepper : Bytes} {verifier : SnapshotCredentialVerifier}
  (hbuild : SnapshotCredentialVerifier.build R body pepper = some verifier)
include h hbuild

theorem entries_of_build : (D.bySelector rows).mapM (fun row =>
    SnapshotAuth.readEntry R (dataPlaneAuthEntry isoformat D row)) = some verifier.entries ∧
      verifier.pepper = pepper := by
  obtain ⟨entries, hentries, hbuild⟩ := Option.bind_eq_some_iff.mp hbuild
  split at hbuild
  · cases hbuild
    refine ⟨?_, rfl⟩
    rw [SnapshotCredentialVerifier.readEntries, h.document] at hentries
    have hread := entries_of_readDocument hentries rfl (Json.field_cons_self _ _ _)
    rw [dataPlaneAuthEntries, List.mapM_map] at hread
    exact hread
  · cases hbuild

/-- Every row has its entry. -/
theorem exists_lookup {row : ClientCredential} (hrow : row ∈ rows) :
    ∃ entry, verifier.lookup row.selector = some entry ∧ StandsFor entry row := by
  obtain ⟨hentries, -⟩ := h.entries_of_build hbuild
  obtain ⟨entry, hentry, hread⟩ :=
    exists_of_mapM hentries ((D.bySelector_perm rows).mem_iff.mpr hrow)
  have hstands := standsFor_of_readEntry h.readsBack hrow hread
  refine ⟨entry, ?_, hstands⟩
  cases hlookup : verifier.lookup row.selector with
  | none =>
      have hno := List.find?_eq_none.mp hlookup entry hentry
      exact absurd (decide_eq_true hstands.selector) hno
  | some other =>
      have hsame := List.find?_some hlookup
      have hselector : other.selector.value = entry.selector.value :=
        (of_decide_eq_true hsame).trans hstands.selector.symm
      rw [List.inj_on_of_nodup_map verifier.selectors_nodup (List.mem_of_find?_eq_some hlookup)
        hentry hselector]

/-- Every entry that is found stands for a row. -/
theorem exists_row {selector : Str} {entry : SnapshotCredentialEntry}
    (hlookup : verifier.lookup selector = some entry) : ∃ row ∈ rows, StandsFor entry row := by
  obtain ⟨hentries, -⟩ := h.entries_of_build hbuild
  obtain ⟨row, hrow, hread⟩ :=
    (mem_iff_of_mapM hentries).mp (List.mem_of_find?_eq_some hlookup)
  have hmem := (D.bySelector_perm rows).mem_iff.mp hrow
  exact ⟨row, hmem, standsFor_of_readEntry h.readsBack hmem hread⟩

end Publishes

/-- What becomes of a live token depends on the subject alone. -/
theorem authenticate_token {S : SecurityContext} {row : ClientCredential} {raw : Str}
    (hshape : TokenShape S row raw) {verifier : SnapshotCredentialVerifier}
    (hpepper : verifier.pepper = S.pepper) {entry : SnapshotCredentialEntry}
    (hlookup : verifier.lookup row.selector = some entry) (hstands : StandsFor entry row)
    {now : Datetime} (hnow : now.aware = true) {scope : Str}
    (hlive : Live row now.instant scope) (cookie : Option Str)
    (hcookie : ∀ c ∈ cookie, Str.strip c = []) :
    verifier.authenticate S.platform now (some (bearerHeader raw)) scope cookie =
      match SnapshotCredentialVerifier.subjectOf entry with
      | none => .error .other
      | some subject => .ok subject := by
  have hscope := hshape.scopes scope hlive.scope
  have hblank : (cookie.any fun c => !(Str.strip c).isEmpty) = false := by
    cases cookie with
    | none => rfl
    | some c => rw [Option.any_some, hcookie c rfl]; rfl
  have husable := (hstands.usable_iff now.instant hscope).mpr hlive
  have hdigest : SnapshotCredentialVerifier.digest S.platform verifier.pepper raw =
      some entry.digest.value := by
    rw [hpepper, hshape.digest, hstands.digest]
  cases hsubject : SnapshotCredentialVerifier.subjectOf entry <;>
    simp only [SnapshotCredentialVerifier.authenticate, hblank, hscope, hshape.bearer, hnow,
      hshape.selector, Option.bind_some, hlookup, SnapshotCredentialVerifier.accept, husable,
      hdigest, hsubject, not_true_eq_false, ne_eq, Bool.not_true, Bool.false_eq_true, if_false]

/-- A header that is no live token is rejected. -/
theorem rejected_of_other {S : SecurityContext} {R : FieldReader}
    {isoformat : Datetime → Str} {D : DatabaseReads} {body : Entries Str Json}
    {published : List (ClientCredential × Str)} {verifier : SnapshotCredentialVerifier}
    {now : Datetime} {scope : Str} (hissued : ∀ row raw, (row, raw) ∈ published → Issued S row raw)
    (hpublishes : Publishes R isoformat D body (published.map Prod.fst))
    (hbuild : SnapshotCredentialVerifier.build R body S.pepper = some verifier)
    (hforge : Unforgeable S (published.map Prod.snd)) {header : Option Str}
    (hencodable : ∀ h ∈ header, Str.encodable h = true)
    (hother : ∀ row raw, (row, raw) ∈ published → Live row now.instant scope →
      header ≠ some (bearerHeader raw)) (cookie : Option Str) :
    ∃ code, verifier.authenticate S.platform now header scope cookie =
      .error (.rejected code) := by
  unfold SnapshotCredentialVerifier.authenticate
  split
  · exact ⟨_, rfl⟩
  split
  · exact ⟨_, rfl⟩
  rename_i hscope
  rw [not_not] at hscope
  split
  · exact ⟨_, rfl⟩
  rename_i raw hraw
  split
  · exact ⟨_, rfl⟩
  split
  · exact ⟨_, rfl⟩
  rename_i entry hentry
  obtain ⟨selector, -, hlookup⟩ := Option.bind_eq_some_iff.mp hentry
  obtain ⟨row, hrow, hstands⟩ := hpublishes.exists_row hbuild hlookup
  obtain ⟨⟨row, token⟩, hmem, rfl⟩ := List.mem_map.mp hrow
  have hheader := header_of_bearer hraw
  have hrawEncodable : Str.encodable raw = true := by
    have hall := hencodable _ hheader
    rw [Str.encodable, List.all_eq_true] at hall ⊢
    exact fun c hc => hall c (List.mem_append_right _ hc)
  obtain ⟨digest, hdigest⟩ := exists_digest S.platform S.pepper hrawEncodable
  rw [(hpublishes.entries_of_build hbuild).2]
  unfold SnapshotCredentialVerifier.accept
  split
  · exact ⟨_, rfl⟩
  rename_i husable
  rw [Bool.not_eq_true', Bool.not_eq_false, hstands.usable_iff now.instant hscope] at husable
  rw [hdigest]
  dsimp only
  split
  · exact ⟨_, rfl⟩
  rename_i hequal
  exfalso
  rw [ne_eq, not_not] at hequal
  have hsame : raw = token := by
    by_contra hne
    refine hforge token (List.mem_map_of_mem (f := Prod.snd) hmem) raw hne ?_
    rw [hdigest, hequal, hstands.digest, (hissued row token hmem).shape.digest]
  rw [hsame] at hheader
  exact hother row token hmem husable hheader

/-- Issued credentials authenticate, and nothing else does, exactly when the selector of
every live credential starts with a letter or a digit. -/
theorem authenticatesExactly_iff {S : SecurityContext} {R : FieldReader}
    {isoformat : Datetime → Str} {D : DatabaseReads} {body : Entries Str Json}
    {published : List (ClientCredential × Str)} {verifier : SnapshotCredentialVerifier}
    {now : Datetime} {scope : Str} (hissued : ∀ row raw, (row, raw) ∈ published → Issued S row raw)
    (hpublishes : Publishes R isoformat D body (published.map Prod.fst))
    (hbuild : SnapshotCredentialVerifier.build R body S.pepper = some verifier)
    (hnow : now.aware = true) (hforge : Unforgeable S (published.map Prod.snd)) :
    AuthenticatesExactly S.platform verifier published now scope ↔
      ∀ row raw, (row, raw) ∈ published → Live row now.instant scope →
        headAlnum row.selector = true := by
  have hshape (row : ClientCredential) (raw : Str) (hmem : (row, raw) ∈ published) :=
    (hissued row raw hmem).shape
  have hpepper : verifier.pepper = S.pepper := (hpublishes.entries_of_build hbuild).2
  have hrow (row : ClientCredential) (raw : Str) (hmem : (row, raw) ∈ published) :
      row ∈ published.map Prod.fst := List.mem_map_of_mem (f := Prod.fst) hmem
  constructor
  · intro h row raw hmem hlive
    obtain ⟨subject, hsubject, -⟩ := h.issued row raw hmem hlive none nofun
    obtain ⟨entry, hlookup, hstands⟩ := hpublishes.exists_lookup hbuild (hrow row raw hmem)
    rw [authenticate_token (hshape row raw hmem) hpepper hlookup hstands hnow hlive none nofun]
      at hsubject
    rw [← hstands.selector, ← subjectOf_isSome_iff]
    cases hentry : SnapshotCredentialVerifier.subjectOf entry with
    | none =>
        rw [hentry] at hsubject
        cases hsubject
    | some subject => rfl
  · intro hheads
    refine ⟨?_, ?_⟩
    · intro row raw hmem hlive cookie hcookie
      obtain ⟨entry, hlookup, hstands⟩ := hpublishes.exists_lookup hbuild (hrow row raw hmem)
      have hhead := hheads row raw hmem hlive
      rw [← hstands.selector, ← subjectOf_isSome_iff] at hhead
      obtain ⟨subject, hsubject⟩ := Option.isSome_iff_exists.mp hhead
      obtain ⟨hselector, htenant, hscopes⟩ := subject_of_subjectOf hsubject
      refine ⟨subject, ?_, ?_, ?_, fun other => ?_⟩
      · rw [authenticate_token (hshape row raw hmem) hpepper hlookup hstands hnow hlive cookie
          hcookie, hsubject]
      · rw [hselector, hstands.selector]
      · rw [htenant, hstands.selector]
      · rw [hscopes, hstands.scopes]
        exact and_iff_right_of_imp ((hshape row raw hmem).scopes other)
    · intro header hencodable hother cookie
      exact rejected_of_other hissued hpublishes hbuild hforge hencodable hother cookie

section Sample

/-- A draw of zeros after a first byte. -/
def sampleDraw (first : Byte) : TokenDraw :=
  ⟨first :: List.replicate 11 0, List.replicate 32 0, rfl, rfl⟩

/-- The token of such a draw. -/
def sampleToken (first : Byte) : Str :=
  lit "mbc_" ++ Base64.encodeUrl (sampleDraw first).selectorBytes ++
    cp 46 :: Base64.encodeUrl (sampleDraw first).secretBytes

/-- The bytes that are authenticated. -/
def payloadBytes (raw : Str) : Bytes :=
  (Utf8.encode (SnapshotCredentialVerifier.credentialPayload raw)).getD []

/-- A keyed hash with a known value at one message. -/
def hashAt (message value : Bytes) (_ data : Bytes) : Bytes :=
  if data = message then value else List.replicate 32 0

/-- A security context in which the digest of one token is known. -/
def sampleSecurity (raw : Str) (value : Bytes) : SecurityContext :=
  ⟨{ Platform.sample with hmacSha256 := hashAt (payloadBytes raw) value },
    List.replicate 32 112, by decide⟩

theorem unforgeable_sampleSecurity {raw : Str} {value : Bytes}
    (hpayload : Utf8.encode (SnapshotCredentialVerifier.credentialPayload raw) =
      some (payloadBytes raw)) (hvalue : hexText value ≠ hexText (List.replicate 32 0)) :
    Unforgeable (sampleSecurity raw value) [raw] := by
  intro token htoken other hne hsame
  obtain rfl := List.mem_singleton.mp htoken
  have hraw : SnapshotCredentialVerifier.digest (sampleSecurity token value).platform
      (sampleSecurity token value).pepper token = some (hexText value) := by
    rw [SnapshotCredentialVerifier.digest, hpayload]
    exact congrArg (fun data => some (hexText data)) (if_pos rfl)
  rw [hraw] at hsame
  obtain ⟨data, hdata, hsame⟩ := Option.map_eq_some_iff.mp hsame
  have hother : data ≠ payloadBytes token := by
    rintro rfl
    have htexts := (Utf8.decodeWith_encode false hdata).symm.trans
      (Utf8.decodeWith_encode false hpayload)
    refine hne ?_
    exact (List.cons.inj (List.append_cancel_left (Option.some_inj.mp htexts))).2
  have hzero : (sampleSecurity token value).platform.hmacSha256
      (sampleSecurity token value).pepper data = List.replicate 32 0 := if_neg hother
  rw [hzero] at hsame
  exact hvalue hsame.symm

/-- Rows in the order in which they are stored. -/
def storedOrder : DatabaseReads := ⟨id, fun _ => .refl _, fun _ => 0⟩

/-- A body with the credentials alone. -/
def credentialBody (rows : List ClientCredential) : Entries Str Json :=
  [(lit "data_plane_auth", .obj [(lit "entries",
    .arr (dataPlaneAuthEntries sampleLibrary.isoformat storedOrder rows))])]

/-- A row without an expiry. -/
def sampleRow (first : Byte) (value : Bytes) : ClientCredential :=
  ⟨Base64.encodeUrl (sampleDraw first).selectorBytes, lit "client", hexText value,
    [lit "responses:invoke"], none, none⟩

theorem publishes_credentialBody (first : Byte) (value : Bytes) :
    Publishes sampleReader sampleLibrary.isoformat storedOrder
      (credentialBody [sampleRow first value]) [sampleRow first value] := by
  refine ⟨Json.field_cons_self _ _ _, ?_, ?_⟩
  · rintro b b' ⟨⟩
    rfl
  · intro row hrow i hi
    obtain rfl := List.mem_singleton.mp hrow
    cases hi

/-- HMAC-SHA-256 of the token of zeros under the pepper of the sample. -/
def zeroDigest : Bytes :=
  [252, 32, 99, 101, 77, 31, 118, 223, 162, 212, 18, 43, 171, 68, 210, 51, 58, 215, 117, 165,
    241, 104, 251, 18, 249, 201, 131, 85, 185, 119, 88, 149]

/-- HMAC-SHA-256 of the token whose selector starts with a hyphen. -/
def hyphenDigest : Bytes :=
  [118, 66, 149, 42, 55, 245, 203, 106, 25, 20, 176, 193, 226, 43, 5, 248, 46, 219, 20, 13, 56,
    57, 38, 119, 68, 214, 108, 73, 25, 152, 175, 161]

theorem issued_sampleRow {first : Byte} {value : Bytes}
    (h : (CredentialService.issue (sampleSecurity (sampleToken first) value) (lit "client")
      [lit "responses:invoke"] none 0 (sampleDraw first)).toOption =
        some (⟨sampleToken first, (sampleRow first value).selector, lit "client",
          [lit "responses:invoke"], none⟩, sampleRow first value)) :
    Issued (sampleSecurity (sampleToken first) value) (sampleRow first value)
      (sampleToken first) := by
  refine ⟨lit "client", [lit "responses:invoke"], none, 0, sampleDraw first,
    ⟨sampleToken first, (sampleRow first value).selector, lit "client",
      [lit "responses:invoke"], none⟩, sampleRow first value, ?_, rfl, rfl⟩
  cases hissue : CredentialService.issue (sampleSecurity (sampleToken first) value)
      (lit "client") [lit "responses:invoke"] none 0 (sampleDraw first) with
  | error e =>
      rw [hissue] at h
      cases h
  | ok issued =>
      rw [hissue] at h
      rw [Option.some_inj.mp h]

/-- The verifier of a snapshot with the sample row. -/
def sampleVerifier (first : Byte) (value : Bytes) : Option SnapshotCredentialVerifier :=
  SnapshotCredentialVerifier.build sampleReader (credentialBody [sampleRow first value])
    (sampleSecurity (sampleToken first) value).pepper

theorem authenticatesExactly_iff_zeros : ∃ verifier, sampleVerifier 0 zeroDigest = some verifier ∧
    (AuthenticatesExactly (sampleSecurity (sampleToken 0) zeroDigest).platform verifier
        [(sampleRow 0 zeroDigest, sampleToken 0)] ⟨1, some 0⟩ (lit "responses:invoke") ↔
      ∀ row raw, (row, raw) ∈ [(sampleRow 0 zeroDigest, sampleToken 0)] →
        Live row 1 (lit "responses:invoke") → headAlnum row.selector = true) := by
  have hsome : (sampleVerifier 0 zeroDigest).isSome = true := by decide +kernel
  obtain ⟨verifier, hverifier⟩ := Option.isSome_iff_exists.mp hsome
  refine ⟨verifier, hverifier, ?_⟩
  apply authenticatesExactly_iff ?_ (publishes_credentialBody 0 zeroDigest) hverifier rfl
    (unforgeable_sampleSecurity (by decide +kernel) (by decide +kernel))
  intro row raw hmem
  cases List.mem_singleton.mp hmem
  exact issued_sampleRow (by decide +kernel)

/-- The token with a hyphen first is issued and live, and `authenticate` raises an error of
its own for it. -/
theorem hyphen_token_fails : ∃ verifier, sampleVerifier 0xF8 hyphenDigest = some verifier ∧
    Issued (sampleSecurity (sampleToken 0xF8) hyphenDigest) (sampleRow 0xF8 hyphenDigest)
      (sampleToken 0xF8) ∧
    ¬ AuthenticatesExactly (sampleSecurity (sampleToken 0xF8) hyphenDigest).platform verifier
      [(sampleRow 0xF8 hyphenDigest, sampleToken 0xF8)] ⟨1, some 0⟩ (lit "responses:invoke") := by
  have hany : (sampleVerifier 0xF8 hyphenDigest).any (fun verifier =>
      !(verifier.authenticate (sampleSecurity (sampleToken 0xF8) hyphenDigest).platform
        ⟨1, some 0⟩ (some (bearerHeader (sampleToken 0xF8))) (lit "responses:invoke")
        none).isOk) = true := by decide +kernel
  obtain ⟨verifier, hverifier, hfails⟩ := (Option.any_eq_true _ _).mp hany
  refine ⟨verifier, hverifier, issued_sampleRow (by decide +kernel), fun h => ?_⟩
  have hlive : Live (sampleRow 0xF8 hyphenDigest) 1 (lit "responses:invoke") :=
    ⟨rfl, nofun, List.mem_singleton_self _⟩
  obtain ⟨subject, hsubject, -⟩ := h.issued _ _ (List.mem_singleton_self _) hlive none nofun
  rw [hsubject] at hfails
  cases hfails

end Sample

end MediaBridge.Control
