import MediaBridge.Foundation.JsonVerbatim
import MediaBridge.Foundation.JsonSize
import MediaBridge.Gateway.SnapshotRuntime

/-!
# Signing snapshots

`SnapshotSigner.sign` of `media_bridge_control/snapshots.py`, the file that
`SnapshotPublisher` writes, and what `SnapshotVerifier` makes of it and of other documents.

## Implementation notes

The private key and how the validation library writes a model are parameters. That Ed25519
cannot be forged is a condition on the document that is verified: a signature in it that is
valid is valid for the message that was signed.
-/

namespace MediaBridge.Control.SnapshotSigning

open Foundation MediaBridge.Core MediaBridge.Core.ConfigSnapshot

section Signing

/-- Why no snapshot is signed. -/
inductive SigningError
  /-- The `ValueError` for a forbidden body. -/
  | forbiddenBody
  /-- The `SnapshotVerificationError` for what has no canonical form. -/
  | notCanonical
  /-- The `ValidationError`. -/
  | invalid
  | recursionError
deriving DecidableEq

/-- `SnapshotSigner`; the key is what it signs with. -/
structure SnapshotSigner where
  keyId : Str
  publicKey : Bytes
  key : Bytes → Bytes
  key_length : ∀ message, (key message).length = 64
  keyId_filled : keyId ≠ []
  keyId_length : keyId.length ≤ 64

/-- An encoded signature passes the check of its field. -/
theorem valid_signature {data : Bytes} (h : data.length = 64) :
    Constrained.Valid 94 snapshotSignaturePattern (lit "ed25519:" ++ Base64.encodeUrl data) := by
  have hlength : (Base64.encodeUrl data).length = 86 := by
    have hlen := Base64.encodeUrl_length data
    rw [h] at hlen
    have hpad : Base64.padCount 64 = 2 := by decide
    omega
  have hletters : ∀ c ∈ Base64.encodeUrl data, urlSafeChar c = true :=
    Base64.forall_mem_encodeUrl (by decide) data
  have hascii : ∀ c ∈ Base64.encodeUrl data, c.isAscii = true :=
    Base64.forall_mem_encodeUrl (by decide) data
  have hdrop : (lit "ed25519:" ++ Base64.encodeUrl data).drop 8 = Base64.encodeUrl data :=
    List.drop_left' (by decide)
  refine ⟨?_, ?_, ?_⟩
  · exact Str.encodable_append.mpr ⟨by decide, Str.encodable_of_ascii hascii⟩
  · rw [List.length_append, hlength]
    decide
  · rw [snapshotSignaturePattern, hdrop, hlength, List.all_eq_true.mpr hletters, Bool.and_true,
      decide_eq_true rfl, Bool.and_true, Str.startsWith_iff]
    exact List.prefix_append _ _

def signatureText (data : Bytes) (h : data.length = 64) :
    Constrained 94 snapshotSignaturePattern :=
  ⟨_, (valid_signature h).1, (valid_signature h).2.1, (valid_signature h).2.2⟩

theorem encodable_blank :
    Str.encodable (lit "ed25519:" ++ List.replicate 86 (cp 65)) = true := by decide

theorem length_blank : (lit "ed25519:" ++ List.replicate 86 (cp 65)).length ≤ 94 := by decide

theorem accepted_blank :
    snapshotSignaturePattern (lit "ed25519:" ++ List.replicate 86 (cp 65)) = true := by decide

/-- The signature of a snapshot that is not signed yet. -/
def blankSignature : Constrained 94 snapshotSignaturePattern :=
  ⟨lit "ed25519:" ++ List.replicate 86 (cp 65), encodable_blank, length_blank, accepted_blank⟩

variable (L : SnapshotLibrary) (signer : SnapshotSigner)

/-- The snapshot before it is signed. -/
def SnapshotSigner.unsigned (snapshotId : Str) (version : Int) (issuedAt : Datetime)
    (body : Entries Str Json) : Except SigningError SignedSnapshot :=
  match validateBody L L.stack (.obj body) with
  | .error (.rejected _) => .error .forbiddenBody
  | .error _ => .error .recursionError
  | .ok () =>
      match snapshotDigest L body with
      | .error (.rejected _) => .error .notCanonical
      | .error _ => .error .recursionError
      | .ok digest =>
          match Constrained.validate 71 snapshotDigestPattern digest,
            Constrained.validate 64 keyIdPattern signer.keyId with
          | some digest, some keyId =>
              if hversion : 1 ≤ version then
                if haware : issuedAt.aware = true then
                  .ok ⟨snapshotId, version, issuedAt, body, digest, blankSignature, keyId, hversion,
                    haware⟩
                else .error .invalid
              else .error .invalid
          | _, _ => .error .invalid

/-- `SnapshotSigner.sign`. -/
def SnapshotSigner.sign (snapshotId : Str) (version : Int) (issuedAt : Datetime)
    (body : Entries Str Json) : Except SigningError SignedSnapshot := do
  let unsigned ← signer.unsigned L snapshotId version issuedAt body
  match signatureMessage L unsigned with
  | none => .error .notCanonical
  | some message =>
      .ok { unsigned with
        signature := signatureText (signer.key message) (signer.key_length message) }

/-- What a signed snapshot is. -/
structure Envelope (s : SignedSnapshot) : Prop where
  keyId : s.keyId.value = signer.keyId
  checked : validateBody L L.stack (.obj s.body) = .ok ()
  digest : snapshotDigest L s.body = .ok s.digest.value
  signature : ∃ message, signatureMessage L s = some message ∧
    s.signature.value = lit "ed25519:" ++ Base64.encodeUrl (signer.key message)

variable {L signer} {snapshotId : Str} {version : Int} {issuedAt : Datetime}
  {body : Entries Str Json} {s : SignedSnapshot}

theorem envelope_of_sign (h : signer.sign L snapshotId version issuedAt body = .ok s) :
    Envelope L signer s ∧ s.snapshotId = snapshotId ∧ s.version = version ∧
      s.issuedAt = issuedAt ∧ s.body = body := by
  obtain ⟨unsigned, hunsigned, h⟩ := ok_of_bind h
  unfold SnapshotSigner.unsigned at hunsigned
  split at hunsigned
  · cases hunsigned
  · cases hunsigned
  · next hchecked =>
      split at hunsigned
      · cases hunsigned
      · cases hunsigned
      · next digest hdigest =>
          split at hunsigned
          · next digest' keyId hvalid hkeyId =>
              split at hunsigned
              · split at hunsigned
                · cases hunsigned
                  split at h
                  · cases h
                  · next message hmessage =>
                      cases h
                      refine ⟨⟨Constrained.value_of_validate hkeyId, hchecked, ?_, message, ?_,
                        rfl⟩, rfl, rfl, rfl, rfl⟩
                      · rw [hdigest, Constrained.value_of_validate hvalid]
                      · exact hmessage
                · cases hunsigned
              · cases hunsigned
          · cases hunsigned

end Signing

section Canonical

variable {L : SnapshotLibrary} {s t : SignedSnapshot} {v w : Json} {data : Bytes}

/-- What has a canonical form has a text that can be encoded. -/
theorem encoded_of_canonicalJson (h : canonicalJson L v = some data) :
    JsonText.Encoded L.platform.float ⟨false, true, false⟩ v := by
  obtain ⟨text, htext, hdata⟩ := Option.bind_eq_some_iff.mp h
  refine ⟨text, htext, ?_⟩
  unfold Utf8.encode at hdata
  split at hdata
  · assumption
  · cases hdata

/-- The canonical form is a function of the value up to the order of its keys, and no other value
has it. -/
theorem sorted_eq_of_canonicalJson (hF : L.platform.float.Faithful) (hv : v.WellFormed)
    (hw : w.WellFormed) (hvdata : canonicalJson L v = some data)
    (hwdata : canonicalJson L w = some data) : v.sorted = w.sorted := by
  have hv := JsonText.verbatim_of_encoded rfl rfl hv (encoded_of_canonicalJson hvdata)
  have hw := JsonText.verbatim_of_encoded rfl rfl hw (encoded_of_canonicalJson hwdata)
  obtain ⟨vtext, hvtext, hvdata⟩ := Option.bind_eq_some_iff.mp hvdata
  obtain ⟨wtext, hwtext, hwdata⟩ := Option.bind_eq_some_iff.mp hwdata
  have htext : vtext = wtext := by
    have hvback := Utf8.decodeWith_encode true hvdata
    rw [Utf8.decodeWith_encode true hwdata] at hvback
    exact (Option.some.inj hvback).symm
  subst htext
  exact hv.sorted_eq_of_dumps hF rfl hw hvtext hwtext

/-- The same in everything that is signed; a body up to the order of its keys, and a time as it is
printed. -/
structure SameSigned (L : SnapshotLibrary) (s t : SignedSnapshot) : Prop where
  snapshotId : t.snapshotId = s.snapshotId
  version : t.version = s.version
  issuedAt : L.isoformat t.issuedAt = L.isoformat s.issuedAt
  body : (Json.obj t.body).sorted = (Json.obj s.body).sorted
  digest : t.digest.value = s.digest.value
  keyId : t.keyId.value = s.keyId.value

theorem wellFormed_signedFields (h : (Json.obj s.body).WellFormed) :
    (signedFields L s).WellFormed := by
  rw [signedFields, Json.WellFormed]
  refine ⟨?_, trivial, trivial, trivial, trivial, h, trivial, trivial, trivial⟩
  change ([lit "schema", lit "snapshot_id", lit "version", lit "issued_at", lit "body",
    lit "digest", lit "key_id"] : List Str).Nodup
  decide

/-- One message is signed for one snapshot. -/
theorem sameSigned_of_message (hF : L.platform.float.Faithful)
    (hs : (Json.obj s.body).WellFormed) (ht : (Json.obj t.body).WellFormed)
    (hsmessage : signatureMessage L s = some data) (htmessage : signatureMessage L t = some data) :
    SameSigned L s t := by
  have hsorted := sorted_eq_of_canonicalJson hF (wellFormed_signedFields ht)
    (wellFormed_signedFields hs) htmessage hsmessage
  have hnodup (u : SignedSnapshot) (hu : (signedFields L u).WellFormed) :
      ∃ fields, signedFields L u = .obj fields ∧ (Entries.keys fields).Nodup := by
    rw [signedFields, Json.WellFormed] at hu
    exact ⟨_, rfl, hu.1⟩
  obtain ⟨tfields, htfields, htnodup⟩ := hnodup t (wellFormed_signedFields ht)
  obtain ⟨sfields, hsfields, hsnodup⟩ := hnodup s (wellFormed_signedFields hs)
  rw [htfields, hsfields] at hsorted
  have hfield := Json.field_of_sorted_eq hsorted htnodup hsnodup
  cases htfields
  cases hsfields
  have hid : (Json.str t.snapshotId).sorted = (Json.str s.snapshotId).sorted := hfield "snapshot_id"
  have hversion : (Json.int t.version).sorted = (Json.int s.version).sorted := hfield "version"
  have hissued : (Json.str (L.isoformat t.issuedAt)).sorted =
    (Json.str (L.isoformat s.issuedAt)).sorted := hfield "issued_at"
  have hbody : (Json.obj t.body).sorted = (Json.obj s.body).sorted := hfield "body"
  have hdigest : (Json.str t.digest.value).sorted = (Json.str s.digest.value).sorted :=
    hfield "digest"
  have hkeyId : (Json.str t.keyId.value).sorted = (Json.str s.keyId.value).sorted :=
    hfield "key_id"
  simp only [Json.sorted_str, Json.sorted_int, Json.str.injEq, Json.int.injEq]
    at hid hversion hissued hdigest hkeyId
  exact ⟨hid, hversion, hissued, hbody, hdigest, hkeyId⟩

end Canonical

section Verification

variable {L : SnapshotLibrary} {keys : Verifier} {s t : SignedSnapshot} {payload : Json}

/-- What is verified is what is read. -/
theorem eq_of_checkSnapshot (h : checkSnapshot L keys s = .ok t) : t = s := by
  obtain ⟨-, -, h⟩ := ok_of_bind h
  obtain ⟨digest, -, h⟩ := ok_of_bind h
  split at h
  · cases h
  · split at h
    · cases h
    · split at h
      · cases h
      · split at h
        · cases h
        · split at h
          · cases h
            rfl
          · cases h

/-- A verified snapshot has a valid signature by a known key. -/
theorem signature_of_checkSnapshot (h : checkSnapshot L keys s = .ok t) :
    ∃ key signature message, Entries.get? keys s.keyId.value = some key ∧
      decodeSignature s.signature.value = some signature ∧
      signatureMessage L s = some message ∧ L.ed25519Verify key signature message = true := by
  obtain ⟨-, -, h⟩ := ok_of_bind h
  obtain ⟨digest, -, h⟩ := ok_of_bind h
  split at h
  · cases h
  · split at h
    · cases h
    · next key hkey =>
        split at h
        · cases h
        · next signature hsignature =>
            split at h
            · cases h
            · next message hmessage =>
                split at h
                · next hvalid =>
                    exact ⟨key, signature, message, hkey, hsignature, hmessage, hvalid⟩
                · cases h

/-- The `SnapshotVerificationError`. -/
def own : VerificationError → Bool
  | .rejected _ => true
  | _ => false

theorem exists_rejected {e : VerificationError} (h : own e = true) :
    ∃ message, e = .rejected message := by
  cases e with
  | rejected message => exact ⟨message, rfl⟩
  | valueError => cases h
  | recursionError => cases h

/-- The check of a body is the only check of a snapshot that raises another exception. -/
theorem checkSnapshot_error {e : VerificationError} (h : checkSnapshot L keys s = .error e) :
    own e = true ∨ validateBody L L.stack (.obj s.body) = .error e := by
  rcases bind_error_iff.mp h with h | ⟨-, -, h⟩
  · exact .inr h
  · rcases bind_error_iff.mp h with h | ⟨digest, -, h⟩
    · rcases bind_error_iff.mp h with h | ⟨-, -, h⟩
      · exact .inr h
      · split at h
        · cases h
          exact .inl rfl
        · cases h
    · left
      split at h
      · cases h
        rfl
      · split at h
        · cases h
          rfl
        · split at h
          · cases h
            rfl
          · split at h
            · cases h
              rfl
            · split at h
              · cases h
              · cases h
                rfl

/-- The snapshot that a document is read as. -/
def ReadAs (L : SnapshotLibrary) (doc : Str) (t : SignedSnapshot) : Prop :=
  ∃ payload, JsonText.loads L.platform.float L.platform.jsonDepth doc = .ok payload ∧
    readSnapshot L payload = some t

/-- A document makes the verifier raise an exception that is not its own: it cannot be encoded, or
within the limit a number is too long or the nesting is too deep. -/
def Escapes (L : SnapshotLibrary) (doc : Str) : Prop :=
  doc.encodable = false ∨ doc.encodable = true ∧ Utf8.size doc ≤ maxSnapshotBytes ∧
    (JsonText.loads L.platform.float L.platform.jsonDepth doc = .error .intTooLong ∨
      JsonText.loads L.platform.float L.platform.jsonDepth doc = .error .recursion ∨
        ∃ t e, ReadAs L doc t ∧ validateBody L L.stack (.obj t.body) = .error e ∧ own e = false)

theorem encode_eq_some {doc : Str} (h : doc.encodable = true) :
    Utf8.encode doc = some (doc.flatMap Utf8.encodePoint) := if_pos h

/-- A document of the right size is verified by what it is read as. -/
theorem verifyJson_of_size {doc : Str} (hdoc : doc.encodable = true)
    (hsize : Utf8.size doc ≤ maxSnapshotBytes) :
    verifyJson L keys doc =
      match JsonText.loads L.platform.float L.platform.jsonDepth doc with
      | .error .decode => .error (.rejected "snapshot JSON is invalid")
      | .error .intTooLong => .error .valueError
      | .error .recursion => .error .recursionError
      | .ok payload => verifyObject L keys payload := by
  rw [verifyJson, encode_eq_some hdoc]
  exact if_neg (not_lt.mpr hsize)

/-- What is verified is within the limit, and what the document is read as. -/
theorem exists_of_verifyJson {doc : Str} (h : verifyJson L keys doc = .ok t) :
    doc.encodable = true ∧ Utf8.size doc ≤ maxSnapshotBytes ∧ ReadAs L doc t ∧
      checkSnapshot L keys t = .ok t := by
  by_cases hdoc : doc.encodable = true
  · by_cases hsize : Utf8.size doc ≤ maxSnapshotBytes
    · rw [verifyJson_of_size hdoc hsize] at h
      refine ⟨hdoc, hsize, ?_⟩
      split at h
      · cases h
      · cases h
      · cases h
      · next payload hpayload =>
          unfold verifyObject at h
          split at h
          · cases h
          · next u hu =>
              cases eq_of_checkSnapshot h
              exact ⟨⟨payload, hpayload, hu⟩, h⟩
    · rw [verifyJson, encode_eq_some hdoc] at h
      change (if maxSnapshotBytes < Utf8.size doc then _ else _) = _ at h
      rw [if_pos (not_le.mp hsize)] at h
      cases h
  · rw [verifyJson, Utf8.encode, if_neg hdoc] at h
    cases h

/-- The verifier raises another exception exactly for a document that escapes it. -/
theorem escapes_iff (keys : Verifier) {doc : Str} :
    Escapes L doc ↔ ∃ e, verifyJson L keys doc = .error e ∧ own e = false := by
  constructor
  · rintro (hdoc | ⟨hdoc, hsize, h⟩)
    · refine ⟨.valueError, ?_, rfl⟩
      rw [verifyJson, Utf8.encode, if_neg (Bool.eq_false_iff.mp hdoc)]
    · rw [verifyJson_of_size hdoc hsize]
      rcases h with h | h | ⟨t, e, ⟨payload, hpayload, ht⟩, he, hown⟩
      · exact ⟨.valueError, by rw [h], rfl⟩
      · exact ⟨.recursionError, by rw [h], rfl⟩
      · refine ⟨e, ?_, hown⟩
        rw [hpayload]
        simp only [verifyObject, ht]
        exact bind_error_iff.mpr (.inl he)
  · rintro ⟨e, h, hown⟩
    by_cases hdoc : doc.encodable = true
    · by_cases hsize : Utf8.size doc ≤ maxSnapshotBytes
      · refine .inr ⟨hdoc, hsize, ?_⟩
        rw [verifyJson_of_size hdoc hsize] at h
        split at h
        · cases h
          cases hown
        · next hloads => exact .inl hloads
        · next hloads => exact .inr (.inl hloads)
        · next payload hpayload =>
            unfold verifyObject at h
            split at h
            · cases h
              cases hown
            · next t ht =>
                rcases checkSnapshot_error h with hrejected | hbody
                · rw [hrejected] at hown
                  cases hown
                · exact .inr (.inr ⟨t, e, ⟨payload, hpayload, ht⟩, hbody, hown⟩)
      · rw [verifyJson, encode_eq_some hdoc] at h
        change (if maxSnapshotBytes < Utf8.size doc then _ else _) = _ at h
        rw [if_pos (not_le.mp hsize)] at h
        cases h
        cases hown
    · exact .inl (Bool.eq_false_iff.mpr hdoc)

end Verification

section Documents

variable {L : SnapshotLibrary} {keys : Verifier} {s t : SignedSnapshot} {payload : Json}
  {printed : Datetime → Str}

/-- The entries of the document of a snapshot. -/
def documentFields (printed : Datetime → Str) (s : SignedSnapshot) : Entries Str Json :=
  [(lit "schema", .str schemaName), (lit "snapshot_id", .str s.snapshotId),
    (lit "version", .int s.version), (lit "issued_at", .str (printed s.issuedAt)),
    (lit "body", .obj s.body), (lit "digest", .str s.digest.value),
    (lit "signature", .str s.signature.value), (lit "key_id", .str s.keyId.value)]

/-- How the validation library writes a snapshot. -/
structure SnapshotWriter (L : SnapshotLibrary) where
  /-- A `datetime` in JSON. -/
  printed : Datetime → Str
  /-- The text of `snapshot.model_dump_json()`. -/
  modelDumpJson : SignedSnapshot → Str
  /-- How many containers inside one another it writes before it raises. -/
  nesting : Nat
  encodable : ∀ s, (signatureMessage L s).isSome = true → (printed s.issuedAt).encodable = true →
    (modelDumpJson s).encodable = true
  printable : ∀ s, (signatureMessage L s).isSome = true → (Json.obj s.body).WellFormed →
    ∀ c ∈ modelDumpJson s, 32 ≤ c.val
  reads : ∀ s, (signatureMessage L s).isSome = true → (Json.obj s.body).WellFormed →
    (printed s.issuedAt).encodable = true →
    (Json.obj (documentFields printed s)).depth ≤ L.platform.jsonDepth →
    JsonText.loads L.platform.float L.platform.jsonDepth (modelDumpJson s) =
      .ok (.obj (documentFields printed s))

/-- The text of the file; `none` is the `ValueError` of the serializer. -/
def SnapshotWriter.file {L : SnapshotLibrary} (W : SnapshotWriter L) (s : SignedSnapshot) :
    Option Str :=
  if (Json.obj s.body).depth + 1 ≤ W.nesting then some (W.modelDumpJson s) else none

/-- The fields of a snapshot are read as they were written. -/
structure FieldsBack (L : SnapshotLibrary) (printed : Datetime → Str) (s : SignedSnapshot) :
    Prop where
  snapshotId : L.reader.uuid (.str s.snapshotId) = some s.snapshotId
  version : L.reader.integer (.int s.version) = some s.version
  issuedAt : L.reader.datetime (.str (printed s.issuedAt)) = some s.issuedAt
  encodable : (printed s.issuedAt).encodable = true

theorem readSnapshot_document (h : FieldsBack L printed s) :
    readSnapshot L (.obj (documentFields printed s)) = some s := by
  have hkeys : Json.keysWithin (documentFields printed s) fieldNames = true := rfl
  have hschema : (Json.field (documentFields printed s) "schema").isLit
    "media-bridge-config/v1" = true := rfl
  have hid : Entries.get? (documentFields printed s) (lit "snapshot_id") =
    some (.str s.snapshotId) := rfl
  have hversion : Entries.get? (documentFields printed s) (lit "version") =
    some (.int s.version) := rfl
  have hissued : Entries.get? (documentFields printed s) (lit "issued_at") =
    some (.str (printed s.issuedAt)) := rfl
  have hbody : Json.field (documentFields printed s) "body" = .obj s.body := rfl
  have hdigest : Json.field (documentFields printed s) "digest" = .str s.digest.value := rfl
  have hsignature : Json.field (documentFields printed s) "signature" =
    .str s.signature.value := rfl
  have hkeyId : Json.field (documentFields printed s) "key_id" = .str s.keyId.value := rfl
  unfold readSnapshot
  refine Option.bind_eq_some_iff.mpr ⟨documentFields printed s, rfl, ?_⟩
  rw [hkeys, hschema, hbody, hdigest, hsignature, hkeyId, Bool.not_true,
    if_neg Bool.false_ne_true, if_neg Bool.false_ne_true]
  refine Option.bind_eq_some_iff.mpr ⟨_, hid, Option.bind_eq_some_iff.mpr ⟨_, h.snapshotId, ?_⟩⟩
  refine Option.bind_eq_some_iff.mpr ⟨_, hversion, Option.bind_eq_some_iff.mpr ⟨_, h.version, ?_⟩⟩
  refine Option.bind_eq_some_iff.mpr ⟨_, hissued, Option.bind_eq_some_iff.mpr ⟨_, h.issuedAt, ?_⟩⟩
  refine Option.bind_eq_some_iff.mpr ⟨_, rfl, ?_⟩
  refine Option.bind_eq_some_iff.mpr ⟨_, rfl, ?_⟩
  refine Option.bind_eq_some_iff.mpr ⟨_, Constrained.validate_value _, ?_⟩
  refine Option.bind_eq_some_iff.mpr ⟨_, rfl, ?_⟩
  refine Option.bind_eq_some_iff.mpr ⟨_, Constrained.validate_value _, ?_⟩
  refine Option.bind_eq_some_iff.mpr ⟨_, rfl, ?_⟩
  refine Option.bind_eq_some_iff.mpr ⟨_, Constrained.validate_value _, ?_⟩
  exact dif_pos ⟨s.version_pos, s.issued_aware⟩

theorem eq_of_obj? {v : Json} {fields : Entries Str Json} (h : v.obj? = some fields) :
    v = .obj fields := by
  cases v with
  | obj => exact congrArg Json.obj (Option.some.inj h)
  | null => cases h
  | bool b => cases h
  | int n => cases h
  | float bits => cases h
  | str s => cases h
  | arr items => cases h

theorem body_of_readSnapshot (h : readSnapshot L payload = some t) :
    ∃ fields, payload = .obj fields ∧ (lit "body", .obj t.body) ∈ fields := by
  obtain ⟨fields, hfields, h⟩ := Option.bind_eq_some_iff.mp h
  refine ⟨fields, eq_of_obj? hfields, ?_⟩
  split at h
  · cases h
  · split at h
    · cases h
    · obtain ⟨snapshotId, -, h⟩ := Option.bind_eq_some_iff.mp h
      obtain ⟨snapshotId, -, h⟩ := Option.bind_eq_some_iff.mp h
      obtain ⟨version, -, h⟩ := Option.bind_eq_some_iff.mp h
      obtain ⟨version, -, h⟩ := Option.bind_eq_some_iff.mp h
      obtain ⟨issuedAt, -, h⟩ := Option.bind_eq_some_iff.mp h
      obtain ⟨issuedAt, -, h⟩ := Option.bind_eq_some_iff.mp h
      obtain ⟨body, hbody, h⟩ := Option.bind_eq_some_iff.mp h
      obtain ⟨digest, -, h⟩ := Option.bind_eq_some_iff.mp h
      obtain ⟨digest, -, h⟩ := Option.bind_eq_some_iff.mp h
      obtain ⟨signature, -, h⟩ := Option.bind_eq_some_iff.mp h
      obtain ⟨signature, -, h⟩ := Option.bind_eq_some_iff.mp h
      obtain ⟨keyId, -, h⟩ := Option.bind_eq_some_iff.mp h
      obtain ⟨keyId, -, h⟩ := Option.bind_eq_some_iff.mp h
      split at h
      · cases h
        have hfield := eq_of_obj? hbody
        apply Entries.mem_of_get?
        rw [Json.field] at hfield
        cases hget : Entries.get? fields (lit "body") with
        | none => rw [hget] at hfield; cases hfield
        | some v => rw [hget] at hfield; exact congrArg some hfield
      · cases h

theorem depth_documentFields :
    (Json.obj (documentFields printed s)).depth = (Json.obj s.body).depth + 1 := by
  simp only [documentFields, Json.depth, Json.depthFields]
  omega

/-- What a document is read as has a body with unique keys, nested less than the document. -/
theorem ReadAs.body {doc : Str} (hF : L.platform.float.Faithful) (hdoc : doc.encodable = true)
    (h : ReadAs L doc t) : (Json.obj t.body).WellFormed ∧
      (Json.obj t.body).depth + 1 ≤ L.platform.jsonDepth := by
  obtain ⟨payload, hpayload, ht⟩ := h
  obtain ⟨hreadable, hdepth⟩ := JsonText.readable_of_loads hF hdoc hpayload
  obtain ⟨fields, rfl, hmem⟩ := body_of_readSnapshot ht
  have hwell := hreadable.wellFormed
  rw [Json.WellFormed] at hwell
  refine ⟨Json.wellFormedFields_of_mem hwell.2 _ hmem, ?_⟩
  have hle := Json.depth_le_of_mem_fields hmem
  rw [Json.depth] at hdepth
  exact (Nat.succ_le_succ hle).trans hdepth

end Documents

section Results

variable {L : SnapshotLibrary} {keys : Verifier} {signer : SnapshotSigner} {s : SignedSnapshot}

/-- The text of the file is written, and verified as the snapshot. -/
def RoundTrips (L : SnapshotLibrary) (keys : Verifier) (W : SnapshotWriter L)
    (s : SignedSnapshot) : Prop :=
  ∃ text, W.file s = some text ∧ verifyJson L keys (Str.universalNewlines text) = .ok s

/-- A document that is not read as the same signed fields is rejected by the verifier. -/
def ResistsChange (L : SnapshotLibrary) (keys : Verifier) (s : SignedSnapshot) (doc : Str) : Prop :=
  (¬ ∃ t, ReadAs L doc t ∧ SameSigned L s t) →
    ∃ message, verifyJson L keys doc = .error (.rejected message)

/-- The file is within the limits of the serializer, the verifier and the decoder. -/
structure Fits (L : SnapshotLibrary) (W : SnapshotWriter L) (s : SignedSnapshot) : Prop where
  nesting_le : (Json.obj s.body).depth + 1 ≤ W.nesting
  size_le : Utf8.size (W.modelDumpJson s) ≤ maxSnapshotBytes
  depth_le : (Json.obj s.body).depth + 1 ≤ L.platform.jsonDepth

/-- The signature in a document is valid only for the message that was signed. -/
def Unforged (L : SnapshotLibrary) (keys : Verifier) (s : SignedSnapshot) (doc : Str) : Prop :=
  ∀ t key signature message, ReadAs L doc t → Entries.get? keys t.keyId.value = some key →
    decodeSignature t.signature.value = some signature → signatureMessage L t = some message →
      L.ed25519Verify key signature message = true → signatureMessage L s = some message

/-- The verifier has the public key of a signer, and accepts what its private key signs. -/
structure Trusts (L : SnapshotLibrary) (keys : Verifier) (signer : SnapshotSigner) : Prop where
  known : Entries.get? keys signer.keyId = some signer.publicKey
  valid : ∀ message, L.ed25519Verify signer.publicKey (signer.key message) message = true

/-- A signed snapshot passes the checks of the verifier. -/
theorem checkSnapshot_envelope (h : Envelope L signer s) (htrusts : Trusts L keys signer) :
    checkSnapshot L keys s = .ok s := by
  obtain ⟨message, hmessage, hsignature⟩ := h.signature
  have hdecoded : decodeSignature s.signature.value = some (signer.key message) := by
    have hdrop : (lit "ed25519:" ++ Base64.encodeUrl (signer.key message)).drop 8 =
      Base64.encodeUrl (signer.key message) := List.drop_left' (by decide)
    rw [hsignature, decodeSignature, hdrop, Base64.decodeUrl_encodeUrl]
  have hkey : Entries.get? keys s.keyId.value = some signer.publicKey := by
    rw [h.keyId, htrusts.known]
  refine bind_ok_iff.mpr ⟨(), h.checked, bind_ok_iff.mpr ⟨_, h.digest, ?_⟩⟩
  simp only [ne_eq, not_true_eq_false, if_false, hkey, hdecoded, hmessage, htrusts.valid, if_true]

/-- The file of a signed snapshot is verified exactly when it fits. -/
theorem roundTrips_iff {W : SnapshotWriter L} (hF : L.platform.float.Faithful)
    (h : Envelope L signer s) (htrusts : Trusts L keys signer)
    (hbody : (Json.obj s.body).WellFormed) (hfields : FieldsBack L W.printed s) :
    RoundTrips L keys W s ↔ Fits L W s := by
  obtain ⟨message, hmessage, -⟩ := h.signature
  have hsome : (signatureMessage L s).isSome = true := by
    rw [hmessage]
    rfl
  have hencodable := W.encodable s hsome hfields.encodable
  have hnewlines : Str.universalNewlines (W.modelDumpJson s) = W.modelDumpJson s := by
    apply Str.universalNewlines_eq_self
    intro c hc heq
    have hle := W.printable s hsome hbody c hc
    rw [heq] at hle
    revert hle
    decide
  constructor
  · rintro ⟨text, hfile, hverified⟩
    unfold SnapshotWriter.file at hfile
    split_ifs at hfile with hnesting
    cases hfile
    rw [hnewlines] at hverified
    obtain ⟨-, hsize, hread, -⟩ := exists_of_verifyJson hverified
    exact ⟨hnesting, hsize, (hread.body hF hencodable).2⟩
  · intro hfits
    refine ⟨_, if_pos hfits.nesting_le, ?_⟩
    rw [hnewlines]
    have hloads := W.reads s hsome hbody hfields.encodable
      (depth_documentFields.trans_le hfits.depth_le)
    rw [verifyJson_of_size hencodable hfits.size_le, hloads]
    simp only [verifyObject, readSnapshot_document hfields, checkSnapshot_envelope h htrusts]

/-- A document is resisted exactly when it does not escape the verifier. -/
theorem resistsChange_iff (hF : L.platform.float.Faithful) {doc : Str}
    (hbody : (Json.obj s.body).WellFormed) (hunforged : Unforged L keys s doc) :
    ResistsChange L keys s doc ↔
      ((¬ ∃ t, ReadAs L doc t ∧ SameSigned L s t) → ¬ Escapes L doc) := by
  apply imp_congr_right
  intro hdiffers
  rw [escapes_iff keys]
  constructor
  · rintro ⟨message, hrejected⟩ ⟨e, he, hown⟩
    rw [hrejected] at he
    cases he
    cases hown
  · intro hown
    cases hverified : verifyJson L keys doc with
    | ok t =>
        obtain ⟨hdoc, -, hread, hchecked⟩ := exists_of_verifyJson hverified
        obtain ⟨key, signature, message, hkey, hsignature, hmessage, hvalid⟩ :=
          signature_of_checkSnapshot hchecked
        have hsigned := hunforged t key signature message hread hkey hsignature hmessage hvalid
        exact absurd ⟨t, hread, sameSigned_of_message hF hbody (hread.body hF hdoc).1 hsigned
          hmessage⟩ hdiffers
    | error e =>
        cases hrejected : own e with
        | true =>
            obtain ⟨message, rfl⟩ := exists_rejected hrejected
            exact ⟨message, rfl⟩
        | false => exact absurd ⟨e, hverified, hrejected⟩ hown

/-- A signed snapshot comes back from its file and a changed document is rejected exactly when the
file fits and the document does not escape the verifier. -/
theorem snapshot_holds_iff {W : SnapshotWriter L} {snapshotId : Str} {version : Int}
    {issuedAt : Datetime} {body : Entries Str Json} {doc : Str}
    (hF : L.platform.float.Faithful) (hbody : (Json.obj body).WellFormed)
    (hsigned : signer.sign L snapshotId version issuedAt body = .ok s)
    (hfields : FieldsBack L W.printed s) (htrusts : Trusts L keys signer)
    (hunforged : Unforged L keys s doc) :
    s.body = body ∧ s.version = version ∧ s.snapshotId = snapshotId ∧ s.issuedAt = issuedAt ∧
      ((RoundTrips L keys W s ∧ ResistsChange L keys s doc) ↔
        Fits L W s ∧ ((¬ ∃ t, ReadAs L doc t ∧ SameSigned L s t) → ¬ Escapes L doc)) := by
  obtain ⟨henvelope, rfl, rfl, rfl, rfl⟩ := envelope_of_sign hsigned
  refine ⟨rfl, rfl, rfl, rfl, ?_⟩
  rw [roundTrips_iff hF henvelope htrusts hbody hfields, resistsChange_iff hF hbody hunforged]

end Results

section Sample

theorem filled_sampleKeyId : lit "k" ≠ [] := by decide

theorem length_sampleKeyId : (lit "k").length ≤ 64 := by decide

/-- The signatures of a sample key are two checksums. -/
def sampleKey (message : Bytes) : Bytes := checksum message ++ checksum message.reverse

theorem length_sampleKey (message : Bytes) : (sampleKey message).length = 64 := by
  rw [sampleKey, List.length_append, checksum, checksum, length_numberBytes, length_numberBytes]

def sampleSigner : SnapshotSigner where
  keyId := lit "k"
  publicKey := []
  key := sampleKey
  key_length := length_sampleKey
  keyId_filled := filled_sampleKeyId
  keyId_length := length_sampleKeyId

/-- Libraries that accept the signatures of the sample key. -/
def signedLibrary : SnapshotLibrary where
  platform := { Platform.sample with float := .numbered }
  unicode := .ascii id
  reader := Gateway.sampleReader
  isoformat _ := lit "1970-01-01T00:00:00+00:00"
  ed25519Verify _ signature message := decide (signature = sampleKey message)
  stack := 900

section Writing

variable {L : SnapshotLibrary} {s : SignedSnapshot}

/-- A snapshot with a message has a text. -/
theorem encoded_document {printed : Datetime → Str} (h : (signatureMessage L s).isSome = true)
    (hprinted : (printed s.issuedAt).encodable = true) :
    JsonText.Encoded L.platform.float ⟨false, false, false⟩
      (.obj (documentFields printed s)) := by
  obtain ⟨message, hmessage⟩ := Option.isSome_iff_exists.mp h
  have hencoded : JsonText.Encoded L.platform.float ⟨false, false, false⟩ (signedFields L s) :=
    (encoded_of_canonicalJson hmessage).of_sortKeys
  have hsigned := (JsonText.encoded_obj_iff rfl).mp hencoded
  simp only [List.forall_mem_cons] at hsigned
  obtain ⟨hschema, hid, hversion, -, hbody, hdigest, hkeyId, hnil⟩ := hsigned
  have hissued : JsonText.Encoded L.platform.float ⟨false, false, false⟩
      (.str (printed s.issuedAt)) := (JsonText.encoded_str_iff rfl).mpr hprinted
  have hsignature : JsonText.Encoded L.platform.float ⟨false, false, false⟩
      (.str s.signature.value) := (JsonText.encoded_str_iff rfl).mpr s.signature.encodable
  refine (JsonText.encoded_obj_iff rfl).mpr ?_
  simp only [documentFields, List.forall_mem_cons]
  exact ⟨hschema, hid, hversion, ⟨by decide, hissued⟩, hbody, hdigest,
    ⟨by decide, hsignature⟩, hkeyId, hnil⟩

end Writing

/-- The text of a snapshot, as the encoder of the interpreter writes it. -/
def sampleDump (s : SignedSnapshot) : Str :=
  (JsonText.dumps signedLibrary.platform.float ⟨false, false, false⟩
    (.obj (documentFields signedLibrary.isoformat s))).getD []

section SampleWriter

variable {s : SignedSnapshot}

theorem encodable_isoformat (d : Datetime) : (signedLibrary.isoformat d).encodable = true := by
  change Str.encodable (lit "1970-01-01T00:00:00+00:00") = true
  decide

/-- The document of a snapshot can be written without escapes. -/
theorem exists_sampleDump (h : (signatureMessage signedLibrary s).isSome = true) :
    JsonText.dumps signedLibrary.platform.float ⟨false, false, false⟩
      (.obj (documentFields signedLibrary.isoformat s)) = some (sampleDump s) ∧
        (sampleDump s).encodable = true := by
  obtain ⟨text, htext, hgood⟩ := encoded_document h (encodable_isoformat s.issuedAt)
  have heq : sampleDump s = text := by
    rw [sampleDump, htext]
    rfl
  rw [heq]
  exact ⟨htext, hgood⟩

theorem wellFormed_document {printed : Datetime → Str} (hbody : (Json.obj s.body).WellFormed) :
    (Json.obj (documentFields printed s)).WellFormed := by
  rw [documentFields, Json.WellFormed]
  refine ⟨?_, trivial, trivial, trivial, trivial, hbody, trivial, trivial, trivial, trivial⟩
  change ([lit "schema", lit "snapshot_id", lit "version", lit "issued_at", lit "body",
    lit "digest", lit "signature", lit "key_id"] : List Str).Nodup
  decide

theorem verbatim_document (h : (signatureMessage signedLibrary s).isSome = true)
    (hbody : (Json.obj s.body).WellFormed) :
    JsonText.Verbatim (.obj (documentFields signedLibrary.isoformat s)) :=
  JsonText.verbatim_of_encoded rfl rfl (wellFormed_document hbody)
    (encoded_document h (encodable_isoformat s.issuedAt))

/-- The encoder of the interpreter, as the writer of a library. -/
def sampleWriter : SnapshotWriter signedLibrary where
  printed := signedLibrary.isoformat
  modelDumpJson := sampleDump
  nesting := 255
  encodable _ h _ := (exists_sampleDump h).2
  printable _ h hbody := (verbatim_document h hbody).le_of_mem_dumps
    FloatText.numbered_faithful (exists_sampleDump h).1
  reads _ h hbody _ hdepth := by
    have hverbatim := verbatim_document h hbody
    exact JsonText.loads_of_readsBack (hverbatim.opening FloatText.numbered_faithful)
      (hverbatim.readsBack FloatText.numbered_faithful (by rfl)) (exists_sampleDump h).1 hdepth

end SampleWriter

def sampleTrusted : Verifier := [(lit "k", [])]

theorem trusts_sampleSigner : Trusts signedLibrary sampleTrusted sampleSigner where
  known := by decide
  valid message := by simp only [signedLibrary, sampleSigner, decide_true]

/-- A body with one model. -/
def sampleBody : Entries Str Json := [(lit "models", .arr [.str (lit "m")])]

theorem wellFormed_sampleBody : (Json.obj sampleBody).WellFormed := by
  rw [sampleBody, Json.WellFormed]
  exact ⟨by decide, ⟨trivial, trivial⟩, trivial⟩

def sampleSigned : Except SigningError SignedSnapshot :=
  sampleSigner.sign signedLibrary (lit "id") 1 ⟨0, some 0⟩ sampleBody

theorem exists_sampleSigned : ∃ s, sampleSigned = .ok s :=
  exists_of_isOk (by decide +kernel)

section SampleSnapshot

variable {s : SignedSnapshot}

theorem fieldsBack_sample (h : sampleSigned = .ok s) :
    FieldsBack signedLibrary sampleWriter.printed s := by
  obtain ⟨-, -, -, hissued, -⟩ := envelope_of_sign h
  refine ⟨rfl, rfl, ?_, encodable_isoformat s.issuedAt⟩
  rw [hissued]
  rfl

/-- The file of the snapshot is read as the snapshot only. -/
theorem unforged_sample (h : sampleSigned = .ok s) :
    Unforged signedLibrary sampleTrusted s (sampleDump s) := by
  obtain ⟨henvelope, -, -, -, hbody⟩ := envelope_of_sign h
  obtain ⟨message, hmessage, -⟩ := henvelope.signature
  have hloads := sampleWriter.reads s (Option.isSome_iff_exists.mpr ⟨message, hmessage⟩)
    (hbody ▸ wellFormed_sampleBody) (encodable_isoformat s.issuedAt)
    (depth_documentFields.trans_le (by rw [hbody]; decide))
  rintro t key signature message' ⟨payload, hpayload, ht⟩ - - hmessage' -
  have hread : readSnapshot signedLibrary payload = some s := by
    rw [← Except.ok.inj (hloads.symm.trans hpayload)]
    exact readSnapshot_document (fieldsBack_sample h)
  rw [ht] at hread
  cases hread
  exact hmessage'

end SampleSnapshot

/-- A snapshot and the text of its file. -/
theorem snapshot_holds_iff_sample : ∃ s, sampleSigned = .ok s ∧ s.body = sampleBody ∧
    s.version = 1 ∧ s.snapshotId = lit "id" ∧ s.issuedAt = ⟨0, some 0⟩ ∧
      ((RoundTrips signedLibrary sampleTrusted sampleWriter s ∧
        ResistsChange signedLibrary sampleTrusted s (sampleDump s)) ↔
          Fits signedLibrary sampleWriter s ∧
            ((¬ ∃ t, ReadAs signedLibrary (sampleDump s) t ∧ SameSigned signedLibrary s t) →
              ¬ Escapes signedLibrary (sampleDump s))) := by
  obtain ⟨s, hs⟩ := exists_sampleSigned
  exact ⟨s, hs, snapshot_holds_iff FloatText.numbered_faithful wellFormed_sampleBody hs
    (fieldsBack_sample hs) trusts_sampleSigner (unforged_sample hs)⟩

/-- A document that opens more lists than the interpreter can. -/
def sampleDeep : Str := List.replicate 901 JsonText.openBracket

/-- What a run raises. -/
def raised {ε α : Type} : Except ε α → Option ε
  | .error e => some e
  | .ok _ => none

theorem eq_error_of_raised {ε α : Type} {x : Except ε α} {e : ε} (h : raised x = some e) :
    x = .error e := by
  cases x with
  | error e' => exact congrArg Except.error (Option.some.inj h)
  | ok a => cases h

/-- A document with too many lists makes the verifier raise another exception. -/
theorem deep_document_not_rejected : ∃ s, sampleSigned = .ok s ∧
    ¬ (RoundTrips signedLibrary sampleTrusted sampleWriter s ∧
      ResistsChange signedLibrary sampleTrusted s sampleDeep) := by
  obtain ⟨s, hs⟩ := exists_sampleSigned
  refine ⟨s, hs, ?_⟩
  rintro ⟨-, hresists⟩
  have hloads := eq_error_of_raised (x := JsonText.loads signedLibrary.platform.float
    signedLibrary.platform.jsonDepth sampleDeep) (e := .recursion) (by decide +kernel)
  have hraised := eq_error_of_raised (x := verifyJson signedLibrary sampleTrusted sampleDeep)
    (e := .recursionError) (by decide +kernel)
  have hdiffers : ¬ ∃ t, ReadAs signedLibrary sampleDeep t ∧ SameSigned signedLibrary s t := by
    rintro ⟨t, ⟨payload, hpayload, -⟩, -⟩
    rw [hloads] at hpayload
    cases hpayload
  obtain ⟨message, hrejected⟩ := hresists hdiffers
  rw [hraised] at hrejected
  cases hrejected

end Sample

end MediaBridge.Control.SnapshotSigning
