import MediaBridge.Core.Receipts
import MediaBridge.Foundation.JsonSurrogates
import MediaBridge.Foundation.Raise

/-!
# Which tokens verify

What `GateReceiptSigner.verify` does with an arbitrary string, when nobody but the signer can
sign with its key.

## Implementation notes

The receipts that a key has signed are a list of `Issue`. `Unforged` is the assumption on the
signature: the token at hand does not carry the signature of a payload that was never signed.
-/

namespace MediaBridge.Core

open Foundation

namespace Receipts

/-- A call of `sign` that returned a token. -/
structure Issue where
  signedAt : ℚ
  binding : ReceiptBinding
  ttlSeconds : Int

namespace Issue

variable (P : Platform) (issue : Issue)

def issuedAt : Int := truncate issue.signedAt

def expiresAt : Int := issue.issuedAt + issue.ttlSeconds

/-- The payload that the call signed. -/
def encoded : Option Str := encodedPayload P issue.binding issue.issuedAt issue.expiresAt

end Issue

/-- A payload that was signed. -/
def Signed (P : Platform) (issues : List Issue) (encoded : Str) : Prop :=
  ∃ issue ∈ issues, issue.encoded P = some encoded

/-- The token does not bear the signature of a payload that was never signed. -/
def Unforged (P : Platform) (signer : GateReceiptSigner) (issues : List Issue)
    (token : Str) : Prop :=
  ∀ version encoded encodedSignature mac,
    Str.splitOn dot token = [version, encoded, encodedSignature] →
    signature P signer encoded = some mac → Base64.decodeUrl encodedSignature = some mac →
    Signed P issues encoded

/-- The token was signed for the expected binding, and its lifetime is not over. -/
structure Genuine (P : Platform) (issues : List Issue) (now : ℚ) (token : Str)
    (expected : ReceiptBinding) (issue : Issue) (encoded encodedSignature : Str) : Prop where
  issued : issue ∈ issues
  parts : Str.splitOn dot token = [lit "v1", encoded, encodedSignature]
  signed : issue.encoded P = some encoded
  binding : rejoined issue.binding = expected
  started : issue.issuedAt ≤ truncate now
  unexpired : truncate now ≤ issue.expiresAt

/-- The token verifies and is genuine, or it is refused with a `ReceiptValidationError`. -/
def Exact (P : Platform) (signer : GateReceiptSigner) (issues : List Issue) (now : ℚ)
    (token : Str) (expected : ReceiptBinding) : Prop :=
  (verify P signer now token expected = .ok expected ∧
    ∃ issue encoded encodedSignature,
      Genuine P issues now token expected issue encoded encodedSignature) ∨
    ∃ message, verify P signer now token expected = .error (.invalid message)

/-- In a token with a version, a payload and a signature in base64, the payload is ASCII. -/
def AsciiPayload (token : Str) : Prop :=
  ∀ encoded encodedSignature, Str.splitOn dot token = [lit "v1", encoded, encodedSignature] →
    (Base64.decodeUrl encodedSignature).isSome = true → encoded.all CodePoint.isAscii = true

section Verification

variable {P : Platform} {signer : GateReceiptSigner} {issues : List Issue} {now : ℚ}
  {token encoded encodedSignature : Str} {expected : ReceiptBinding}

theorem signature_isSome_iff :
    (signature P signer encoded).isSome = true ↔ encoded.all CodePoint.isAscii = true := by
  rw [signature, asciiBytes, Option.isSome_map]
  split
  · rename_i hascii
    exact iff_of_true rfl hascii
  · rename_i hascii
    exact iff_of_false Bool.false_ne_true hascii

/-- A payload that is not ASCII stops the verification with another exception. -/
theorem verify_of_not_ascii
    (hparts : Str.splitOn dot token = [lit "v1", encoded, encodedSignature])
    (hsupplied : (Base64.decodeUrl encodedSignature).isSome = true)
    (hascii : ¬ encoded.all CodePoint.isAscii = true) :
    verify P signer now token expected = .error .unicodeError := by
  obtain ⟨supplied, hsupplied⟩ := Option.isSome_iff_exists.mp hsupplied
  have hsignature : signature P signer encoded = none := by
    rw [← Option.not_isSome_iff_eq_none, signature_isSome_iff]
    exact hascii
  unfold verify
  simp only [hparts, hsupplied, hsignature, ne_eq, not_true_eq_false, if_false]

/-- The verification of a token that some signer made fails with its own error only. -/
theorem verify_of_sign {other : GateReceiptSigner} {signedAt : ℚ} {binding : ReceiptBinding}
    {ttlSeconds : Int} (hdepth : 1 ≤ P.jsonDepth)
    (h : sign P other signedAt binding ttlSeconds = some token) :
    RaisesOnly (fun e => ∃ message, e = .invalid message) (verify P signer now token expected) := by
  obtain ⟨encoded, mac, hencoded, hmac, -, hparts⟩ := exists_parts_of_sign h
  have hascii : encoded.all CodePoint.isAscii = true :=
    signature_isSome_iff.mp (Option.isSome_of_eq_some hmac)
  obtain ⟨own, hown⟩ :=
    Option.isSome_iff_exists.mp ((@signature_isSome_iff P signer encoded).mpr hascii)
  have hpayload := decodePayload_encoded hdepth hencoded
  unfold verify
  simp only [hparts, Base64.decodeUrl_encodeUrl, hown, hpayload, ne_eq, not_true_eq_false,
    if_false, bind, Except.bind]
  split
  · exact .error ⟨_, rfl⟩
  · split
    · exact .error ⟨_, rfl⟩
    · split
      · exact .error ⟨_, rfl⟩
      · exact .ok _

/-- A token that was signed can be encoded. -/
theorem exists_encode_of_sign {signedAt : ℚ} {binding : ReceiptBinding} {ttlSeconds : Int}
    (h : sign P signer signedAt binding ttlSeconds = some token) :
    ∃ data, Utf8.encode token = some data := by
  obtain ⟨encoded, mac, -, hmac, htoken, -⟩ := exists_parts_of_sign h
  have hencoded : ∀ c ∈ encoded, c.isAscii = true :=
    List.all_eq_true.mp (signature_isSome_iff.mp (Option.isSome_of_eq_some hmac))
  have hmacText : ∀ c ∈ Base64.encodeUrl mac, c.isAscii = true :=
    Base64.forall_mem_encodeUrl (p := fun c => c.isAscii = true) (by decide) mac
  refine ⟨_, Utf8.encode_ascii fun c hc => ?_⟩
  rw [htoken] at hc
  simp only [List.mem_append, List.mem_cons] at hc
  obtain (hversion | rfl | hc) | rfl | hc := hc
  · exact List.all_eq_true.mp (by decide : (lit "v1").all CodePoint.isAscii = true) c hversion
  · decide
  · exact hencoded c hc
  · decide
  · exact hmacText c hc

/-- A token with a valid signature is genuine, or refused for its time or its binding. -/
theorem exact_of_signature {mac : Bytes} (hdepth : 1 ≤ P.jsonDepth)
    (hparts : Str.splitOn dot token = [lit "v1", encoded, encodedSignature])
    (hsupplied : Base64.decodeUrl encodedSignature = some mac)
    (hmac : signature P signer encoded = some mac) (hsigned : Signed P issues encoded) :
    Exact P signer issues now token expected := by
  obtain ⟨issue, hissue, hencoded⟩ := hsigned
  have hpayload := decodePayload_encoded hdepth hencoded
  have hverify : verify P signer now token expected =
      if truncate now < issue.issuedAt ∨ issue.expiresAt < truncate now then
        .error (.invalid "gate receipt expired or not yet valid")
      else if rejoined issue.binding ≠ expected then
        .error (.invalid "gate receipt does not match downstream payload")
      else .ok (rejoined issue.binding) := by
    unfold verify
    simp only [hparts, hsupplied, hmac, hpayload, ne_eq, not_true_eq_false, if_false, bind,
      Except.bind]
  by_cases htime : truncate now < issue.issuedAt ∨ issue.expiresAt < truncate now
  · rw [if_pos htime] at hverify
    exact .inr ⟨_, hverify⟩
  by_cases hbinding : rejoined issue.binding = expected
  · rw [if_neg htime, if_neg (not_not.mpr hbinding), hbinding] at hverify
    rw [not_or, not_lt, not_lt] at htime
    exact .inl ⟨hverify, issue, encoded, encodedSignature,
      hissue, hparts, hencoded, hbinding, htime.1, htime.2⟩
  · rw [if_neg htime, if_pos hbinding] at hverify
    exact .inr ⟨_, hverify⟩

/-- Verification is exact and raises nothing else, unless the payload is not ASCII. -/
theorem exact_iff (hdepth : 1 ≤ P.jsonDepth) (hunforged : Unforged P signer issues token) :
    Exact P signer issues now token expected ↔ AsciiPayload token := by
  constructor
  · intro hexact encoded encodedSignature hparts hsupplied
    by_contra hascii
    have hverify : verify P signer now token expected = .error .unicodeError :=
      verify_of_not_ascii hparts hsupplied hascii
    rcases hexact with ⟨hok, -⟩ | ⟨message, hinvalid⟩
    · rw [hverify] at hok
      cases hok
    · rw [hverify] at hinvalid
      cases hinvalid
  · intro hascii
    by_cases hthree : ∃ version encoded encodedSignature,
        Str.splitOn dot token = [version, encoded, encodedSignature]
    · obtain ⟨version, encoded, encodedSignature, hparts⟩ := hthree
      cases hsupplied : Base64.decodeUrl encodedSignature with
      | none =>
          refine .inr ⟨"malformed gate receipt", ?_⟩
          unfold verify
          simp only [hparts, hsupplied]
      | some supplied =>
          by_cases hversion : version = lit "v1"
          · subst hversion
            have hsome := hascii encoded encodedSignature hparts (by rw [hsupplied]; rfl)
            obtain ⟨mac, hmac⟩ := Option.isSome_iff_exists.mp (signature_isSome_iff.mpr hsome)
            by_cases heq : supplied = mac
            · subst heq
              exact exact_of_signature hdepth hparts hsupplied hmac
                (hunforged _ _ _ _ hparts hmac hsupplied)
            · refine .inr ⟨"invalid gate receipt signature", ?_⟩
              unfold verify
              simp only [hparts, hsupplied, hmac, ne_eq, not_true_eq_false, if_false, heq,
                not_false_eq_true, if_true]
          · refine .inr ⟨"unsupported gate receipt version", ?_⟩
            unfold verify
            simp only [hparts, hsupplied, ne_eq, hversion, not_false_eq_true, if_true]
    · refine .inr ⟨"malformed gate receipt", ?_⟩
      unfold verify
      split
      · rename_i version encoded encodedSignature hparts
        exact absurd ⟨version, encoded, encodedSignature, hparts⟩ hthree
      · rfl

end Verification

/-- The one receipt of a concrete run. -/
def Issue.sample : Issue where
  signedAt := 100
  binding := ⟨lit "basic", lit "vision", lit "in", lit "out", lit "passthrough"⟩
  ttlSeconds := 30

/-- The token of that receipt. -/
def sampleToken : Str :=
  (sign Platform.sample GateReceiptSigner.sample 100 Issue.sample.binding 30).getD []

theorem exact_sampleToken :
    Exact Platform.sample GateReceiptSigner.sample [Issue.sample] 110 sampleToken
      Issue.sample.binding := by
  have hencoded : Str.splitOn dot sampleToken =
      [lit "v1", (Issue.sample.encoded Platform.sample).getD [],
        ((Str.splitOn dot sampleToken).getLast?).getD []] ∧
      Issue.sample.encoded Platform.sample =
        some ((Issue.sample.encoded Platform.sample).getD []) ∧
      ((Issue.sample.encoded Platform.sample).getD []).all CodePoint.isAscii = true := by
    decide +kernel
  obtain ⟨hparts, hissued, hascii⟩ := hencoded
  refine (exact_iff (by decide) ?_).mpr ?_
  · intro version encoded encodedSignature mac hsplit _ _
    rw [hparts, List.cons.injEq, List.cons.injEq] at hsplit
    rw [← hsplit.2.1]
    exact ⟨Issue.sample, List.mem_singleton_self _, hissued⟩
  · intro encoded encodedSignature hsplit _
    rw [hparts, List.cons.injEq, List.cons.injEq] at hsplit
    rw [← hsplit.2.1]
    exact hascii

/-- A token whose payload is one letter with an accent. -/
def accentedToken : Str := lit "v1." ++ [cp 0xE9] ++ lit ".AAAA"

/-- The accented payload raises an exception that is no `ReceiptValidationError`. -/
theorem not_exact_accentedToken :
    ¬ ∀ (P : Platform) (signer : GateReceiptSigner) (issues : List Issue) (now : ℚ)
      (token : Str) (expected : ReceiptBinding), 1 ≤ P.jsonDepth →
      Unforged P signer issues token → Exact P signer issues now token expected := by
  intro hall
  have hparts : Str.splitOn dot accentedToken = [lit "v1", [cp 0xE9], lit "AAAA"] := by decide
  have hverify : verify Platform.sample GateReceiptSigner.sample 0 accentedToken
      Issue.sample.binding = .error .unicodeError :=
    verify_of_not_ascii hparts (by decide) (by decide)
  have hexact := hall Platform.sample GateReceiptSigner.sample [] 0 accentedToken
    Issue.sample.binding (by decide) (by
      intro version encoded encodedSignature mac hsplit hmac _
      rw [hparts] at hsplit
      cases hsplit
      cases hmac)
  rcases hexact with ⟨hok, -⟩ | ⟨message, hinvalid⟩
  · rw [hverify] at hok
    cases hok
  · rw [hverify] at hinvalid
    cases hinvalid

end Receipts

end MediaBridge.Core
