import MediaBridge.Foundation.Base64
import MediaBridge.Foundation.JsonSurrogates
import Mathlib.Data.Rat.Floor
import Mathlib.Algebra.Order.Field.Rat

/-!
# Gate receipts

`media_bridge/receipts.py`: a short-lived, keyed signature over what the gate
decided.

## Implementation notes

The hash functions and the conversions that a signed payload never needs are
fields of `Platform`. The clock is passed as the time it shows.
-/

namespace MediaBridge.Core

open Foundation

/-- Why the fields of a payload cannot be read. -/
inductive PayloadError
  /-- A `KeyError`, `TypeError` or `ValueError`. -/
  | caught
  /-- The `OverflowError` of `int` of an infinity. -/
  | overflow
deriving DecidableEq

/-- What the interpreter and its cryptography provide. -/
structure Platform where
  /-- `hmac.new(key, message, hashlib.sha256).digest()`. -/
  hmacSha256 : Bytes → Bytes → Bytes
  /-- `hashlib.sha256(data).digest()`. -/
  sha256 : Bytes → Bytes
  float : FloatText
  /-- `bytes.decode` for UTF-16 and UTF-32. -/
  wide : Bytes → Option Str
  /-- `str(v)` of a value that is not a string. -/
  strOf : Json → Str
  /-- `int(v)` of a value that is not an integer. -/
  intOf : Json → Except PayloadError Int
  /-- How many nested containers the JSON decoder can open. -/
  jsonDepth : Nat

/-- `int(t)` of a clock reading: the fraction is dropped. -/
def truncate (t : ℚ) : Int := if t < 0 then ⌈t⌉ else ⌊t⌋

/-- `data.hex()`. -/
def hexText (data : Bytes) : Str :=
  data.flatMap fun b => [JsonText.hexLetter (b.val / 16), JsonText.hexLetter (b.val % 16)]

/-- Hexadecimal text is ASCII. -/
theorem hexText_ascii (data : Bytes) : ∀ c ∈ hexText data, c.isAscii = true := by
  intro c hc
  obtain ⟨b, -, hb⟩ := List.mem_flatMap.mp hc
  have hletter (n : Nat) (hn : n < 16) : (JsonText.hexLetter n).isAscii = true := by
    revert n
    decide
  simp only [List.mem_cons, List.not_mem_nil, or_false] at hb
  rcases hb with rfl | rfl
  · exact hletter _ (by omega)
  · exact hletter _ (by omega)

/-- `hashlib.sha256(data).hexdigest()`. -/
def Platform.sha256Hex (P : Platform) (data : Bytes) : Str := hexText (P.sha256 data)

structure ReceiptBinding where
  targetId : Str
  capability : Str
  inputDigest : Str
  outputDigest : Str
  action : Str
deriving DecidableEq

/-- A signer holds a secret of at least 32 bytes. -/
structure GateReceiptSigner where
  secret : Bytes
  secret_length : 32 ≤ secret.length

namespace Receipts

/-- `json.dumps(payload, sort_keys=True, separators=(",", ":"))`. -/
def style : JsonText.Style := ⟨true, true, true⟩

/-- The dictionary that is signed. -/
def payload (binding : ReceiptBinding) (issuedAt expiresAt : Int) : Json :=
  .obj [(lit "target_id", .str binding.targetId), (lit "capability", .str binding.capability),
    (lit "input_digest", .str binding.inputDigest),
    (lit "output_digest", .str binding.outputDigest), (lit "action", .str binding.action),
    (lit "issued_at", .int issuedAt), (lit "expires_at", .int expiresAt)]

/-- The text between the dots that is signed; `none` is a `ValueError`. -/
def encodedPayload (P : Platform) (binding : ReceiptBinding) (issuedAt expiresAt : Int) :
    Option Str := do
  let text ← JsonText.dumps P.float style (payload binding issuedAt expiresAt)
  let data ← Utf8.encode text
  return Base64.encodeUrl data

/-- `text.encode("ascii")`. -/
def asciiBytes (text : Str) : Option Bytes :=
  if text.all CodePoint.isAscii then some (text.map fun c => Utf8.byte c.val) else none

def dot : CodePoint := cp 46

/-- The signature of an encoded payload; `none` is a `UnicodeEncodeError`. -/
def signature (P : Platform) (signer : GateReceiptSigner) (encoded : Str) : Option Bytes :=
  (asciiBytes encoded).map (P.hmacSha256 signer.secret)

/-- `GateReceiptSigner.sign`; `none` is a `ValueError`. -/
def sign (P : Platform) (signer : GateReceiptSigner) (now : ℚ) (binding : ReceiptBinding)
    (ttlSeconds : Int) : Option Str :=
  if ttlSeconds < 1 ∨ 300 < ttlSeconds then none
  else do
    let issuedAt := truncate now
    let encoded ← encodedPayload P binding issuedAt (issuedAt + ttlSeconds)
    let mac ← signature P signer encoded
    return lit "v1" ++ dot :: encoded ++ dot :: Base64.encodeUrl mac

/-- Why a receipt is not accepted. `invalid` is the `ReceiptValidationError`. -/
inductive VerifyError
  | invalid (message : String)
  | unicodeError
  | recursionError
  | overflowError
deriving DecidableEq

/-- `str(v)`. -/
def textOf (P : Platform) : Json → Str
  | .str s => s
  | v => P.strOf v

/-- `int(v)`. -/
def integerOf (P : Platform) : Json → Except PayloadError Int
  | .int n => .ok n
  | v => P.intOf v

/-- `payload[key]`. -/
def payloadField (fields : Entries Str Json) (key : String) : Except PayloadError Json :=
  match Entries.get? fields (lit key) with
  | some v => .ok v
  | none => .error .caught

/-- The fields of a decoded payload. -/
def readPayload (P : Platform) (fields : Entries Str Json) :
    Except PayloadError (ReceiptBinding × Int × Int) := do
  let targetId ← payloadField fields "target_id"
  let capability ← payloadField fields "capability"
  let inputDigest ← payloadField fields "input_digest"
  let outputDigest ← payloadField fields "output_digest"
  let action ← payloadField fields "action"
  let issuedAt ← payloadField fields "issued_at"
  let issuedAt ← integerOf P issuedAt
  let expiresAt ← payloadField fields "expires_at"
  let expiresAt ← integerOf P expiresAt
  return (⟨textOf P targetId, textOf P capability, textOf P inputDigest, textOf P outputDigest,
    textOf P action⟩, issuedAt, expiresAt)

/-- The `try` block that decodes the payload. -/
def decodePayload (P : Platform) (encoded : Str) :
    Except VerifyError (ReceiptBinding × Int × Int) :=
  let failed : Except VerifyError (ReceiptBinding × Int × Int) :=
    .error (.invalid "invalid gate receipt payload")
  match Base64.decodeUrl encoded with
  | none => failed
  | some data =>
      match JsonText.decodeJsonBytes P.wide data with
      | none => failed
      | some text =>
          match JsonText.loads P.float P.jsonDepth text with
          | .error .recursion => .error .recursionError
          | .ok (.obj fields) =>
              match readPayload P fields with
              | .ok r => .ok r
              | .error .caught => failed
              | .error .overflow => .error .overflowError
          | _ => failed

/-- `GateReceiptSigner.verify`. -/
def verify (P : Platform) (signer : GateReceiptSigner) (now : ℚ) (token : Str)
    (expected : ReceiptBinding) : Except VerifyError ReceiptBinding :=
  match Str.splitOn dot token with
  | [version, encoded, encodedSignature] =>
      match Base64.decodeUrl encodedSignature with
      | none => .error (.invalid "malformed gate receipt")
      | some supplied =>
          if version ≠ lit "v1" then .error (.invalid "unsupported gate receipt version")
          else
            match signature P signer encoded with
            | none => .error .unicodeError
            | some mac =>
                if supplied ≠ mac then .error (.invalid "invalid gate receipt signature")
                else do
                  let (binding, issuedAt, expiresAt) ← decodePayload P encoded
                  if truncate now < issuedAt ∨ expiresAt < truncate now then
                    .error (.invalid "gate receipt expired or not yet valid")
                  else if binding ≠ expected then
                    .error (.invalid "gate receipt does not match downstream payload")
                  else .ok binding
  | _ => .error (.invalid "malformed gate receipt")

/-- The same dictionary in the order in which it is written. -/
def writtenPayload (binding : ReceiptBinding) (issuedAt expiresAt : Int) : Json :=
  .obj [(lit "action", .str binding.action), (lit "capability", .str binding.capability),
    (lit "expires_at", .int expiresAt), (lit "input_digest", .str binding.inputDigest),
    (lit "issued_at", .int issuedAt), (lit "output_digest", .str binding.outputDigest),
    (lit "target_id", .str binding.targetId)]

/-- `style` without the sorting of keys. -/
def writtenStyle : JsonText.Style := { style with sortKeys := false }

/-- No field has a lone surrogate. -/
structure Encodable (binding : ReceiptBinding) : Prop where
  targetId : Str.encodable binding.targetId = true
  capability : Str.encodable binding.capability = true
  inputDigest : Str.encodable binding.inputDigest = true
  outputDigest : Str.encodable binding.outputDigest = true
  action : Str.encodable binding.action = true

section Sorting

variable {a b c d e f g : Str}

/-- Sorting by key gives the order of `writtenPayload`. -/
theorem orderedFields_payload :
    JsonText.orderedFields true [(lit "target_id", a), (lit "capability", b),
      (lit "input_digest", c), (lit "output_digest", d), (lit "action", e),
      (lit "issued_at", f), (lit "expires_at", g)] =
    [(lit "action", e), (lit "capability", b), (lit "expires_at", g), (lit "input_digest", c),
      (lit "issued_at", f), (lit "output_digest", d), (lit "target_id", a)] := by
  rfl

end Sorting

theorem dumps_payload (F : FloatText) (binding : ReceiptBinding) (issuedAt expiresAt : Int) :
    JsonText.dumps F style (payload binding issuedAt expiresAt) =
      JsonText.dumps F writtenStyle (writtenPayload binding issuedAt expiresAt) := by
  have hunsorted (texts : List (Str × Str)) : JsonText.orderedFields false texts = texts := rfl
  simp only [payload, writtenPayload, JsonText.dumps, JsonText.dumpsFields, style, writtenStyle]
  cases JsonText.tooLong issuedAt.natAbs <;> cases JsonText.tooLong expiresAt.natAbs <;>
    simp only [Bool.false_eq_true, if_true, if_false, Option.bind_eq_bind, Option.bind_some,
      Option.bind_none, Option.pure_def, orderedFields_payload, hunsorted]

/-- A binding as it is read of its payload. -/
def rejoined (binding : ReceiptBinding) : ReceiptBinding :=
  ⟨JsonText.rejoin binding.targetId, JsonText.rejoin binding.capability,
    JsonText.rejoin binding.inputDigest, JsonText.rejoin binding.outputDigest,
    JsonText.rejoin binding.action⟩

theorem rejoined_of_encodable {binding : ReceiptBinding} (h : Encodable binding) :
    rejoined binding = binding := by
  rw [rejoined, JsonText.rejoin_of_encodable h.targetId, JsonText.rejoin_of_encodable h.capability,
    JsonText.rejoin_of_encodable h.inputDigest, JsonText.rejoin_of_encodable h.outputDigest,
    JsonText.rejoin_of_encodable h.action]

/-- A written payload is read, whatever its strings hold. -/
theorem loads_writtenPayload {F : FloatText} {binding : ReceiptBinding} {issuedAt expiresAt : Int}
    {text : Str}
    (h : JsonText.dumps F writtenStyle (writtenPayload binding issuedAt expiresAt) = some text)
    {depth : Nat} (hdepth : 1 ≤ depth) :
    JsonText.loads F depth text = .ok (writtenPayload (rejoined binding) issuedAt expiresAt) := by
  refine JsonText.loads_flat (by rfl) (by rfl) (List.cons_ne_nil _ _) ?_ ?_ ?_ h hdepth
  · change List.Nodup [lit "action", lit "capability", lit "expires_at", lit "input_digest",
      lit "issued_at", lit "output_digest", lit "target_id"]
    decide
  · simp only [List.mem_cons, List.not_mem_nil, or_false, forall_eq_or_imp, forall_eq]
    decide
  · simp only [List.mem_cons, List.not_mem_nil, or_false, forall_eq_or_imp, forall_eq]
    exact ⟨.str _, .str _, .int _, .str _, .int _, .str _, .str _⟩

theorem readPayload_writtenPayload (P : Platform) (binding : ReceiptBinding)
    (issuedAt expiresAt : Int) {fields : Entries Str Json}
    (h : writtenPayload binding issuedAt expiresAt = .obj fields) :
    readPayload P fields = .ok (binding, issuedAt, expiresAt) := by
  cases h
  rfl

/-- A text that starts with a brace and a quote is read as UTF-8. -/
theorem decodeJsonBytes_encode {wide : Bytes → Option Str} {rest : Str} {data : Bytes}
    (h : Utf8.encode (JsonText.openBrace :: JsonText.quote :: rest) = some data) :
    JsonText.decodeJsonBytes wide data =
      some (JsonText.openBrace :: JsonText.quote :: rest) := by
  have hdecode := Utf8.decodeWith_encode true h
  have hdata : ∃ more, data = Utf8.byte 123 :: Utf8.byte 34 :: more := by
    unfold Utf8.encode at h
    split at h
    · cases h
      exact ⟨_, rfl⟩
    · cases h
  obtain ⟨more, rfl⟩ := hdata
  have hwide : JsonText.usesWideEncoding (Utf8.byte 123 :: Utf8.byte 34 :: more) = false := by
    have h1 : (Utf8.byte 123).val = 123 := rfl
    have h2 : (Utf8.byte 34).val = 34 := rfl
    simp [JsonText.usesWideEncoding, h1, h2]
  unfold JsonText.decodeJsonBytes
  rw [if_neg (by simp [hwide])]
  have hbom : ¬ ((Utf8.byte 123).val = 0xEF) := by decide
  cases more with
  | nil => exact hdecode
  | cons c more => simpa [hbom] using hdecode

/-- Every payload that is signed can be read. -/
theorem decodePayload_encoded {P : Platform} {binding : ReceiptBinding}
    {issuedAt expiresAt : Int} {encoded : Str} (hdepth : 1 ≤ P.jsonDepth)
    (h : encodedPayload P binding issuedAt expiresAt = some encoded) :
    decodePayload P encoded = .ok (rejoined binding, issuedAt, expiresAt) := by
  obtain ⟨text, htext, h⟩ := Option.bind_eq_some_iff.mp h
  obtain ⟨data, hdata, h⟩ := Option.bind_eq_some_iff.mp h
  cases h
  rw [dumps_payload] at htext
  have hloads := loads_writtenPayload htext hdepth
  have hhead : ∃ rest, text = JsonText.openBrace :: JsonText.quote :: rest := by
    rw [writtenPayload, JsonText.dumps, JsonText.dumpsFields] at htext
    obtain ⟨texts, htexts, htext⟩ := Option.bind_eq_some_iff.mp htext
    obtain ⟨first, -, htexts⟩ := Option.bind_eq_some_iff.mp htexts
    obtain ⟨more, -, htexts⟩ := Option.bind_eq_some_iff.mp htexts
    cases htexts
    cases htext
    cases more with
    | nil => exact ⟨_, rfl⟩
    | cons a b => exact ⟨_, rfl⟩
  obtain ⟨rest, rfl⟩ := hhead
  rw [decodePayload, Base64.decodeUrl_encodeUrl]
  simp only [decodeJsonBytes_encode hdata, hloads, writtenPayload]
  rw [readPayload_writtenPayload P (rejoined binding) issuedAt expiresAt rfl]

/-- What was signed is what the verifier reads. -/
theorem decodePayload_encodedPayload {P : Platform} {binding : ReceiptBinding}
    {issuedAt expiresAt : Int} {encoded : Str} (hb : Encodable binding)
    (hdepth : 1 ≤ P.jsonDepth)
    (h : encodedPayload P binding issuedAt expiresAt = some encoded) :
    decodePayload P encoded = .ok (binding, issuedAt, expiresAt) := by
  rw [decodePayload_encoded hdepth h, rejoined_of_encodable hb]

/-- What an accepted token is made of. -/
structure Accepted (P : Platform) (signer : GateReceiptSigner) (now : ℚ) (token : Str)
    (expected : ReceiptBinding) (encoded encodedSignature : Str) : Prop where
  parts : Str.splitOn dot token = [lit "v1", encoded, encodedSignature]
  signed : ∃ mac, signature P signer encoded = some mac ∧
    Base64.decodeUrl encodedSignature = some mac
  inTime : ∃ issuedAt expiresAt, decodePayload P encoded = .ok (expected, issuedAt, expiresAt) ∧
    issuedAt ≤ truncate now ∧ truncate now ≤ expiresAt

/-- A receipt verifies exactly when its signature is that of its payload and the
payload is the expected binding within its lifetime. -/
theorem verify_eq_ok_iff {P : Platform} {signer : GateReceiptSigner} {now : ℚ} {token : Str}
    {expected : ReceiptBinding} :
    (∃ binding, verify P signer now token expected = .ok binding) ↔
      ∃ encoded encodedSignature, Accepted P signer now token expected encoded
        encodedSignature := by
  unfold verify
  constructor
  · rintro ⟨binding, h⟩
    split at h
    · rename_i version encoded encodedSignature hparts
      split at h
      · cases h
      rename_i supplied hsupplied
      split at h
      · cases h
      rename_i hversion
      split at h
      · cases h
      rename_i mac hmac
      split at h
      · cases h
      rename_i heq
      simp only [ne_eq, not_not] at hversion heq
      subst hversion heq
      cases hpayload : decodePayload P encoded with
      | error e => simp [hpayload, bind, Except.bind] at h
      | ok r =>
          obtain ⟨b, issuedAt, expiresAt⟩ := r
          simp only [hpayload, bind, Except.bind] at h
          split at h
          · cases h
          rename_i htime
          split at h
          · cases h
          rename_i hb
          simp only [not_or, not_lt, ne_eq, not_not] at htime hb
          subst hb
          exact ⟨encoded, encodedSignature, hparts, ⟨_, hmac, hsupplied⟩,
            issuedAt, expiresAt, hpayload, htime.1, htime.2⟩
    · cases h
  · rintro ⟨encoded, encodedSignature, hparts, ⟨mac, hmac, hsupplied⟩,
      issuedAt, expiresAt, hpayload, hlow, hhigh⟩
    refine ⟨expected, ?_⟩
    simp only [hparts, hsupplied, hmac, hpayload, ne_eq, not_true_eq_false, if_false, bind,
      Except.bind]
    rw [if_neg (by omega)]

theorem dot_notMem_encodeUrl (data : Bytes) : dot ∉ Base64.encodeUrl data := by
  intro h
  have hne := Base64.forall_mem_encodeUrl (p := fun c => c ≠ dot) (by decide) data dot h
  exact hne rfl

/-- What a signed token is made of. -/
theorem exists_parts_of_sign {P : Platform} {signer : GateReceiptSigner} {signedAt : ℚ}
    {binding : ReceiptBinding} {ttlSeconds : Int} {token : Str}
    (h : sign P signer signedAt binding ttlSeconds = some token) :
    ∃ encoded mac, encodedPayload P binding (truncate signedAt) (truncate signedAt + ttlSeconds) =
        some encoded ∧ signature P signer encoded = some mac ∧
      token = lit "v1" ++ dot :: encoded ++ dot :: Base64.encodeUrl mac ∧
      Str.splitOn dot token = [lit "v1", encoded, Base64.encodeUrl mac] := by
  unfold sign at h
  split at h
  · cases h
  obtain ⟨encoded, hencoded, h⟩ := Option.bind_eq_some_iff.mp h
  obtain ⟨mac, hmac, h⟩ := Option.bind_eq_some_iff.mp h
  cases h
  have hdot : dot ∉ encoded := by
    obtain ⟨text, -, hencoded⟩ := Option.bind_eq_some_iff.mp hencoded
    obtain ⟨data, -, hencoded⟩ := Option.bind_eq_some_iff.mp hencoded
    cases hencoded
    exact dot_notMem_encodeUrl data
  refine ⟨encoded, mac, hencoded, hmac, rfl, ?_⟩
  calc
    Str.splitOn dot (lit "v1" ++ dot :: encoded ++ dot :: Base64.encodeUrl mac) =
        lit "v1" :: Str.splitOn dot (encoded ++ dot :: Base64.encodeUrl mac) := by
      rw [List.append_assoc, List.cons_append]
      exact Str.splitOn_append_cons (by decide) _
    _ = lit "v1" :: encoded :: Str.splitOn dot (Base64.encodeUrl mac) := by
      rw [Str.splitOn_append_cons hdot]
    _ = [lit "v1", encoded, Base64.encodeUrl mac] := by
      rw [Str.splitOn_of_notMem (dot_notMem_encodeUrl mac)]

/-- A receipt verifies for its binding from the second in which it was signed until its
lifetime is over. -/
theorem verify_sign {P : Platform} {signer : GateReceiptSigner} {signedAt now : ℚ}
    {binding : ReceiptBinding} {ttlSeconds : Int} {token : Str} (hb : Encodable binding)
    (hdepth : 1 ≤ P.jsonDepth) (h : sign P signer signedAt binding ttlSeconds = some token)
    (hlow : truncate signedAt ≤ truncate now)
    (hhigh : truncate now ≤ truncate signedAt + ttlSeconds) :
    ∃ verified, verify P signer now token binding = .ok verified := by
  obtain ⟨encoded, mac, hencoded, hmac, -, hparts⟩ := exists_parts_of_sign h
  refine verify_eq_ok_iff.mpr ⟨encoded, Base64.encodeUrl mac, hparts, ?_, ?_⟩
  · exact ⟨mac, hmac, Base64.decodeUrl_encodeUrl mac⟩
  · exact ⟨_, _, decodePayload_encodedPayload hb hdepth hencoded, hlow, hhigh⟩

end Receipts

/-- The last `n` bytes of a number, most significant first. -/
def numberBytes : Nat → Nat → Bytes
  | 0, _ => []
  | n + 1, v => numberBytes n (v / 256) ++ [Utf8.byte v]

theorem length_numberBytes (n v : Nat) : (numberBytes n v).length = n := by
  induction n generalizing v with
  | zero => rfl
  | succ n ih => rw [numberBytes, List.length_append, ih, List.length_singleton]

/-- A checksum of 32 bytes that stands for a digest in concrete runs. -/
def checksum (data : Bytes) : Bytes :=
  numberBytes 32 (data.foldl (fun acc b => (acc * 257 + b.val + 1) % 2 ^ 256) 7)

/-- A platform for concrete runs on payloads without floats. -/
def Platform.sample : Platform where
  hmacSha256 key message := checksum (key ++ message)
  sha256 := checksum
  float := ⟨fun _ => lit "0.0", fun _ => 0⟩
  wide _ := none
  strOf _ := []
  intOf _ := .error .caught
  jsonDepth := 900

/-- A signer for concrete runs. -/
def GateReceiptSigner.sample : GateReceiptSigner := ⟨List.replicate 32 1, by decide⟩

end MediaBridge.Core
