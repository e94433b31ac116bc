import MediaBridge.Core.Capabilities
import MediaBridge.Foundation.Utf8
import Mathlib.Algebra.Group.Nat.Defs

/-!
# One-time codes

`media_bridge_control/totp.py`: secrets in base 32, and the codes of the time steps around a moment.

## Implementation notes

A secret is read as one number in base 32. The HMAC and two operations on strings come from the
interpreter.
-/

namespace MediaBridge.Control

open Foundation MediaBridge.Core

/-- What `totp.py` takes from the interpreter. -/
structure TotpLibrary where
  /-- `hmac.new(key, message, hashlib.sha1).digest()`. -/
  hmacSha1 : Bytes → Bytes → Bytes
  /-- `s.upper()`. -/
  upper : Str → Str
  /-- `c.isdigit()`. -/
  isDigit : CodePoint → Bool

namespace Totp

/-- The value of a character of the base 32 alphabet. -/
def digit? (c : CodePoint) : Option Nat :=
  if c.isAsciiUpper then some (c.val - 65)
  else if 50 ≤ c.val ∧ c.val ≤ 55 then some (c.val - 24)
  else none

/-- The character with a value of the base 32 alphabet. -/
def digitChar (n : Nat) : CodePoint := if n < 26 then cp (n + 65) else cp (n + 24)

/-- A number from its digits. -/
def ofDigits (base : Nat) (digits : List Nat) : Nat := digits.foldl (fun n d => n * base + d) 0

/-- The last `count` digits of a number. -/
def toDigits (base count n : Nat) : List Nat :=
  ((List.range count).map fun i => n / base ^ i % base).reverse

/-- `generate_secret`, from the 20 bytes that are drawn. -/
def generateSecret (draw : Bytes) : Str :=
  (toDigits 32 32 (ofDigits 256 (draw.map Fin.val))).map digitChar

/-- `_decode_secret`; `none` is a `TotpError`. -/
def decodeSecret (L : TotpLibrary) (secret : Str) : Option Bytes :=
  let normalized := L.upper secret.strip
  match normalized.mapM digit? with
  | none => none
  | some digits =>
      -- A quantum of eight characters cannot end after one, three or six of them.
      if digits.isEmpty ∨ digits.length % 8 = 1 ∨ digits.length % 8 = 3 ∨ digits.length % 8 = 6 then
        none
      else
        let count := digits.length * 5 / 8
        let value := ofDigits 32 digits / 2 ^ (digits.length * 5 - count * 8)
        some ((toDigits 256 count value).map fun b => Fin.ofNat 256 b)

/-- The four bytes of a digest from an offset on, without the sign. -/
def truncated (digest : Bytes) : Nat :=
  let offset := (digest.getLastD 0).val % 16
  ofDigits 256 (((digest.drop offset).take 4).map Fin.val) % 0x80000000

/-- `_hotp`. -/
def hotp (L : TotpLibrary) (key : Bytes) (counter : Nat) : Str :=
  let digest := L.hmacSha1 key ((toDigits 256 8 counter).map fun b => Fin.ofNat 256 b)
  (toDigits 10 6 (truncated digest % 1000000)).map fun d => cp (d + 48)

/-- The counter at a moment: the number of half minutes since the epoch. `timestamp` gives a double,
and its floor is this number for every moment within `2 ^ 34` seconds of the epoch. -/
def counterAt (now : Instant) : Int := now / 30000000

/-- `expected` of `verify_code`: the codes of the time steps around a moment. -/
def expected (L : TotpLibrary) (key : Bytes) (now : Instant) : List Str :=
  [-1, 0, 1].filterMap fun offset =>
    if 0 ≤ counterAt now + offset then some (hotp L key (counterAt now + offset).toNat) else none

/-- What `verify_code` does. -/
inductive Verdict
  | accepted
  | totpError
  /-- The `TypeError` of a comparison with a string that is not ASCII. -/
  | typeError
deriving DecidableEq

/-- `verify_code`. -/
def verifyCode (L : TotpLibrary) (secret code : Str) (now : Instant) : Verdict :=
  if ¬ code.all L.isDigit ∨ code.length ≠ 6 then .totpError
  else
    match decodeSecret L secret with
    | none => .totpError
    | some key =>
        if (expected L key now).isEmpty then .totpError
        else if ¬ code.all CodePoint.isAscii then .typeError
        else if code ∈ expected L key now then .accepted
        else .totpError

end Totp

end MediaBridge.Control
