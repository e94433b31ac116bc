import MediaBridge.Foundation.Json
import MediaBridge.Foundation.Utf8
import Mathlib.Algebra.Group.Nat.Defs
import Mathlib.Data.List.Lex
import Mathlib.Data.List.Sort
import Mathlib.Order.Fin.Basic

/-!
# `json.dumps` and `json.loads`

Compact JSON text with sorted or unsorted keys, with or without ASCII escapes,
and the decoder of the standard library.

## Implementation notes

Reading and printing a float is left to `FloatText`. The decoder takes the
stack that nested containers may use as `depth`, and as fuel the length of the
text: each call consumes a character or goes from a list to its items.
-/

namespace MediaBridge.Foundation

/-- How floats are written and read. -/
structure FloatText where
  /-- `float.__repr__` of a finite float. -/
  repr : BitVec 64 → Str
  /-- `float(text)` of a number token. -/
  parse : Str → BitVec 64

namespace JsonText

def quote : CodePoint := cp 34
def backslash : CodePoint := cp 92
def comma : CodePoint := cp 44
def colon : CodePoint := cp 58
def openBrace : CodePoint := cp 123
def closeBrace : CodePoint := cp 125
def openBracket : CodePoint := cp 91
def closeBracket : CodePoint := cp 93

/-- A decimal digit as a letter. -/
def digitLetter (d : Nat) : CodePoint := cp (48 + d)

/-- The decimal digits of a number, at most `fuel` of them. -/
def decimalDigits : Nat → Nat → Str
  | 0, _ => []
  | fuel + 1, n =>
      if n < 10 then [digitLetter n] else decimalDigits fuel (n / 10) ++ [digitLetter (n % 10)]

/-- `str(n)` of a natural number. -/
def natText (n : Nat) : Str := decimalDigits (n + 1) n

/-- `str(n)` of an integer. -/
def intText : Int → Str
  | .ofNat n => natText n
  | .negSucc n => cp 45 :: natText (n + 1)

/-- The interpreter's limit on the digits of an integer in text. -/
def maxIntDigits : Nat := 4300

/-- `str(n)` and `int(text)` refuse an integer of that many digits. -/
def tooLong (n : Nat) : Bool := decide (maxIntDigits < (natText n).length)

/-- A hexadecimal digit in lower case. -/
def hexLetter (d : Nat) : CodePoint := if d < 10 then cp (48 + d) else cp (87 + d)

/-- `\uXXXX`. -/
def unicodeEscape (v : Nat) : Str :=
  [backslash, cp 117, hexLetter (v / 4096 % 16), hexLetter (v / 256 % 16),
    hexLetter (v / 16 % 16), hexLetter (v % 16)]

/-- The escape with a letter of its own, for the code points that have one. -/
def shortEscape (c : CodePoint) : Option CodePoint :=
  if c = quote then some quote
  else if c = backslash then some backslash
  else if c = cp 8 then some (cp 98)
  else if c = cp 12 then some (cp 102)
  else if c = cp 10 then some (cp 110)
  else if c = cp 13 then some (cp 114)
  else if c = cp 9 then some (cp 116)
  else none

/-- One code point inside a string literal. -/
def escapePoint (ensureAscii : Bool) (c : CodePoint) : Str :=
  match shortEscape c with
  | some letter => [backslash, letter]
  | none =>
      if c.val < 32 then unicodeEscape c.val
      else if ensureAscii && decide (126 < c.val) then
        if c.val < 0x10000 then unicodeEscape c.val
        else unicodeEscape (0xD800 + (c.val - 0x10000) / 1024) ++
          unicodeEscape (0xDC00 + (c.val - 0x10000) % 1024)
      else [c]

/-- A string literal. -/
def stringText (ensureAscii : Bool) (s : Str) : Str :=
  quote :: s.flatMap (escapePoint ensureAscii) ++ [quote]

/-- A member of a dictionary as it is written. -/
def memberText (ensureAscii : Bool) (e : Str × Str) : Str :=
  stringText ensureAscii e.1 ++ [colon] ++ e.2

/-- The options of `json.dumps` that the program sets. -/
structure Style where
  ensureAscii : Bool
  sortKeys : Bool
  allowNan : Bool

/-- Dictionary entries in the order in which they are written. -/
def orderedFields {ν : Type} (sortKeys : Bool) (fields : List (Str × ν)) : List (Str × ν) :=
  if sortKeys then fields.insertionSort fun a b => a.1 ≤ b.1 else fields

/-- Exponent bits all set: an infinity or not a number. -/
def isFinite (bits : BitVec 64) : Bool := decide (bits.toNat / 2 ^ 52 % 2 ^ 11 ≠ 2047)

/-- The text of a float that is not finite. -/
def nonFiniteText (bits : BitVec 64) : Str :=
  if bits.toNat % 2 ^ 52 ≠ 0 then lit "NaN"
  else if bits.toNat / 2 ^ 63 = 0 then lit "Infinity"
  else lit "-Infinity"

mutual

/-- `json.dumps(value, separators=(",", ":"), ...)`; `none` is the `ValueError`
for a float that JSON cannot represent and for an integer of too many digits. -/
def dumps (F : FloatText) (style : Style) : Json → Option Str
  | .null => some (lit "null")
  | .bool true => some (lit "true")
  | .bool false => some (lit "false")
  | .int n => if tooLong n.natAbs then none else some (intText n)
  | .float bits =>
      if isFinite bits then some (F.repr bits)
      else if style.allowNan then some (nonFiniteText bits) else none
  | .str s => some (stringText style.ensureAscii s)
  | .arr items => do
      let texts ← dumpsItems F style items
      return openBracket :: Str.join [comma] texts ++ [closeBracket]
  | .obj fields => do
      let texts ← dumpsFields F style fields
      let members := (orderedFields style.sortKeys texts).map (memberText style.ensureAscii)
      return openBrace :: Str.join [comma] members ++ [closeBrace]

/-- The texts of the items of a list. -/
def dumpsItems (F : FloatText) (style : Style) : List Json → Option (List Str)
  | [] => some []
  | v :: rest => do
      let text ← dumps F style v
      let texts ← dumpsItems F style rest
      return text :: texts

/-- The texts of the values of a dictionary, each with its key. -/
def dumpsFields (F : FloatText) (style : Style) :
    List (Str × Json) → Option (List (Str × Str))
  | [] => some []
  | (k, v) :: rest => do
      let text ← dumps F style v
      let texts ← dumpsFields F style rest
      return (k, text) :: texts

end

/-- Why `json.loads` raises. -/
inductive LoadsError
  | decode
  | intTooLong
  | recursion
deriving DecidableEq

/-- The value of a hexadecimal digit. -/
def hexValue (c : CodePoint) : Option Nat :=
  if c.isAsciiDigit then some (c.val - 48)
  else if 97 ≤ c.val ∧ c.val ≤ 102 then some (c.val - 87)
  else if 65 ≤ c.val ∧ c.val ≤ 70 then some (c.val - 55)
  else none

/-- The value of four hexadecimal digits. -/
def hexValue4 (a b c d : CodePoint) : Option Nat := do
  let a ← hexValue a
  let b ← hexValue b
  let c ← hexValue c
  let d ← hexValue d
  return a * 4096 + b * 256 + c * 16 + d

/-- The code point of a one-letter escape. -/
def escapedLetter (c : CodePoint) : Option CodePoint :=
  if c = quote ∨ c = backslash ∨ c = cp 47 then some c
  else if c = cp 98 then some (cp 8)
  else if c = cp 102 then some (cp 12)
  else if c = cp 110 then some (cp 10)
  else if c = cp 114 then some (cp 13)
  else if c = cp 116 then some (cp 9)
  else none

def isHighSurrogate (v : Nat) : Bool := 0xD800 ≤ v && v < 0xDC00

def isLowSurrogate (v : Nat) : Bool := 0xDC00 ≤ v && v < 0xE000

/-- Add a code point in front of what was scanned. -/
def consPoint (c : CodePoint) : Except LoadsError (Str × Str) → Except LoadsError (Str × Str)
  | .ok (s, rest) => .ok (c :: s, rest)
  | .error e => .error e

/-- The rest of a string literal and the text after its closing quote. -/
def scanString : Str → Except LoadsError (Str × Str)
  | [] => .error .decode
  | c :: rest =>
      if c = quote then .ok ([], rest)
      else if c = backslash then
        match rest with
        | [] => .error .decode
        | e :: rest =>
            if e = cp 117 then
              match rest with
              | h1 :: h2 :: h3 :: h4 :: rest =>
                  match hexValue4 h1 h2 h3 h4 with
                  | none => .error .decode
                  | some v =>
                      if isHighSurrogate v then
                        match rest with
                        | b :: u :: l1 :: l2 :: l3 :: l4 :: after =>
                            if b = backslash ∧ u = cp 117 then
                              match hexValue4 l1 l2 l3 l4 with
                              | none => .error .decode
                              | some w =>
                                  if isLowSurrogate w then
                                    consPoint (cp (0x10000 + (v - 0xD800) * 1024 + (w - 0xDC00)))
                                      (scanString after)
                                  else consPoint (cp v)
                                    (scanString (b :: u :: l1 :: l2 :: l3 :: l4 :: after))
                            else consPoint (cp v)
                              (scanString (b :: u :: l1 :: l2 :: l3 :: l4 :: after))
                        | rest => consPoint (cp v) (scanString rest)
                      else consPoint (cp v) (scanString rest)
              | _ => .error .decode
            else
              match escapedLetter e with
              | some p => consPoint p (scanString rest)
              | none => .error .decode
      else if c.val < 32 then .error .decode
      else consPoint c (scanString rest)

/-- Space, tab, line feed and carriage return. -/
def isJsonSpace (c : CodePoint) : Bool :=
  c == cp 32 || c == cp 9 || c == cp 10 || c == cp 13

/-- The white space the decoder skips between tokens. -/
def skipSpace (s : Str) : Str := s.dropWhile isJsonSpace

/-- The value of a digit string. -/
def digitsValue (s : Str) : Nat := s.foldl (fun n c => n * 10 + (c.val - 48)) 0

/-- `0|[1-9][0-9]*`. -/
def scanInteger : Str → Option (Str × Str)
  | [] => none
  | c :: rest =>
      if c = cp 48 then some ([c], rest)
      else if c.isAsciiDigit then
        some (c :: rest.takeWhile CodePoint.isAsciiDigit,
          rest.dropWhile CodePoint.isAsciiDigit)
      else none

/-- `(\.[0-9]+)?`. -/
def scanFraction : Str → Str × Str
  | [] => ([], [])
  | c :: rest =>
      let digits := rest.takeWhile CodePoint.isAsciiDigit
      if c = cp 46 ∧ digits ≠ [] then
        (c :: digits, rest.dropWhile CodePoint.isAsciiDigit)
      else ([], c :: rest)

/-- `([eE][-+]?[0-9]+)?`. -/
def scanExponent : Str → Str × Str
  | [] => ([], [])
  | c :: rest =>
      if c = cp 101 ∨ c = cp 69 then
        let sign := rest.takeWhile fun d => d == cp 43 || d == cp 45
        let sign := sign.take 1
        let after := rest.drop sign.length
        let digits := after.takeWhile CodePoint.isAsciiDigit
        if digits ≠ [] then (c :: sign ++ digits, after.drop digits.length)
        else ([], c :: rest)
      else ([], c :: rest)

/-- The digits of a number token as an integer, within the interpreter's limit. -/
def integerValue (negative : Bool) (digits : Str) : Except LoadsError Json :=
  if maxIntDigits < digits.length then .error .intTooLong
  else .ok (.int (if negative then -(digitsValue digits : Int) else digitsValue digits))

/-- A number token and the text after it. -/
def scanNumber (F : FloatText) (text : Str) : Except LoadsError (Json × Str) :=
  let negative := text.head? == some (cp 45)
  let unsigned := if negative then text.tail else text
  match scanInteger unsigned with
  | none => .error .decode
  | some (digits, rest) =>
      let fraction := scanFraction rest
      let exponent := scanExponent fraction.2
      if fraction.1.isEmpty && exponent.1.isEmpty then
        (integerValue negative digits).map fun v => (v, rest)
      else
        let sign : Str := if negative then [cp 45] else []
        .ok (.float (F.parse (sign ++ digits ++ fraction.1 ++ exponent.1)), exponent.2)

/-- The constants of the decoder, three of which are not JSON. -/
def constants : List (Str × Json) :=
  [(lit "null", .null), (lit "true", .bool true), (lit "false", .bool false),
    (lit "NaN", .float 0x7FF8000000000000), (lit "Infinity", .float 0x7FF0000000000000),
    (lit "-Infinity", .float 0xFFF0000000000000)]

/-- A constant at the start of the text. -/
def scanConstant (text : Str) : Option (Json × Str) :=
  (constants.find? fun e => decide (e.1 <+: text)).map fun e => (e.2, text.drop e.1.length)

mutual

/-- `scan_once`: a value at the start of the text. -/
def scanValue (F : FloatText) : Nat → Nat → Str → Except LoadsError (Json × Str)
  | 0, _, _ => .error .decode
  | _ + 1, _, [] => .error .decode
  | fuel + 1, depth, c :: rest =>
      if c = quote then (scanString rest).map fun r => (.str r.1, r.2)
      else if c = openBrace then
        match depth with
        | 0 => .error .recursion
        | depth + 1 =>
            match skipSpace rest with
            | [] => .error .decode
            | d :: after =>
                if d = closeBrace then .ok (.obj [], after)
                else (scanMembers F fuel depth [] (d :: after)).map fun r => (.obj r.1, r.2)
      else if c = openBracket then
        match depth with
        | 0 => .error .recursion
        | depth + 1 =>
            match skipSpace rest with
            | [] => .error .decode
            | d :: after =>
                if d = closeBracket then .ok (.arr [], after)
                else (scanItems F fuel depth (d :: after)).map fun r => (.arr r.1, r.2)
      else
        match scanConstant (c :: rest) with
        | some r => .ok r
        | none => scanNumber F (c :: rest)

/-- The items of a list from the first one on, and the text after the bracket. -/
def scanItems (F : FloatText) : Nat → Nat → Str → Except LoadsError (List Json × Str)
  | 0, _, _ => .error .decode
  | fuel + 1, depth, text => do
      let (v, rest) ← scanValue F fuel depth text
      match skipSpace rest with
      | [] => .error .decode
      | d :: after =>
          if d = closeBracket then .ok ([v], after)
          else if d = comma then do
            let (vs, rest) ← scanItems F fuel depth (skipSpace after)
            .ok (v :: vs, rest)
          else .error .decode

/-- The members of a dictionary from a key on; a repeated key is assigned again. -/
def scanMembers (F : FloatText) :
    Nat → Nat → Entries Str Json → Str → Except LoadsError (Entries Str Json × Str)
  | 0, _, _, _ => .error .decode
  | _ + 1, _, _, [] => .error .decode
  | fuel + 1, depth, sofar, c :: rest =>
      if c = quote then do
        let (key, rest) ← scanString rest
        match skipSpace rest with
        | [] => .error .decode
        | d :: after =>
            if d = colon then do
              let (v, rest) ← scanValue F fuel depth (skipSpace after)
              let sofar := Entries.set sofar key v
              match skipSpace rest with
              | [] => .error .decode
              | d :: after =>
                  if d = closeBrace then .ok (sofar, after)
                  else if d = comma then scanMembers F fuel depth sofar (skipSpace after)
                  else .error .decode
            else .error .decode
      else .error .decode

end

/-- `json.loads(text)` with room for `depth` nested containers. -/
def loads (F : FloatText) (depth : Nat) (text : Str) : Except LoadsError Json :=
  if text.head? = some (cp 0xFEFF) then .error .decode
  else do
    let (v, rest) ← scanValue F (2 * text.length + 2) depth (skipSpace text)
    if (skipSpace rest).isEmpty then .ok v else .error .decode

/-- `json.detect_encoding` finds UTF-16 or UTF-32: a byte order mark of theirs, or
a null byte among the first. -/
def usesWideEncoding (data : Bytes) : Bool :=
  match data with
  | a :: b :: rest =>
      (a.val == 0xFE && b.val == 0xFF) || (a.val == 0xFF && b.val == 0xFE) ||
        ((rest.isEmpty || 2 ≤ rest.length) && (a.val == 0 || b.val == 0))
  | _ => false

/-- `bytes.decode` as `json.loads` calls it. `wide` decodes UTF-16 and UTF-32. -/
def decodeJsonBytes (wide : Bytes → Option Str) (data : Bytes) : Option Str :=
  if usesWideEncoding data then wide data
  else
    match data with
    | a :: b :: c :: rest =>
        if a.val = 0xEF ∧ b.val = 0xBB ∧ c.val = 0xBF then Utf8.decodeWith true rest
        else Utf8.decodeWith true data
    | _ => Utf8.decodeWith true data

end JsonText

end MediaBridge.Foundation
