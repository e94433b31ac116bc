import MediaBridge.Foundation.Unicode

/-!
# `urllib.parse.urlsplit`

The split of a URL into scheme, network location, path, query and fragment,
with the two checks that make it raise `ValueError`: brackets that do not hold
an IPv6 or IPvFuture address, and a network location that normalises into
delimiters.

## Implementation notes

The result keeps what the modelled program reads. `ipaddress` is followed only
as far as acceptance goes: the number an address stands for is never used.
-/

namespace MediaBridge.Foundation

/-- The result of `urlsplit`. -/
structure SplitResult where
  scheme : Str
  netloc : Str
  path : Str
  query : Str
  fragment : Str
deriving DecidableEq

namespace UrlSplit

def colon : CodePoint := cp 58
def slash : CodePoint := cp 47
def question : CodePoint := cp 63
def hash : CodePoint := cp 35
def atSign : CodePoint := cp 64
def openBracket : CodePoint := cp 91
def closeBracket : CodePoint := cp 93
def percent : CodePoint := cp 37
def dot : CodePoint := cp 46

/-- `s.rpartition(sep)[2]`: the text after the last `sep`, or all of it. -/
def afterLast (sep : CodePoint) (s : Str) : Str := s.rtakeWhile (· ≠ sep)

def isHexDigit (c : CodePoint) : Bool :=
  c.isAsciiDigit || (65 ≤ c.val && c.val ≤ 70) || (97 ≤ c.val && c.val ≤ 102)

/-- `_parse_hextet` accepts. -/
def isHextet (s : Str) : Bool := !s.isEmpty && s.length ≤ 4 && s.all isHexDigit

/-- The number an all-digit text stands for. -/
def decimalValue (s : Str) : Nat := s.foldl (fun n c => n * 10 + (c.val - 48)) 0

/-- `_parse_octet` accepts. -/
def isOctet (s : Str) : Bool :=
  !s.isEmpty && s.all CodePoint.isAsciiDigit && s.length ≤ 3 &&
    (s == lit "0" || s.head? != some (cp 48)) && decimalValue s ≤ 255

/-- `ipaddress.IPv4Address(s)` succeeds. -/
def isIPv4Address (s : Str) : Bool :=
  let octets := Str.splitOn dot s
  octets.length == 4 && octets.all isOctet

/-- The parts of an address after its IPv4 suffix, if it has one, became two
hextets. `none`: the suffix is not an IPv4 address. -/
def withoutIPv4Suffix (parts : List Str) : Option (List Str) :=
  match parts.getLast? with
  | some last =>
      if last.elem dot then
        if isIPv4Address last then some (parts.dropLast ++ [lit "0", lit "0"]) else none
      else some parts
  | none => some parts

/-- One side of a `::`: the hextets, unless an endpoint is empty next to others. -/
def sideOfSkip (endpoint : Str) (inner : List Str) : Option (List Str) :=
  if endpoint.isEmpty then (if inner.isEmpty then some [] else none)
  else some (endpoint :: inner)

/-- `_ip_int_from_string` accepts the parts. -/
def hextetsAccepted (parts : List Str) : Bool :=
  let inner := parts.tail.dropLast
  if inner.any List.isEmpty then
    let before := inner.takeWhile (!·.isEmpty)
    let after := (inner.dropWhile (!·.isEmpty)).tail
    match sideOfSkip (parts.headD []) before, sideOfSkip (parts.getLastD []) after with
    | some high, some low =>
        !after.any List.isEmpty && high.length + low.length ≤ 7 &&
          high.all isHextet && low.all isHextet
    | _, _ => false
  else parts.length == 8 && parts.all isHextet

/-- `ipaddress.IPv6Address(s)` succeeds. -/
def isIPv6Address (s : Str) : Bool :=
  let parted := Str.partitionAt percent s
  let scopeAccepted :=
    match parted.2 with
    | none => true
    | some zone => !zone.isEmpty && !zone.elem percent
  let parts := Str.splitOn colon parted.1
  scopeAccepted && 3 ≤ parts.length &&
    match withoutIPv4Suffix parts with
    | some hextets => hextets.length ≤ 9 && hextetsAccepted hextets
    | none => false

/-- `\Av[a-fA-F0-9]+\..+\Z`. -/
def isIPvFuture (s : Str) : Bool :=
  let version := Str.partitionAt dot (s.drop 1)
  s.head? == some (cp 118) && !version.1.isEmpty && version.1.all isHexDigit &&
    match version.2 with
    | some address => !address.isEmpty && !address.elem (cp 10)
    | none => false

/-- `_check_bracketed_host` does not raise. -/
def bracketedHostAccepted (host : Str) : Bool :=
  if host.head? == some (cp 118) then isIPvFuture host else isIPv6Address host

/-- `_check_bracketed_netloc` does not raise. -/
def bracketedNetlocAccepted (netloc : Str) : Bool :=
  let hostinfo := afterLast atSign netloc
  match Str.partitionAt openBracket hostinfo with
  | (before, some bracketed) =>
      let inside := Str.partitionAt closeBracket bracketed
      let port := inside.2.getD []
      before.isEmpty && (port.isEmpty || port.head? == some colon) &&
        bracketedHostAccepted inside.1
  | (_, none) => bracketedHostAccepted (Str.partitionAt colon hostinfo).1

/-- The brackets of a network location are absent or hold an address. -/
def bracketsAccepted (netloc : Str) : Bool :=
  if netloc.elem openBracket && netloc.elem closeBracket then
    bracketedNetlocAccepted netloc
  else !netloc.elem openBracket && !netloc.elem closeBracket

/-- `_checknetloc` does not raise. -/
def netlocAccepted (U : UnicodeData) (netloc : Str) : Bool :=
  if netloc.isEmpty || netloc.all CodePoint.isAscii then true
  else
    let bare := netloc.filter fun c => !(c == atSign || c == colon || c == hash || c == question)
    let normal := U.nfkc bare
    normal == bare ||
      !normal.any fun c => c == slash || c == question || c == hash || c == atSign || c == colon

/-- `url.lstrip(_WHATWG_C0_CONTROL_OR_SPACE)` and the removal of tabs and line
breaks. -/
def cleaned (url : Str) : Str :=
  (url.dropWhile fun c => c.val ≤ 32).filter fun c =>
    !(c == cp 9 || c == cp 13 || c == cp 10)

def isSchemeChar (c : CodePoint) : Bool :=
  c.isAsciiAlnum || c == cp 43 || c == cp 45 || c == cp 46

/-- The scheme in lower case and the text after it. -/
def splitScheme (url : Str) : Str × Str :=
  match Str.partitionAt colon url with
  | (c :: before, some rest) =>
      if c.isAsciiAlpha && (c :: before).all isSchemeChar then
        (Str.asciiLower (c :: before), rest)
      else ([], url)
  | _ => ([], url)

/-- `_splitnetloc` after `//`: the network location and the text after it. -/
def splitNetloc (rest : Str) : Str × Str :=
  let inNetloc := fun c : CodePoint => !(c == slash || c == question || c == hash)
  (rest.takeWhile inNetloc, rest.dropWhile inNetloc)

/-- `urlsplit(url)`; `none` is a `ValueError`. -/
def urlsplit (U : UnicodeData) (url : Str) : Option SplitResult :=
  let (scheme, rest) := splitScheme (cleaned url)
  let (netloc, rest) :=
    if Str.startsWith rest [slash, slash] then splitNetloc (rest.drop 2) else ([], rest)
  if bracketsAccepted netloc && netlocAccepted U netloc then
    let (rest, fragment) := Str.partitionAt hash rest
    let (path, query) := Str.partitionAt question rest
    some ⟨scheme, netloc, path, query.getD [], fragment.getD []⟩
  else none

end UrlSplit

namespace SplitResult

open UrlSplit

/-- `username is not None` or `password is not None`. -/
def hasUserinfo (r : SplitResult) : Bool := r.netloc.elem atSign

/-- The host part of `_hostinfo`; `hostname is None` when it is empty. -/
def hostText (r : SplitResult) : Str :=
  let hostinfo := afterLast atSign r.netloc
  match (Str.partitionAt openBracket hostinfo).2 with
  | some bracketed => (Str.partitionAt closeBracket bracketed).1
  | none => (Str.partitionAt colon hostinfo).1

end SplitResult

namespace UrlSplit

example : urlsplit (.ascii id) (lit "HTTPS://h:1/p?q#f") =
    some ⟨lit "https", lit "h:1", lit "/p", lit "q", lit "f"⟩ := by decide

example : urlsplit (.ascii id) (lit "https://[::1]:443/x") =
    some ⟨lit "https", lit "[::1]:443", lit "/x", [], []⟩ := by decide

example : urlsplit (.ascii id) (lit "https://[v/") = none := by decide

end UrlSplit

end MediaBridge.Foundation
