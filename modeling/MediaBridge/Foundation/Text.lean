import Mathlib.Data.List.DropRight
import Mathlib.Data.List.Infix
import Mathlib.Data.List.TakeWhile

/-!
# Python strings

A Python `str` is a sequence of code points, and `json.loads` can put lone
surrogates into one. Program constants are written with `lit`; everything a
caller can choose is a `Str`.

## Implementation notes

Only the operations the modelled program calls are here. `substituteFrom` keeps
a count of code points still covered by the last match, so that it recurses on
the text itself and evaluates in the kernel.
-/

namespace MediaBridge.Foundation

/-- One element of a Python string, surrogates included. -/
abbrev CodePoint := Fin 0x110000

/-- A Python `str`. -/
abbrev Str := List CodePoint

/-- One element of a Python `bytes`. -/
abbrev Byte := Fin 256

/-- A Python `bytes`. -/
abbrev Bytes := List Byte

/-- Code points are compared by their numbers. -/
instance lawfulBEqCodePoint : @LawfulBEq CodePoint instBEqOfDecidableEq := inferInstance

/-- Texts are compared code point by code point. -/
instance lawfulBEqStr : @LawfulBEq Str List.instBEq := inferInstance

/-- Bytes can be written as numerals. -/
instance neZeroByte : @NeZero Nat Zero.ofOfNat0 256 := ⟨by decide⟩

/-- The code point with a given number; numbers past the last one wrap. -/
def cp (n : Nat) : CodePoint := ⟨n % 0x110000, Nat.mod_lt _ (by decide)⟩

/-- A string constant of the program. -/
def lit (s : String) : Str := s.toList.map fun c => cp c.toNat

namespace CodePoint

/-- The code points `unicodedata` calls surrogates; UTF-8 cannot encode them. -/
def isSurrogate (c : CodePoint) : Bool := 0xD800 ≤ c.val && c.val ≤ 0xDFFF

def isAscii (c : CodePoint) : Bool := c.val < 128

def isAsciiLower (c : CodePoint) : Bool := 97 ≤ c.val && c.val ≤ 122

def isAsciiUpper (c : CodePoint) : Bool := 65 ≤ c.val && c.val ≤ 90

def isAsciiDigit (c : CodePoint) : Bool := 48 ≤ c.val && c.val ≤ 57

def isAsciiAlpha (c : CodePoint) : Bool := c.isAsciiLower || c.isAsciiUpper

def isAsciiAlnum (c : CodePoint) : Bool := c.isAsciiAlpha || c.isAsciiDigit

/-- `str.isspace` on one code point: the whitespace of Unicode and the four
information separators. -/
def isSpace (c : CodePoint) : Bool :=
  (9 ≤ c.val && c.val ≤ 13) || (0x1C ≤ c.val && c.val ≤ 0x20) || c.val == 0x85 ||
    c.val == 0xA0 || c.val == 0x1680 || (0x2000 ≤ c.val && c.val ≤ 0x200A) ||
    c.val == 0x2028 || c.val == 0x2029 || c.val == 0x202F || c.val == 0x205F ||
    c.val == 0x3000

/-- ASCII lower-casing; other code points are left alone. -/
def asciiLower (c : CodePoint) : CodePoint :=
  if c.isAsciiUpper then cp (c.val + 32) else c

end CodePoint

namespace Str

/-- No lone surrogate: the string has a UTF-8 encoding. -/
def encodable (s : Str) : Bool := s.all fun c => !c.isSurrogate

/-- `needle in s`. -/
def contains (s needle : Str) : Bool := decide (needle <:+: s)

/-- `s.startswith(pre)`. -/
def startsWith (s pre : Str) : Bool := decide (pre <+: s)

/-- `s.strip()`. -/
def strip (s : Str) : Str :=
  (s.dropWhile CodePoint.isSpace).rdropWhile CodePoint.isSpace

/-- `s.map` of ASCII lower-casing. -/
def asciiLower (s : Str) : Str := s.map CodePoint.asciiLower

/-- `sep.join(parts)`. -/
def join (sep : Str) : List Str → Str
  | [] => []
  | [s] => s
  | s :: t :: rest => s ++ sep ++ join sep (t :: rest)

/-- Left-to-right substitution without overlap, the loop of `re.sub`. `found`
sees the code point before the current position and the text from there on, and
gives the length of a match; `skip` counts what the last match still covers. -/
def substituteFrom (found : Option CodePoint → Str → Option Nat) (new : Str) :
    Option CodePoint → Nat → Str → Str
  | _, _, [] => []
  | _, skip + 1, c :: rest => substituteFrom found new (some c) skip rest
  | before, 0, c :: rest =>
      match found before (c :: rest) with
      | some (n + 1) => new ++ substituteFrom found new (some c) n rest
      | _ => c :: substituteFrom found new (some c) 0 rest

/-- Replace every match of a pattern that never matches the empty text. -/
def substitute (found : Option CodePoint → Str → Option Nat) (new s : Str) : Str :=
  substituteFrom found new none 0 s

/-- `re.search` for a pattern that never matches the empty text. -/
def searchFrom (found : Option CodePoint → Str → Option Nat) : Option CodePoint → Str → Bool
  | _, [] => false
  | before, c :: rest =>
      (found before (c :: rest)).isSome || searchFrom found (some c) rest

/-- `re.search` over the whole text. -/
def search (found : Option CodePoint → Str → Option Nat) (s : Str) : Bool :=
  searchFrom found none s

/-- `s.replace(old, new)`. An empty `old` is found before, between and after all
characters. -/
def replaceAll (s old new : Str) : Str :=
  if old = [] then new ++ s.flatMap fun c => c :: new
  else substitute (fun _ text => if old <+: text then some old.length else none) new s

/-- `s.partition(sep)` for a one-character separator: the text before the first
`sep`, and the text after it when there is one. -/
def partitionAt (sep : CodePoint) : Str → Str × Option Str
  | [] => ([], none)
  | c :: rest =>
      if c = sep then ([], some rest)
      else
        let r := partitionAt sep rest
        (c :: r.1, r.2)

/-- `s.split(sep)` for a one-character separator. -/
def splitOn (sep : CodePoint) : Str → List Str
  | [] => [[]]
  | c :: rest =>
      if c = sep then [] :: splitOn sep rest
      else
        match splitOn sep rest with
        | [] => [[c]]
        | first :: others => (c :: first) :: others

/-- The code points that are not white space. -/
def solid (s : Str) : Str := s.filter fun c => !c.isSpace

theorem contains_iff (s needle : Str) : s.contains needle = true ↔ needle <:+: s := by
  simp [contains]

theorem startsWith_iff (s pre : Str) : s.startsWith pre = true ↔ pre <+: s := by
  simp [startsWith]

@[simp] theorem join_nil (sep : Str) : join sep [] = [] := rfl

@[simp] theorem join_singleton (sep s : Str) : join sep [s] = s := rfl

theorem join_cons_cons (sep s t : Str) (rest : List Str) :
    join sep (s :: t :: rest) = s ++ sep ++ join sep (t :: rest) := rfl

/-- A pattern that does not look back is applied to the rest of a text alone. -/
theorem substituteFrom_skip {found : Option CodePoint → Str → Option Nat} {new : Str}
    (hfound : ∀ before text, found before text = found none text) (before : Option CodePoint)
    (skip : Nat) (s : Str) :
    substituteFrom found new before skip s = substitute found new (s.drop skip) := by
  induction s generalizing before skip with
  | nil =>
      rw [List.drop_nil]
      rfl
  | cons c rest ih =>
      cases skip with
      | succ skip => exact ih (some c) skip
      | zero => rw [List.drop_zero, substitute, substituteFrom, substituteFrom, hfound before]

theorem substitute_cons {found : Option CodePoint → Str → Option Nat} {new : Str}
    (hfound : ∀ before text, found before text = found none text) (c : CodePoint) (rest : Str) :
    substitute found new (c :: rest) =
      match found none (c :: rest) with
      | some (n + 1) => new ++ substitute found new (rest.drop n)
      | _ => c :: substitute found new rest := by
  rw [substitute, substituteFrom]
  split
  · next n hmatch => rw [substituteFrom_skip hfound]
  · next hmatch => rw [substituteFrom_skip hfound, List.drop_zero]

/-- A match at the start of a text, up to the rest. -/
theorem substitute_of_found {found : Option CodePoint → Str → Option Nat} {new s after : Str}
    (hfound : ∀ before text, found before text = found none text) (hafter : after <:+ s)
    (hlt : after.length < s.length) (h : found none s = some (s.length - after.length)) :
    substitute found new s = new ++ substitute found new after := by
  cases s with
  | nil => cases hlt
  | cons c rest =>
      obtain ⟨n, hn⟩ : ∃ n, (c :: rest).length - after.length = n + 1 :=
        Nat.exists_eq_add_one.mpr (Nat.sub_pos_of_lt hlt)
      have hdrop : rest.drop n = after := by
        rw [List.suffix_iff_eq_drop.mp hafter, hn]
        rfl
      rw [substitute_cons hfound, h, hn]
      simp only [hdrop]

/-- A text in which a pattern is nowhere found stays as it is. -/
theorem substitute_eq_self {found : Option CodePoint → Str → Option Nat} (new : Str) {s : Str}
    (h : ∀ before text, text <:+ s → found before text = none) : substitute found new s = s := by
  suffices hfrom : ∀ before, substituteFrom found new before 0 s = s from hfrom none
  induction s with
  | nil => exact fun _ => rfl
  | cons c rest ih =>
      intro before
      rw [substituteFrom, h before _ (List.suffix_refl _)]
      exact congrArg (c :: ·) (ih (fun b t ht => h b t (ht.trans (List.suffix_cons c rest))) _)

/-- A text without the separator is one piece. -/
theorem splitOn_of_notMem {sep : CodePoint} {s : Str} (h : sep ∉ s) : splitOn sep s = [s] := by
  induction s with
  | nil => rfl
  | cons c rest ih =>
      rw [List.mem_cons, not_or] at h
      rw [splitOn, if_neg (Ne.symm h.1), ih h.2]

/-- The first piece ends at the first separator. -/
theorem splitOn_append_cons {sep : CodePoint} {s : Str} (h : sep ∉ s) (rest : Str) :
    splitOn sep (s ++ sep :: rest) = s :: splitOn sep rest := by
  induction s with
  | nil => simp [splitOn]
  | cons c s ih =>
      rw [List.mem_cons, not_or] at h
      rw [List.cons_append, splitOn, if_neg (Ne.symm h.1), ih h.2]

/-- A text without white space is not stripped. -/
theorem strip_of_forall_not_isSpace {s : Str} (h : ∀ c ∈ s, c.isSpace = false) :
    s.strip = s := by
  have hdrop : s.dropWhile CodePoint.isSpace = s := by
    rw [List.dropWhile_eq_self_iff]
    intro hl
    simpa using h _ (List.getElem_mem hl)
  rw [strip, hdrop, List.rdropWhile_eq_self_iff]
  intro hne
  simpa using h _ (List.getLast_mem hne)

/-- The first separator is found. -/
theorem partitionAt_append_cons {sep : CodePoint} {s : Str} (h : sep ∉ s) (rest : Str) :
    partitionAt sep (s ++ sep :: rest) = (s, some rest) := by
  induction s with
  | nil => simp [partitionAt]
  | cons c s ih =>
      rw [List.mem_cons, not_or] at h
      rw [List.cons_append, partitionAt, if_neg (Ne.symm h.1), ih h.2]

/-- Stripping only removes text at the two ends. -/
theorem strip_isInfix (s : Str) : s.strip <:+: s :=
  (List.rdropWhile_prefix _ _).isInfix.trans (List.dropWhile_suffix _).isInfix

/-- A pattern that matches at the start of a text is found by a search. -/
theorem search_of_found {found : Option CodePoint → Str → Option Nat} {c : CodePoint}
    {rest : Str} (h : (found none (c :: rest)).isSome = true) :
    search found (c :: rest) = true := by
  simp [search, searchFrom, h]

theorem solid_append (s t : Str) : solid (s ++ t) = solid s ++ solid t :=
  List.filter_append ..

private theorem filter_dropWhile_space (s : Str) :
    (s.dropWhile CodePoint.isSpace).filter (fun c => !c.isSpace) =
      s.filter fun c => !c.isSpace := by
  induction s with
  | nil => rfl
  | cons c rest ih =>
      by_cases h : c.isSpace = true
      · simpa [List.dropWhile_cons, h] using ih
      · simp [h]

/-- Stripping keeps every character that is not white space. -/
theorem solid_strip (s : Str) : solid s.strip = solid s := by
  simp only [solid, strip, List.rdropWhile, List.filter_reverse, filter_dropWhile_space,
    List.reverse_reverse]

/-- A text that is blank after stripping has no visible character. -/
theorem strip_eq_nil_iff (s : Str) : s.strip = [] ↔ solid s = [] := by
  constructor
  · intro h
    rw [← solid_strip, h]
    rfl
  · intro h
    have hall : ∀ c ∈ s, c.isSpace = true := by
      simpa [solid, List.filter_eq_nil_iff] using h
    have hd : s.dropWhile CodePoint.isSpace = [] :=
      List.dropWhile_eq_nil_iff.mpr hall
    simp [strip, hd]

/-- ASCII text has a UTF-8 encoding. -/
theorem encodable_of_ascii {s : Str} (h : ∀ c ∈ s, c.isAscii = true) : s.encodable = true := by
  simp only [encodable, List.all_eq_true]
  intro c hc
  have hlt : c.val < 128 := by simpa [CodePoint.isAscii] using h c hc
  simp only [CodePoint.isSurrogate, Bool.not_eq_true', Bool.and_eq_false_iff,
    decide_eq_false_iff_not]
  omega

end Str

end MediaBridge.Foundation
