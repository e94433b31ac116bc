import MediaBridge.Foundation.Unicode
import Mathlib.Data.List.Dedup
import Mathlib.Data.List.Sort

/-!
# Sanitization of converted text

`media_bridge/sanitizer.py`: references to the original media are replaced, and
a text in which one remains is refused.

## Implementation notes

Each regular expression is a function from the character before a position and
the text from there on to the length of a match, for `Str.substitute` and
`Str.search`. Their repetitions never need to give characters back, except that
a blob may leave its last padding letter out. `re.IGNORECASE` also equates the
four letters outside ASCII that fold to `i`, `s` and `k`. The iteration order of
a set of strings is a parameter.
-/

namespace MediaBridge.Core

open Foundation

/-- The order in which a Python set built from a list of strings is iterated. -/
structure SetOrder where
  arrange : List Str → List Str
  arrange_perm : ∀ l, (arrange l).Perm l.dedup

/-- The order of the members themselves. -/
theorem perm_dedup : ∀ l : List Str, l.dedup.Perm l.dedup := fun _ => .refl _

theorem SetOrder.mem_arrange (order : SetOrder) {l : List Str} {s : Str} :
    s ∈ order.arrange l ↔ s ∈ l := by
  rw [(order.arrange_perm l).mem_iff, List.mem_dedup]

namespace Sanitizer

/-- Why a text is not accepted. -/
inductive SanitizerError
  | valueError (message : String)
  | sanitizationError (message : String)
deriving DecidableEq

/-- A code point that matches a lower-case ASCII character under `re.IGNORECASE`. -/
def foldsTo (a c : CodePoint) : Bool :=
  decide (c.asciiLower = a) ||
    (decide (a = cp 105) && (decide (c = cp 0x130) || decide (c = cp 0x131))) ||
    (decide (a = cp 115) && decide (c = cp 0x17F)) ||
    (decide (a = cp 107) && decide (c = cp 0x212A))

/-- A letter or digit of the class `[a-z0-9]` under `re.IGNORECASE`. -/
def wordChar (c : CodePoint) : Bool :=
  c.isAsciiAlnum || decide (c ∈ [cp 0x130, cp 0x131, cp 0x17F, cp 0x212A])

/-- What follows a constant that is spelled in any case. -/
def dropConstant : Str → Str → Option Str
  | [], text => some text
  | _ :: _, [] => none
  | a :: pattern, c :: text => if foldsTo a c then dropConstant pattern text else none

/-- What follows one or more characters of a class. -/
def dropSome (chars : CodePoint → Bool) (text : Str) : Option Str :=
  match text with
  | [] => none
  | c :: rest => if chars c then some (rest.dropWhile chars) else none

/-- What follows any amount of white space. -/
def dropSpace (text : Str) : Str := text.dropWhile CodePoint.isSpace

/-- `[\x00-\x08\x0b\x0c\x0e-\x1f\x7f]`. -/
def isControl (c : CodePoint) : Bool :=
  c.val ≤ 8 || c.val == 11 || c.val == 12 || (14 ≤ c.val && c.val ≤ 31) || c.val == 127

/-- `[a-z0-9.+-]`. -/
def mimeChar (c : CodePoint) : Bool := wordChar c || decide (c ∈ lit ".+-")

/-- `[a-z0-9+/=_-]`. -/
def dataChar (c : CodePoint) : Bool := wordChar c || decide (c ∈ lit "+/=_-")

/-- `[a-z0-9+/_-]`. -/
def blobChar (c : CodePoint) : Bool := wordChar c || decide (c ∈ lit "+/_-")

/-- `_DATA_URL`. -/
def dataUrl (_ : Option CodePoint) (text : Str) : Option Nat := do
  let rest ← dropConstant (lit "data:") text
  let rest ← (dropConstant (lit "image/") rest >>= dropSome mimeChar).or
    (dropConstant (lit "application/pdf") rest)
  let rest ← dropConstant (lit ";base64,") rest
  let rest ← dropSome dataChar rest
  return text.length - rest.length

/-- `_BASE64_BLOB`. -/
def base64Blob (before : Option CodePoint) (text : Str) : Option Nat :=
  let run := (text.takeWhile blobChar).length
  let padding := ((text.drop run).takeWhile (· = cp 61)).length
  let taken := min padding 2
  if before.any blobChar || run < 128 then none
  else if ((text.drop (run + taken)).head?).any blobChar then some (run + (taken - 1))
  else some (run + taken)

/-- `_MEDIA_DATA_REFERENCE`. -/
def mediaDataReference (_ : Option CodePoint) (text : Str) : Option Nat := do
  let rest ← dropConstant (lit "data") text
  let rest ← dropConstant (lit ":") (dropSpace rest)
  let rest := dropSpace rest
  let rest ← (dropConstant (lit "image") rest >>= fun rest =>
      dropConstant (lit "/") (dropSpace rest)).or
    (dropConstant (lit "application") rest >>= fun rest =>
      dropConstant (lit "/") (dropSpace rest) >>= fun rest =>
        dropConstant (lit "pdf") (dropSpace rest))
  return text.length - rest.length

def removedReference : Str := lit "[removed-media-reference]"

def removedBinary : Str := lit "[removed-binary-data]"

/-- `normalized_locators`, as the set is iterated. -/
def normalizedLocators (U : UnicodeData) (order : SetOrder) (locators : List Str) : List Str :=
  order.arrange ((locators.filter fun l => !l.isEmpty).map U.nfkc)

/-- `sorted(normalized_locators, key=len, reverse=True)`. -/
def longestFirst (locators : List Str) : List Str :=
  locators.insertionSort fun a b => b.length ≤ a.length

/-- The text after all replacements, stripped. -/
def scrub (U : UnicodeData) (locators : List Str) (text : Str) : Str :=
  let cleaned := (U.nfkc text).filter fun c => !isControl c
  let replaced := (longestFirst locators).foldl
    (fun s locator => Str.replaceAll s locator removedReference) cleaned
  Str.strip (Str.substitute base64Blob removedBinary
    (Str.substitute dataUrl removedBinary replaced))

/-- What is left of a text without the two replacement texts. -/
def semanticText (text : Str) : Str :=
  (text.replaceAll removedReference []).replaceAll removedBinary []

end Sanitizer

open Sanitizer in
/-- `sanitize_model_text`. -/
def sanitizeModelText (U : UnicodeData) (order : SetOrder) (text : Str)
    (forbiddenLocators : List Str) (maxLength : Nat) : Except SanitizerError Str :=
  if maxLength < 1 then .error (.valueError "max_length must be positive")
  else
    let locators := normalizedLocators U order forbiddenLocators
    let sanitized := scrub U locators text
    if maxLength < sanitized.length then
      .error (.sanitizationError "sanitized text exceeds the configured limit")
    else if locators.any (Str.contains sanitized) then
      .error (.sanitizationError "original media locator remains after sanitization")
    else if Str.search mediaDataReference sanitized then
      .error (.sanitizationError "media reference remains after sanitization")
    else if Str.search dataUrl sanitized || Str.search base64Blob sanitized then
      .error (.sanitizationError "binary media reference remains after sanitization")
    else if !(semanticText sanitized).any U.isAlnum then
      .error (.sanitizationError "sanitization produced no safe text")
    else .ok sanitized

namespace Sanitizer

variable {U : UnicodeData} {order : SetOrder} {text sanitized : Str} {locators : List Str}
  {maxLength : Nat}

/-- The locators that must not remain do not depend on the order of a set. -/
theorem mem_normalizedLocators {locator : Str} :
    locator ∈ normalizedLocators U order locators ↔
      locator ∈ (locators.filter fun l => !l.isEmpty).map U.nfkc :=
  order.mem_arrange

/-- The conditions under which a text is accepted. -/
theorem sanitizeModelText_eq_ok_iff :
    sanitizeModelText U order text locators maxLength = .ok sanitized ↔
      scrub U (normalizedLocators U order locators) text = sanitized ∧ 1 ≤ maxLength ∧
        sanitized.length ≤ maxLength ∧
        (∀ locator ∈ normalizedLocators U order locators, ¬ locator <:+: sanitized) ∧
        Str.search mediaDataReference sanitized = false ∧
        Str.search dataUrl sanitized = false ∧ Str.search base64Blob sanitized = false ∧
        (semanticText sanitized).any U.isAlnum = true := by
  unfold sanitizeModelText
  constructor
  · intro h
    split at h
    · cases h
    next hmax =>
    simp only at h
    split at h
    · cases h
    next hlength =>
    split at h
    · cases h
    next hlocators =>
    split at h
    · cases h
    next hreference =>
    split at h
    · cases h
    next hbinary =>
    split at h
    · cases h
    next hsemantic =>
    cases h
    rw [Bool.not_eq_true, Bool.or_eq_false_iff] at hbinary
    refine ⟨rfl, by omega, by omega, ?_, by simpa using hreference, hbinary.1, hbinary.2,
      by simpa using hsemantic⟩
    intro locator hlocator hinfix
    exact hlocators (List.any_eq_true.mpr ⟨locator, hlocator, (Str.contains_iff _ _).mpr hinfix⟩)
  · rintro ⟨rfl, hmax, hlength, hlocators, hreference, hdata, hblob, hsemantic⟩
    have hnone : (normalizedLocators U order locators).any
        (Str.contains (scrub U (normalizedLocators U order locators) text)) = false := by
      rw [List.any_eq_false]
      intro locator hlocator hcontains
      exact hlocators locator hlocator ((Str.contains_iff _ _).mp hcontains)
    simp [hnone, hreference, hdata, hblob, hsemantic, Nat.not_lt.mpr hmax, Nat.not_lt.mpr hlength]

/-- What is known of a text that was accepted. -/
structure Safe (U : UnicodeData) (locators : List Str) (maxLength : Nat) (text : Str) :
    Prop where
  length_le : text.length ≤ maxLength
  noLocator : ∀ locator ∈ locators, locator ≠ [] → ¬ U.nfkc locator <:+: text
  noReference : Str.search mediaDataReference text = false
  noDataUrl : Str.search dataUrl text = false
  noBlob : Str.search base64Blob text = false
  semantic : (semanticText text).any U.isAlnum = true

/-- An accepted text is safe. -/
theorem safe_of_ok (h : sanitizeModelText U order text locators maxLength = .ok sanitized) :
    Safe U locators maxLength sanitized := by
  obtain ⟨-, -, hlength, hlocators, hreference, hdata, hblob, hsemantic⟩ :=
    sanitizeModelText_eq_ok_iff.mp h
  refine ⟨hlength, ?_, hreference, hdata, hblob, hsemantic⟩
  intro locator hlocator hne
  apply hlocators
  rw [mem_normalizedLocators]
  exact List.mem_map_of_mem (List.mem_filter.mpr ⟨hlocator, by simpa using hne⟩)

/-- A constant that starts the text up to ASCII case is found there. -/
theorem dropConstant_of_prefix {pattern text : Str} (h : pattern <+: Str.asciiLower text) :
    dropConstant pattern text = some (text.drop pattern.length) := by
  induction pattern generalizing text with
  | nil => rfl
  | cons a pattern ih =>
      cases text with
      | nil => simp [Str.asciiLower] at h
      | cons c text =>
          rw [Str.asciiLower, List.map_cons, List.cons_prefix_cons] at h
          have hfold : foldsTo a c = true := by simp [foldsTo, h.1]
          rw [dropConstant, if_pos hfold, ih h.2]
          rfl

/-- There is no white space in front of a constant that starts with a character. -/
theorem dropSpace_of_prefix {a : CodePoint} {pattern text : Str} (ha : a.isSpace = false)
    (h : a :: pattern <+: Str.asciiLower text) : dropSpace text = text := by
  cases text with
  | nil => rfl
  | cons c text =>
      rw [Str.asciiLower, List.map_cons, List.cons_prefix_cons] at h
      have hc : c.isSpace = false := by
        by_contra hspace
        have hlower : c.isAsciiUpper = false := by
          simp only [CodePoint.isSpace, Bool.not_eq_false, Bool.or_eq_true, Bool.and_eq_true,
            decide_eq_true_eq, beq_iff_eq] at hspace
          simp only [CodePoint.isAsciiUpper, Bool.and_eq_false_iff, decide_eq_false_iff_not]
          omega
        rw [h.1, CodePoint.asciiLower, hlower] at ha
        exact hspace ha
      rw [dropSpace, List.dropWhile_cons_of_neg (by simp [hc])]

/-- A text that does not start with white space, as a word of a constant. -/
def opensWord : Str → Bool
  | [] => false
  | c :: _ => !c.isSpace

/-- The first word of a constant is read, and the next one follows at once. -/
theorem read_word {word next text : Str} (hnext : opensWord next = true)
    (h : word ++ next <+: Str.asciiLower text) :
    dropConstant word text = some (text.drop word.length) ∧
      dropSpace (text.drop word.length) = text.drop word.length ∧
      next <+: Str.asciiLower (text.drop word.length) := by
  have hrest : next <+: Str.asciiLower (text.drop word.length) := by
    obtain ⟨tail, htail⟩ := h
    refine ⟨tail, ?_⟩
    calc
      next ++ tail = List.drop word.length (word ++ next ++ tail) := by
        rw [List.append_assoc, List.drop_left]
      _ = Str.asciiLower (text.drop word.length) := by
        rw [htail, Str.asciiLower, Str.asciiLower, List.map_drop]
  refine ⟨?_, ?_, hrest⟩
  · apply dropConstant_of_prefix
    exact List.IsPrefix.trans (List.prefix_append _ _) h
  · cases next with
    | nil => cases hnext
    | cons a pattern => exact dropSpace_of_prefix (by simpa [opensWord] using hnext) hrest

/-- A text that starts like a data URL of an image, in any case, refers to media. -/
theorem mediaDataReference_image {before : Option CodePoint} {text : Str}
    (h : lit "data" ++ (lit ":" ++ (lit "image" ++ lit "/")) <+: Str.asciiLower text) :
    (mediaDataReference before text).isSome = true := by
  obtain ⟨hdata, hspace, h⟩ := read_word (by decide) h
  obtain ⟨hcolon, hspace2, h⟩ := read_word (by decide) h
  obtain ⟨himage, hspace3, h⟩ := read_word (by decide) h
  have hslash := dropConstant_of_prefix h
  simp only [mediaDataReference, hdata, hspace, hcolon, hspace2, himage, hspace3, hslash,
    Option.bind_eq_bind, Option.bind_some, Option.some_or]
  rfl

/-- A text that starts like a data URL of a PDF, in any case, refers to media. -/
theorem mediaDataReference_pdf {before : Option CodePoint} {text : Str}
    (h : lit "data" ++ (lit ":" ++ (lit "application" ++ (lit "/" ++ lit "pdf"))) <+:
      Str.asciiLower text) :
    (mediaDataReference before text).isSome = true := by
  obtain ⟨hdata, hspace, h⟩ := read_word (by decide) h
  obtain ⟨hcolon, hspace2, h⟩ := read_word (by decide) h
  obtain ⟨happlication, hspace3, h⟩ := read_word (by decide) h
  obtain ⟨hslash, hspace4, h⟩ := read_word (by decide) h
  have hpdf := dropConstant_of_prefix h
  simp only [mediaDataReference, hdata, hspace, hcolon, hspace2, happlication, hspace3, hslash,
    hspace4, hpdf, Option.bind_eq_bind, Option.bind_some]
  generalize (dropConstant (lit "image") _).bind _ = image
  cases image with
  | none => rfl
  | some rest => rfl

theorem search_of_data_prefix {text : Str}
    (h : lit "data:image/" <+: Str.asciiLower text ∨
      lit "data:application/pdf" <+: Str.asciiLower text) :
    Str.search mediaDataReference text = true := by
  have hmatch : (mediaDataReference none text).isSome = true := by
    rcases h with h | h
    · exact mediaDataReference_image h
    · exact mediaDataReference_pdf h
  cases text with
  | nil => cases hmatch
  | cons c rest => exact Str.search_of_found hmatch

/-- A safe text does not start like a data URL of an image or a PDF. -/
theorem Safe.not_startsWith_data {locators : List Str} {maxLength : Nat} {text : Str}
    (h : Safe U locators maxLength text) :
    ¬ lit "data:image/" <+: U.lower text ∧ ¬ lit "data:application/pdf" <+: U.lower text := by
  constructor
  · intro hpre
    have hfound := search_of_data_prefix (.inl (U.asciiLower_of_lower _ _ (by decide) hpre))
    rw [h.noReference] at hfound
    cases hfound
  · intro hpre
    have hfound := search_of_data_prefix (.inr (U.asciiLower_of_lower _ _ (by decide) hpre))
    rw [h.noReference] at hfound
    cases hfound

end Sanitizer

end MediaBridge.Core
