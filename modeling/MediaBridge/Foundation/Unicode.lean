import MediaBridge.Foundation.Text

/-!
# The Unicode database behind Python's string methods

Normalisation, lower-casing and the alphanumeric class come from the character
database of the interpreter. They are parameters here, with the facts about
ASCII that the modelled program relies on.

## Implementation notes

Lower-casing is given per code point. The one context rule of the standard, the
final sigma, chooses between two letters outside ASCII, and the program only
compares lower-cased text with ASCII constants.
-/

namespace MediaBridge.Foundation

/-- The character data of one Unicode version. -/
structure UnicodeData where
  /-- `unicodedata.normalize("NFKC", s)`. -/
  nfkc : Str → Str
  /-- `c.isalnum()`. -/
  isAlnum : CodePoint → Bool
  /-- `c.lower()`, which may have more than one code point. -/
  lowerPoint : CodePoint → Str
  /-- ASCII letters lower-case as in ASCII. -/
  lowerPoint_ascii : ∀ c : CodePoint, c.isAscii = true → lowerPoint c = [c.asciiLower]
  /-- Capital I with dot above lower-cases to `i` and a combining dot. -/
  lowerPoint_dotted : lowerPoint (cp 0x130) = [cp 105, cp 0x307]
  /-- The Kelvin sign lower-cases to `k`. -/
  lowerPoint_kelvin : lowerPoint (cp 0x212A) = [cp 107]
  /-- No other code point lower-cases into ASCII. -/
  lowerPoint_other : ∀ c : CodePoint, c.isAscii = false → c ≠ cp 0x130 → c ≠ cp 0x212A →
    lowerPoint c ≠ [] ∧ ∀ d ∈ lowerPoint c, d.isAscii = false

namespace UnicodeData

/-- `s.lower()`. -/
def lower (U : UnicodeData) (s : Str) : Str := s.flatMap U.lowerPoint

/-- An ASCII constant without `k` that does not end in `i`: no letter outside
ASCII can complete it by lower-casing. -/
def plainConstant : Str → Bool
  | [] => true
  | [c] => c.isAscii && decide (c ≠ cp 107) && decide (c ≠ cp 105)
  | c :: d :: rest => c.isAscii && decide (c ≠ cp 107) && plainConstant (d :: rest)

/-- A lower-cased text starts with such a constant only when the text itself
does, up to ASCII case. -/
theorem asciiLower_of_lower (U : UnicodeData) (pre s : Str) (hp : plainConstant pre = true)
    (h : pre <+: U.lower s) : pre <+: Str.asciiLower s := by
  induction pre generalizing s with
  | nil => exact List.nil_prefix
  | cons a pre ih =>
      have ha : a.isAscii = true ∧ a ≠ cp 107 ∧ (pre = [] → a ≠ cp 105) ∧
          plainConstant pre = true := by
        cases pre with
        | nil => simpa [plainConstant, and_assoc] using hp
        | cons b rest => simpa [plainConstant, and_assoc] using hp
      obtain ⟨hascii, hk, hi, htail⟩ := ha
      cases s with
      | nil => simp [lower] at h
      | cons c s =>
          have hl : U.lower (c :: s) = U.lowerPoint c ++ U.lower s := by simp [lower]
          rw [hl] at h
          by_cases hc : c.isAscii = true
          · rw [U.lowerPoint_ascii c hc, List.singleton_append, List.cons_prefix_cons] at h
            obtain ⟨heq, hrest⟩ := h
            simp only [Str.asciiLower, List.map_cons, List.cons_prefix_cons]
            exact ⟨heq, ih s htail hrest⟩
          · exfalso
            by_cases hdot : c = cp 0x130
            · rw [hdot, U.lowerPoint_dotted, List.cons_append, List.cons_prefix_cons] at h
              obtain ⟨rfl, hrest⟩ := h
              cases pre with
              | nil => exact hi rfl rfl
              | cons b rest =>
                  rw [List.singleton_append, List.cons_prefix_cons] at hrest
                  have hb : b.isAscii = true := by
                    cases rest <;> simp_all [plainConstant]
                  rw [hrest.1] at hb
                  exact absurd hb (by decide)
            · by_cases hkel : c = cp 0x212A
              · rw [hkel, U.lowerPoint_kelvin, List.singleton_append,
                  List.cons_prefix_cons] at h
                exact hk h.1
              · obtain ⟨hne, hall⟩ := U.lowerPoint_other c (by simpa using hc) hdot hkel
                cases hlow : U.lowerPoint c with
                | nil => exact hne hlow
                | cons d more =>
                    rw [hlow, List.cons_append, List.cons_prefix_cons] at h
                    have hd := hall d (by simp [hlow])
                    rw [← h.1, hascii] at hd
                    cases hd

/-- An ASCII text that starts a text up to ASCII case starts it lower-cased. -/
theorem lower_of_asciiLower (U : UnicodeData) (pre s : Str)
    (hp : ∀ c ∈ pre, c.isAscii = true) (h : pre <+: Str.asciiLower s) : pre <+: U.lower s := by
  induction pre generalizing s with
  | nil => exact List.nil_prefix
  | cons a pre ih =>
      cases s with
      | nil => simp [Str.asciiLower] at h
      | cons c s =>
          rw [Str.asciiLower, List.map_cons, List.cons_prefix_cons] at h
          obtain ⟨rfl, hrest⟩ := h
          have hc : c.isAscii = true := by
            have hlower := hp _ List.mem_cons_self
            unfold CodePoint.asciiLower at hlower
            split at hlower
            · next hupper =>
                simp only [CodePoint.isAsciiUpper, Bool.and_eq_true, decide_eq_true_eq] at hupper
                simp only [CodePoint.isAscii, decide_eq_true_eq]
                omega
            · exact hlower
          change c.asciiLower :: pre <+: U.lowerPoint c ++ U.lower s
          rw [U.lowerPoint_ascii c hc, List.singleton_append, List.cons_prefix_cons]
          exact ⟨rfl, ih s (fun d hd => hp d (List.mem_cons_of_mem _ hd)) hrest⟩

theorem isAscii_of_plainConstant {pre : Str} (h : plainConstant pre = true) :
    ∀ c ∈ pre, c.isAscii = true := by
  induction pre with
  | nil => exact List.forall_mem_nil _
  | cons a pre ih =>
      cases pre with
      | nil =>
          simp only [plainConstant, Bool.and_eq_true] at h
          exact List.forall_mem_singleton.mpr h.1.1
      | cons b rest =>
          simp only [plainConstant, Bool.and_eq_true] at h
          exact List.forall_mem_cons.mpr ⟨h.1.1, ih h.2⟩

/-- Such a constant starts a lower-cased text in any version of the database or in none. -/
theorem prefix_lower_iff (U V : UnicodeData) {pre : Str} (hp : plainConstant pre = true) (s : Str) :
    pre <+: U.lower s ↔ pre <+: V.lower s := by
  have hascii := isAscii_of_plainConstant hp
  constructor
  · exact fun h => V.lower_of_asciiLower pre s hascii (U.asciiLower_of_lower pre s hp h)
  · exact fun h => U.lower_of_asciiLower pre s hascii (V.asciiLower_of_lower pre s hp h)

/-- Lower-casing as far as ASCII goes, with the two letters that reach into it. -/
def asciiLowerPoint (c : CodePoint) : Str :=
  if c = cp 0x130 then [cp 105, cp 0x307]
  else if c = cp 0x212A then [cp 107]
  else [c.asciiLower]

/-- Character data that is right on ASCII text, with a given normalisation. It
serves to run the model on concrete ASCII inputs. -/
def ascii (nfkc : Str → Str) : UnicodeData where
  nfkc := nfkc
  isAlnum := CodePoint.isAsciiAlnum
  lowerPoint := asciiLowerPoint
  lowerPoint_ascii := by
    intro c hc
    have h1 : c ≠ cp 0x130 := by rintro rfl; exact absurd hc (by decide)
    have h2 : c ≠ cp 0x212A := by rintro rfl; exact absurd hc (by decide)
    simp [asciiLowerPoint, h1, h2]
  lowerPoint_dotted := by decide
  lowerPoint_kelvin := by decide
  lowerPoint_other := by
    intro c hc h1 h2
    have hup : c.isAsciiUpper = false := by
      simp only [CodePoint.isAscii, decide_eq_false_iff_not] at hc
      simp only [CodePoint.isAsciiUpper, Bool.and_eq_false_iff, decide_eq_false_iff_not]
      omega
    simp [asciiLowerPoint, h1, h2, CodePoint.asciiLower, hup, hc]

end UnicodeData

end MediaBridge.Foundation
