import MediaBridge.Foundation.JsonText

/-!
# Reading back what was written

`json.loads` gives back the value that `json.dumps` wrote, for every value
without floats whose keys are unique and whose strings have no lone surrogates.

## Implementation notes

Each scanner is applied to a text followed by an arbitrary rest. A number ends
only where the rest does not continue it, so that a rest is asked to start with
a delimiter; every rest inside a container does.
-/

namespace MediaBridge.Foundation.JsonText

theorem cp_val_of_lt {n : Nat} (h : n < 0x110000) : (cp n).val = n := Nat.mod_eq_of_lt h

theorem digitLetter_val {d : Nat} (h : d < 10) : (digitLetter d).val = 48 + d :=
  cp_val_of_lt (by omega)

theorem isAsciiDigit_digitLetter {d : Nat} (h : d < 10) :
    (digitLetter d).isAsciiDigit = true := by
  simp only [CodePoint.isAsciiDigit, digitLetter_val h, Bool.and_eq_true, decide_eq_true_eq]
  omega

theorem decimalDigits_isDigit (fuel n : Nat) :
    ∀ c ∈ decimalDigits fuel n, c.isAsciiDigit = true := by
  induction fuel generalizing n with
  | zero => simp [decimalDigits]
  | succ fuel ih =>
      intro c hc
      rw [decimalDigits] at hc
      split at hc
      · rename_i h
        rw [List.mem_singleton.mp hc]
        exact isAsciiDigit_digitLetter h
      · rcases List.mem_append.mp hc with hc | hc
        · exact ih _ c hc
        · rw [List.mem_singleton.mp hc]
          exact isAsciiDigit_digitLetter (Nat.mod_lt _ (by decide))

theorem digitsValue_append (s t : Str) :
    digitsValue (s ++ t) = t.foldl (fun n c => n * 10 + (c.val - 48)) (digitsValue s) :=
  List.foldl_append

/-- The digits of a number stand for the number. -/
theorem digitsValue_decimalDigits {fuel n : Nat} (h : n < fuel) :
    digitsValue (decimalDigits fuel n) = n := by
  induction fuel generalizing n with
  | zero => cases h
  | succ fuel ih =>
      rw [decimalDigits]
      split
      · rename_i hlt
        simp [digitsValue, digitLetter_val hlt]
      · rename_i hge
        have hdiv : n / 10 < fuel := by omega
        have hmod : n % 10 < 10 := Nat.mod_lt _ (by decide)
        rw [digitsValue_append, ih hdiv]
        simp only [List.foldl_cons, List.foldl_nil, digitLetter_val hmod]
        omega

theorem digitsValue_natText (n : Nat) : digitsValue (natText n) = n :=
  digitsValue_decimalDigits (Nat.lt_succ_self n)

/-- The first digit is zero for zero only. -/
theorem decimalDigits_head {fuel n : Nat} (h : n < fuel) :
    ∃ c rest, decimalDigits fuel n = c :: rest ∧ c.isAsciiDigit = true ∧
      (c = cp 48 → rest = []) := by
  induction fuel generalizing n with
  | zero => cases h
  | succ fuel ih =>
      rw [decimalDigits]
      split
      · rename_i hlt
        exact ⟨_, [], rfl, isAsciiDigit_digitLetter hlt, fun _ => rfl⟩
      · rename_i hge
        obtain ⟨c, rest, heq, hdigit, hzero⟩ := ih (n := n / 10) (by omega)
        refine ⟨c, rest ++ [digitLetter (n % 10)], by rw [heq]; rfl, hdigit, fun hc => ?_⟩
        have hvalue : digitsValue (decimalDigits fuel (n / 10)) = n / 10 :=
          digitsValue_decimalDigits (by omega)
        rw [heq, hzero hc, hc] at hvalue
        have hnone : digitsValue [cp 48] = 0 := by decide
        omega

theorem natText_head (n : Nat) :
    ∃ c rest, natText n = c :: rest ∧ c.isAsciiDigit = true ∧ (c = cp 48 → rest = []) :=
  decimalDigits_head (Nat.lt_succ_self n)

theorem natText_isDigit (n : Nat) : ∀ c ∈ natText n, c.isAsciiDigit = true :=
  decimalDigits_isDigit _ _

/-- The text goes on with a delimiter, or ends. -/
def Delimited (rest : Str) : Prop :=
  ∀ c ∈ rest.head?, c = comma ∨ c = closeBracket ∨ c = closeBrace

theorem delimited_nil : Delimited [] := by
  intro c hc
  cases hc

theorem delimited_comma (rest : Str) : Delimited (comma :: rest) := by
  intro c hc
  cases hc
  exact .inl rfl

theorem delimited_closeBracket (rest : Str) : Delimited (closeBracket :: rest) := by
  intro c hc
  cases hc
  exact .inr (.inl rfl)

theorem delimited_closeBrace (rest : Str) : Delimited (closeBrace :: rest) := by
  intro c hc
  cases hc
  exact .inr (.inr rfl)

theorem Delimited.not_digit {rest : Str} (h : Delimited rest) :
    rest.takeWhile CodePoint.isAsciiDigit = [] := by
  cases rest with
  | nil => rfl
  | cons c rest =>
      rcases h c rfl with rfl | rfl | rfl <;> rfl

theorem takeWhile_digits_append {digits rest : Str}
    (hdigits : ∀ c ∈ digits, c.isAsciiDigit = true)
    (hrest : rest.takeWhile CodePoint.isAsciiDigit = []) :
    (digits ++ rest).takeWhile CodePoint.isAsciiDigit = digits := by
  rw [List.takeWhile_append_of_pos hdigits, hrest, List.append_nil]

theorem dropWhile_digits_append {digits rest : Str}
    (hdigits : ∀ c ∈ digits, c.isAsciiDigit = true)
    (hrest : rest.takeWhile CodePoint.isAsciiDigit = []) :
    (digits ++ rest).dropWhile CodePoint.isAsciiDigit = rest := by
  have hsplit := List.takeWhile_append_dropWhile (p := CodePoint.isAsciiDigit)
    (l := digits ++ rest)
  rw [takeWhile_digits_append hdigits hrest] at hsplit
  exact List.append_cancel_left hsplit

theorem scanInteger_natText (n : Nat) {rest : Str}
    (hrest : rest.takeWhile CodePoint.isAsciiDigit = []) :
    scanInteger (natText n ++ rest) = some (natText n, rest) := by
  obtain ⟨c, more, heq, hdigit, hzero⟩ := natText_head n
  have hall := natText_isDigit n
  rw [heq] at hall ⊢
  rw [List.cons_append, scanInteger]
  split
  · rename_i hc
    rw [hzero hc]
    rfl
  · have hmore : ∀ d ∈ more, d.isAsciiDigit = true := fun d hd =>
      hall d (List.mem_cons_of_mem _ hd)
    simp only [takeWhile_digits_append hmore hrest, dropWhile_digits_append hmore hrest]

theorem scanFraction_delimited {rest : Str} (h : Delimited rest) :
    scanFraction rest = ([], rest) := by
  cases rest with
  | nil => rfl
  | cons c rest =>
      rw [scanFraction]
      rcases h c rfl with rfl | rfl | rfl <;>
        exact if_neg fun hc => absurd hc.1 (by decide)

theorem scanExponent_delimited {rest : Str} (h : Delimited rest) :
    scanExponent rest = ([], rest) := by
  cases rest with
  | nil => rfl
  | cons c rest =>
      rw [scanExponent]
      rcases h c rfl with rfl | rfl | rfl <;>
        exact if_neg (by decide)

theorem integerValue_natText (negative : Bool) {n : Nat} (h : tooLong n = false) :
    integerValue negative (natText n) =
      .ok (.int (if negative then -(n : Int) else n)) := by
  have hlen : ¬ maxIntDigits < (natText n).length := by simpa [tooLong] using h
  rw [integerValue, if_neg hlen, digitsValue_natText]

/-- An integer is read back, digit for digit. -/
theorem scanNumber_intText (F : FloatText) {n : Int} (h : tooLong n.natAbs = false)
    {rest : Str} (hrest : Delimited rest) :
    scanNumber F (intText n ++ rest) = .ok (.int n, rest) := by
  cases n with
  | ofNat n =>
      have hlong : tooLong n = false := h
      have hhead : ((natText n ++ rest).head? == some (cp 45)) = false := by
        obtain ⟨c, more, heq, hdigit, -⟩ := natText_head n
        rw [heq, List.cons_append, List.head?_cons, Option.some_beq_some,
          beq_eq_false_iff_ne]
        rintro rfl
        exact absurd hdigit (by decide)
      have hscan := scanInteger_natText n hrest.not_digit
      simp only [scanNumber, intText, hhead, Bool.false_eq_true, if_false, hscan,
        scanFraction_delimited hrest, scanExponent_delimited hrest, List.isEmpty_nil,
        Bool.and_self, if_true, integerValue_natText false hlong]
      rfl
  | negSucc n =>
      have hscan := scanInteger_natText (n + 1) hrest.not_digit
      have hlong : tooLong (n + 1) = false := h
      simp only [scanNumber, intText, List.cons_append, List.head?_cons, List.tail_cons,
        beq_self_eq_true, if_true, hscan, scanFraction_delimited hrest,
        scanExponent_delimited hrest, List.isEmpty_nil, Bool.and_self,
        integerValue_natText true hlong]
      rfl

theorem hexValue_hexLetter {d : Nat} (h : d < 16) : hexValue (hexLetter d) = some d := by
  have hall : ∀ d : Fin 16, hexValue (hexLetter d.val) = some d.val := by decide
  exact hall ⟨d, h⟩

theorem hexValue4_hexLetters {v : Nat} (h : v < 0x10000) :
    hexValue4 (hexLetter (v / 4096 % 16)) (hexLetter (v / 256 % 16))
      (hexLetter (v / 16 % 16)) (hexLetter (v % 16)) = some v := by
  simp only [hexValue4, hexValue_hexLetter (Nat.mod_lt _ (by decide : 0 < 16)),
    Option.bind_eq_bind, Option.bind_some, Option.pure_def, Option.some.injEq]
  omega

theorem scanString_plain {c : CodePoint} (rest : Str) (hq : c ≠ quote) (hb : c ≠ backslash)
    (hc : 32 ≤ c.val) : scanString (c :: rest) = consPoint c (scanString rest) := by
  conv_lhs => rw [scanString.eq_def]
  simp [hq, hb, hc]

theorem scanString_short {letter p : CodePoint} (rest : Str) (hu : letter ≠ cp 117)
    (h : escapedLetter letter = some p) :
    scanString (backslash :: letter :: rest) = consPoint p (scanString rest) := by
  have hbq : backslash ≠ quote := by decide
  conv_lhs => rw [scanString.eq_def]
  simp [hbq, hu, h]

/-- The escape of one code unit that does not open a surrogate pair. -/
theorem scanString_unicodeEscape {v : Nat} (rest : Str) (h : v < 0x10000)
    (hhigh : isHighSurrogate v = false) :
    scanString (unicodeEscape v ++ rest) = consPoint (cp v) (scanString rest) := by
  have hbq : backslash ≠ quote := by decide
  simp only [unicodeEscape, List.cons_append, List.nil_append]
  conv_lhs => rw [scanString.eq_def]
  simp [hbq, hexValue4_hexLetters h, hhigh]

/-- A surrogate pair stands for one code point. -/
theorem scanString_surrogatePair {v w : Nat} (rest : Str) (hv : v < 0x10000) (hw : w < 0x10000)
    (hhigh : isHighSurrogate v = true) (hlow : isLowSurrogate w = true) :
    scanString (unicodeEscape v ++ unicodeEscape w ++ rest) =
      consPoint (cp (0x10000 + (v - 0xD800) * 1024 + (w - 0xDC00))) (scanString rest) := by
  have hbq : backslash ≠ quote := by decide
  simp only [unicodeEscape, List.cons_append, List.nil_append]
  conv_lhs => rw [scanString.eq_def]
  simp [hbq, hexValue4_hexLetters hv, hexValue4_hexLetters hw, hhigh, hlow]

theorem shortEscape_spec {c letter : CodePoint} (h : shortEscape c = some letter) :
    escapedLetter letter = some c ∧ letter ≠ cp 117 := by
  unfold shortEscape at h
  repeat' split at h
  all_goals cases h
  all_goals rename_i hc; subst hc; decide

theorem shortEscape_none {c : CodePoint} (h : shortEscape c = none) :
    c ≠ quote ∧ c ≠ backslash := by
  constructor
  · rintro rfl
    exact absurd h (by decide)
  · rintro rfl
    exact absurd h (by decide)

/-- The decoder reads an escaped code point as that code point. -/
theorem scanString_escapePoint {ensureAscii : Bool} {c : CodePoint}
    (hc : c.isSurrogate = false) (rest : Str) :
    scanString (escapePoint ensureAscii c ++ rest) = consPoint c (scanString rest) := by
  have hlt := c.isLt
  have hsur : c.val < 0xD800 ∨ 0xE000 ≤ c.val := by
    simp only [CodePoint.isSurrogate, Bool.and_eq_false_iff, decide_eq_false_iff_not] at hc
    omega
  unfold escapePoint
  split
  · rename_i letter hletter
    obtain ⟨hback, hu⟩ := shortEscape_spec hletter
    exact scanString_short rest hu hback
  rename_i hnone
  obtain ⟨hq, hb⟩ := shortEscape_none hnone
  split
  · rename_i hctl
    have hhigh : isHighSurrogate c.val = false := by
      simp only [isHighSurrogate, Bool.and_eq_false_iff, decide_eq_false_iff_not]
      omega
    rw [scanString_unicodeEscape rest (by omega) hhigh, Utf8.cp_val]
  rename_i hctl
  split
  · split
    · rename_i hbmp
      have hhigh : isHighSurrogate c.val = false := by
        simp only [isHighSurrogate, Bool.and_eq_false_iff, decide_eq_false_iff_not]
        omega
      rw [scanString_unicodeEscape rest hbmp hhigh, Utf8.cp_val]
    · rename_i hastral
      rw [scanString_surrogatePair rest (by omega) (by omega)
        (by simp only [isHighSurrogate, Bool.and_eq_true, decide_eq_true_eq]; omega)
        (by simp only [isLowSurrogate, Bool.and_eq_true, decide_eq_true_eq]; omega)]
      have hvalue : 0x10000 + (0xD800 + (c.val - 0x10000) / 1024 - 0xD800) * 1024 +
          (0xDC00 + (c.val - 0x10000) % 1024 - 0xDC00) = c.val := by omega
      rw [hvalue, Utf8.cp_val]
  · exact scanString_plain rest hq hb (by omega)

/-- A string literal is read back. -/
theorem scanString_stringText {ensureAscii : Bool} {s : Str} (hs : Str.encodable s = true)
    (rest : Str) :
    scanString (s.flatMap (escapePoint ensureAscii) ++ quote :: rest) = .ok (s, rest) := by
  induction s with
  | nil =>
      rw [List.flatMap_nil, List.nil_append, scanString.eq_def]
      simp
  | cons c s ih =>
      simp only [Str.encodable, List.all_cons, Bool.and_eq_true, Bool.not_eq_true'] at hs
      rw [List.flatMap_cons, List.append_assoc, scanString_escapePoint hs.1,
        ih (by simpa [Str.encodable] using hs.2)]
      rfl

/-- A value without floats, with unique keys and without lone surrogates. -/
inductive Plain : Json → Prop
  | null : Plain .null
  | bool (b : Bool) : Plain (.bool b)
  | int (n : Int) : Plain (.int n)
  | str {s : Str} : Str.encodable s = true → Plain (.str s)
  | arr {items : List Json} : (∀ v ∈ items, Plain v) → Plain (.arr items)
  | obj {fields : List (Str × Json)} : (Entries.keys fields).Nodup →
      (∀ e ∈ fields, Str.encodable e.1 = true) → (∀ e ∈ fields, Plain e.2) →
      Plain (.obj fields)

/-- The first letter of a JSON text: not white space, no closing bracket, no byte
order mark. -/
def Opens (c : CodePoint) : Prop :=
  isJsonSpace c = false ∧ c ≠ closeBracket ∧ c ≠ closeBrace ∧ c ≠ cp 0xFEFF

instance (c : CodePoint) : Decidable (Opens c) := inferInstanceAs (Decidable (_ ∧ _ ∧ _ ∧ _))

theorem opens_of_isAsciiDigit {c : CodePoint} (h : c.isAsciiDigit = true) : Opens c := by
  simp only [CodePoint.isAsciiDigit, Bool.and_eq_true, decide_eq_true_eq] at h
  have hne (n : Nat) (hn : n < 48 ∨ 57 < n) (hlt : n < 0x110000) : c ≠ cp n := by
    rintro rfl
    rw [cp_val_of_lt hlt] at h
    omega
  refine ⟨?_, hne 93 (by omega) (by omega), hne 125 (by omega) (by omega),
    hne 0xFEFF (by omega) (by omega)⟩
  simp only [isJsonSpace, Bool.or_eq_false_iff, beq_eq_false_iff_ne]
  exact ⟨⟨⟨hne 32 (by omega) (by omega), hne 9 (by omega) (by omega)⟩,
    hne 10 (by omega) (by omega)⟩, hne 13 (by omega) (by omega)⟩

theorem skipSpace_of_opens {c : CodePoint} (h : Opens c) (rest : Str) :
    skipSpace (c :: rest) = c :: rest := by
  rw [skipSpace, List.dropWhile_cons_of_neg]
  simp [h.1]

theorem opens_quote : Opens quote := by decide

/-- Every written value starts with an opening letter. -/
theorem dumps_head {F : FloatText} {style : Style} {v : Json} (hv : Plain v) {text : Str}
    (h : dumps F style v = some text) : ∃ c t, text = c :: t ∧ Opens c := by
  cases hv with
  | null => cases h; exact ⟨_, _, rfl, by decide⟩
  | bool b => cases b <;> cases h <;> exact ⟨_, _, rfl, by decide⟩
  | int n =>
      rw [dumps] at h
      split at h
      · cases h
      cases h
      cases n with
      | ofNat n =>
          obtain ⟨c, more, heq, hdigit, -⟩ := natText_head n
          exact ⟨c, more, heq, opens_of_isAsciiDigit hdigit⟩
      | negSucc n => exact ⟨_, _, rfl, by decide⟩
  | str => cases h; exact ⟨_, _, rfl, by decide⟩
  | arr =>
      rw [dumps] at h
      obtain ⟨texts, -, h⟩ := Option.bind_eq_some_iff.mp h
      cases h
      exact ⟨_, _, rfl, by decide⟩
  | obj =>
      rw [dumps] at h
      obtain ⟨texts, -, h⟩ := Option.bind_eq_some_iff.mp h
      cases h
      exact ⟨_, _, rfl, by decide⟩

/-- The text of a value starts with an opening letter. -/
def Opening (F : FloatText) (style : Style) (v : Json) : Prop :=
  ∀ {text : Str}, dumps F style v = some text → ∃ c t, text = c :: t ∧ Opens c

/-- A key is read back wherever it is written. -/
def KeyBack (style : Style) (key : Str) : Prop :=
  ∀ rest, scanString (key.flatMap (escapePoint style.ensureAscii) ++ quote :: rest) =
    .ok (key, rest)

/-- What the induction shows of a value: its text is read back in front of any
rest that ends it. -/
def ReadsBack (F : FloatText) (style : Style) (v : Json) : Prop :=
  ∀ {text : Str}, dumps F style v = some text → ∀ fuel depth rest,
    2 * text.length ≤ fuel → v.depth ≤ depth → Delimited rest →
      scanValue F fuel depth (text ++ rest) = .ok (v, rest)

/-- The text of a value is read as another one. -/
def ReadsAs (F : FloatText) (style : Style) (v w : Json) : Prop :=
  ∀ {text : Str}, dumps F style v = some text → ∀ fuel depth rest,
    2 * text.length ≤ fuel → v.depth ≤ depth → Delimited rest →
      scanValue F fuel depth (text ++ rest) = .ok (w, rest)

section Steps

variable (F : FloatText) (fuel depth : Nat) (rest : Str)

theorem scanValue_quote :
    scanValue F (fuel + 1) depth (quote :: rest) =
      (scanString rest).map fun r => (.str r.1, r.2) := by
  rw [scanValue.eq_def]
  simp

theorem scanValue_emptyArr :
    scanValue F (fuel + 1) (depth + 1) (openBracket :: closeBracket :: rest) =
      .ok (.arr [], rest) := by
  rw [scanValue.eq_def]
  rfl

theorem scanValue_emptyObj :
    scanValue F (fuel + 1) (depth + 1) (openBrace :: closeBrace :: rest) =
      .ok (.obj [], rest) := by
  rw [scanValue.eq_def]
  rfl

variable {c : CodePoint}

theorem scanValue_arr (hc : Opens c) :
    scanValue F (fuel + 1) (depth + 1) (openBracket :: c :: rest) =
      (scanItems F fuel depth (c :: rest)).map fun r => (.arr r.1, r.2) := by
  have hq : openBracket ≠ quote := by decide
  have hb : openBracket ≠ openBrace := by decide
  rw [scanValue.eq_def]
  simp [hq, hb, skipSpace_of_opens hc, hc.2.1]

theorem scanValue_obj (hc : Opens c) :
    scanValue F (fuel + 1) (depth + 1) (openBrace :: c :: rest) =
      (scanMembers F fuel depth [] (c :: rest)).map fun r => (.obj r.1, r.2) := by
  have hq : openBrace ≠ quote := by decide
  rw [scanValue.eq_def]
  simp [hq, skipSpace_of_opens hc, hc.2.2.1]

theorem scanValue_other (hc : c ≠ quote ∧ c ≠ openBrace ∧ c ≠ openBracket) :
    scanValue F (fuel + 1) depth (c :: rest) =
      match scanConstant (c :: rest) with
      | some r => .ok r
      | none => scanNumber F (c :: rest) := by
  rw [scanValue.eq_def]
  cases hscan : scanConstant (c :: rest) with
  | none => simp only [if_neg hc.1, if_neg hc.2.1, if_neg hc.2.2, hscan]
  | some r => simp only [if_neg hc.1, if_neg hc.2.1, if_neg hc.2.2, hscan]

end Steps

theorem readsBack_str (F : FloatText) (style : Style) {s : Str}
    (hs : Str.encodable s = true) : ReadsBack F style (.str s) := by
  intro text h fuel depth rest hfuel _ _
  cases h
  cases fuel with
  | zero => simp [stringText] at hfuel
  | succ fuel =>
      rw [stringText, List.cons_append, List.cons_append, List.append_assoc,
        List.singleton_append, scanValue_quote, scanString_stringText hs]
      rfl

theorem readsBack_constant (F : FloatText) {style : Style} {v : Json} {c : CodePoint}
    {t : Str} (hdumps : dumps F style v = some (c :: t))
    (hc : c ≠ quote ∧ c ≠ openBrace ∧ c ≠ openBracket)
    (hscan : ∀ rest, scanConstant (c :: t ++ rest) = some (v, rest)) :
    ReadsBack F style v := by
  intro text h fuel depth rest hfuel _ _
  rw [hdumps] at h
  cases h
  cases fuel with
  | zero => simp at hfuel
  | succ fuel =>
      have hrest := hscan rest
      rw [List.cons_append] at hrest ⊢
      rw [scanValue_other F fuel depth _ hc, hrest]

/-- No constant starts with a digit, or with a minus sign and a digit. -/
theorem scanConstant_digits {c : CodePoint} (h : c.isAsciiDigit = true) (rest : Str) :
    scanConstant (c :: rest) = none ∧ scanConstant (cp 45 :: c :: rest) = none := by
  have hfirst : ∀ e ∈ constants, (e.1.head?.any fun d => !d.isAsciiDigit) = true := by decide
  have hsecond : ∀ e ∈ constants, (e.1.head?.any fun d => decide (d ≠ cp 45)) = true ∨
      (e.1.tail.head?.any fun d => !d.isAsciiDigit) = true := by decide
  simp only [scanConstant, Option.map_eq_none_iff, List.find?_eq_none, decide_eq_true_eq]
  constructor
  · intro e he hpre
    have hd := hfirst e he
    cases hk : e.1 with
    | nil => simp [hk] at hd
    | cons d k =>
        rw [hk] at hpre hd
        obtain ⟨rfl, -⟩ := List.cons_prefix_cons.mp hpre
        simp [h] at hd
  · intro e he hpre
    have hd := hsecond e he
    cases hk : e.1 with
    | nil => simp [hk] at hd
    | cons d k =>
        rw [hk] at hpre hd
        obtain ⟨rfl, htail⟩ := List.cons_prefix_cons.mp hpre
        cases k with
        | nil => simp at hd
        | cons d' k =>
            obtain ⟨rfl, -⟩ := List.cons_prefix_cons.mp htail
            simp [h] at hd

theorem ne_of_isAsciiDigit {c : CodePoint} (h : c.isAsciiDigit = true) :
    c ≠ quote ∧ c ≠ openBrace ∧ c ≠ openBracket := by
  refine ⟨?_, ?_, ?_⟩ <;> rintro rfl <;> exact absurd h (by decide)

theorem readsBack_int (F : FloatText) (style : Style) (n : Int) :
    ReadsBack F style (.int n) := by
  intro text h fuel depth rest hfuel _ hrest
  rw [dumps] at h
  split at h
  · cases h
  rename_i hlong
  cases h
  have hnumber := scanNumber_intText F (n := n) (by simpa using hlong) hrest
  cases fuel with
  | zero =>
      obtain ⟨c, t, heq, -⟩ := natText_head n.natAbs
      cases n with
      | ofNat n =>
          rw [Int.natAbs_ofNat'] at heq
          simp [intText, heq] at hfuel
      | negSucc n => simp [intText] at hfuel
  | succ fuel =>
      cases n with
      | ofNat n =>
          obtain ⟨c, t, heq, hdigit, -⟩ := natText_head n
          rw [intText, heq, List.cons_append] at hnumber ⊢
          rw [scanValue_other F fuel depth _ (ne_of_isAsciiDigit hdigit),
            (scanConstant_digits hdigit _).1]
          exact hnumber
      | negSucc n =>
          obtain ⟨c, t, heq, hdigit, -⟩ := natText_head (n + 1)
          rw [intText, heq, List.cons_append, List.cons_append] at hnumber ⊢
          rw [scanValue_other F fuel depth _ (by decide), (scanConstant_digits hdigit _).2]
          exact hnumber

/-- The items of a list are read back one after the other. -/
theorem scanItems_dumpsItems {F : FloatText} {style : Style} {items : List Json}
    (hhead : ∀ v ∈ items, Opening F style v) (hread : ∀ v ∈ items, ReadsBack F style v)
    (hne : items ≠ []) {texts : List Str} (h : dumpsItems F style items = some texts)
    (fuel depth : Nat) (rest : Str) (hfuel : 2 * (Str.join [comma] texts).length + 2 ≤ fuel)
    (hdepth : Json.depthItems items ≤ depth) :
    scanItems F fuel depth (Str.join [comma] texts ++ closeBracket :: rest) =
      .ok (items, rest) := by
  induction items generalizing texts fuel with
  | nil => exact absurd rfl hne
  | cons v items ih =>
      rw [dumpsItems] at h
      obtain ⟨text, htext, h⟩ := Option.bind_eq_some_iff.mp h
      obtain ⟨more, hmore, h⟩ := Option.bind_eq_some_iff.mp h
      cases h
      obtain ⟨fuel, rfl⟩ : ∃ n, fuel = n + 1 := ⟨fuel - 1, by omega⟩
      rw [Json.depthItems, Nat.max_le] at hdepth
      cases items with
      | nil =>
          cases hmore
          rw [Str.join_singleton] at hfuel ⊢
          have hv := hread v List.mem_cons_self htext fuel depth (closeBracket :: rest)
            (by omega) hdepth.1 (delimited_closeBracket _)
          have hskip : skipSpace (closeBracket :: rest) = closeBracket :: rest := rfl
          simp only [scanItems, hv, hskip, if_true, bind, Except.bind]
      | cons w items =>
          obtain ⟨text', more', rfl⟩ : ∃ a b, more = a :: b := by
            rw [dumpsItems] at hmore
            obtain ⟨a, -, hmore⟩ := Option.bind_eq_some_iff.mp hmore
            obtain ⟨b, -, hmore⟩ := Option.bind_eq_some_iff.mp hmore
            exact ⟨a, b, by cases hmore; rfl⟩
          have hw : ∃ c t, text' = c :: t ∧ Opens c := by
            rw [dumpsItems] at hmore
            obtain ⟨a, ha, hmore⟩ := Option.bind_eq_some_iff.mp hmore
            obtain ⟨b, -, hmore⟩ := Option.bind_eq_some_iff.mp hmore
            cases hmore
            exact hhead w (by simp) ha
          obtain ⟨c, t, rfl, hopens⟩ := hw
          rw [Str.join_cons_cons] at hfuel ⊢
          simp only [List.length_append, List.length_singleton] at hfuel
          rw [List.append_assoc, List.append_assoc, List.singleton_append]
          have hv := hread v List.mem_cons_self htext fuel depth
            (comma :: (Str.join [comma] ((c :: t) :: more') ++ closeBracket :: rest))
            (by omega) hdepth.1 (delimited_comma _)
          have htail := ih (fun x hx => hhead x (List.mem_cons_of_mem _ hx))
            (fun x hx => hread x (List.mem_cons_of_mem _ hx)) (by simp) hmore fuel
            (by omega) hdepth.2
          have hjoin : ∃ t', Str.join [comma] ((c :: t) :: more') = c :: t' := by
            cases more' with
            | nil => exact ⟨t, rfl⟩
            | cons a b => exact ⟨_, rfl⟩
          obtain ⟨t', hjoin⟩ := hjoin
          rw [hjoin, List.cons_append] at hv htail ⊢
          have hcomma (r : Str) : skipSpace (comma :: r) = comma :: r := rfl
          have hne : comma ≠ closeBracket := by decide
          rw [scanItems, hv]
          simp only [bind, Except.bind, hcomma, if_neg hne, if_true, skipSpace_of_opens hopens,
            htail]

/-- The members of a dictionary are read one after the other. -/
theorem scanMembers_readsAs {F : FloatText} {style : Style} (f : Json → Json)
    {fields : List (Str × Json)}
    (hhead : ∀ e ∈ fields, Opening F style e.2) (hkeys : ∀ e ∈ fields, KeyBack style e.1)
    (hread : ∀ e ∈ fields, ReadsAs F style e.2 (f e.2)) (hne : fields ≠ [])
    {texts : List (Str × Str)} (h : dumpsFields F style fields = some texts)
    (sofar : Entries Str Json) (hnodup : (Entries.keys (sofar ++ fields)).Nodup)
    (fuel depth : Nat) (rest : Str)
    (hfuel : 2 * (Str.join [comma] (texts.map (memberText style.ensureAscii))).length + 2 ≤ fuel)
    (hdepth : Json.depthFields fields ≤ depth) :
    scanMembers F fuel depth sofar
        (Str.join [comma] (texts.map (memberText style.ensureAscii)) ++ closeBrace :: rest) =
      .ok (sofar ++ fields.map fun e => (e.1, f e.2), rest) := by
  induction fields generalizing texts fuel sofar with
  | nil => exact absurd rfl hne
  | cons e fields ih =>
      obtain ⟨k, v⟩ := e
      rw [dumpsFields] at h
      obtain ⟨text, htext, h⟩ := Option.bind_eq_some_iff.mp h
      obtain ⟨more, hmore, h⟩ := Option.bind_eq_some_iff.mp h
      cases h
      obtain ⟨fuel, rfl⟩ : ∃ n, fuel = n + 1 := ⟨fuel - 1, by omega⟩
      rw [Json.depthFields, Nat.max_le] at hdepth
      have hk := hkeys (k, v) List.mem_cons_self
      have hset : Entries.set sofar k (f v) = sofar ++ [(k, f v)] := by
        apply Entries.set_of_notMem
        intro hmem
        rw [Entries.keys_append, List.nodup_append] at hnodup
        exact hnodup.2.2 k hmem k (by simp [Entries.keys]) rfl
      obtain ⟨c, t, rfl, hopens⟩ := hhead (k, v) List.mem_cons_self htext
      have hmember (r : Str) : memberText style.ensureAscii (k, c :: t) ++ r =
          quote :: (k.flatMap (escapePoint style.ensureAscii) ++ quote ::
            (colon :: (c :: t ++ r))) := by
        simp [memberText, stringText]
      have hlength : (memberText style.ensureAscii (k, c :: t)).length =
          (k.flatMap (escapePoint style.ensureAscii)).length + 3 + (c :: t).length := by
        simp [memberText, stringText]
        omega
      have hcolon (r : Str) : skipSpace (colon :: r) = colon :: r := rfl
      cases fields with
      | nil =>
          cases hmore
          rw [List.map_singleton, Str.join_singleton] at hfuel ⊢
          have hv := hread (k, v) List.mem_cons_self htext fuel depth (closeBrace :: rest)
            (by omega) hdepth.1 (delimited_closeBrace _)
          have hclose : skipSpace (closeBrace :: rest) = closeBrace :: rest := rfl
          rw [List.cons_append] at hv
          rw [hmember, scanMembers, if_pos rfl, hk]
          simp only [bind, Except.bind, hcolon, if_true, List.cons_append,
            skipSpace_of_opens hopens, hv, hset, hclose, List.map_cons, List.map_nil]
      | cons e' fields =>
          obtain ⟨k', v'⟩ := e'
          obtain ⟨text', more', rfl⟩ : ∃ a b, more = (k', a) :: b := by
            rw [dumpsFields] at hmore
            obtain ⟨a, -, hmore⟩ := Option.bind_eq_some_iff.mp hmore
            obtain ⟨b, -, hmore⟩ := Option.bind_eq_some_iff.mp hmore
            exact ⟨a, b, by cases hmore; rfl⟩
          rw [List.map_cons, List.map_cons, Str.join_cons_cons] at hfuel ⊢
          rw [← List.map_cons] at hfuel ⊢
          simp only [List.length_append, List.length_singleton] at hfuel
          have hv := hread (k, v) List.mem_cons_self htext fuel depth
            (comma :: (Str.join [comma] (((k', text') :: more').map
              (memberText style.ensureAscii)) ++ closeBrace :: rest))
            (by omega) hdepth.1 (delimited_comma _)
          have htail := ih (fun x hx => hhead x (List.mem_cons_of_mem _ hx))
            (fun x hx => hkeys x (List.mem_cons_of_mem _ hx))
            (fun x hx => hread x (List.mem_cons_of_mem _ hx)) (by simp) hmore
            (sofar ++ [(k, f v)]) (by simpa [Entries.keys] using hnodup) fuel
            (by omega) hdepth.2
          have hjoin : ∃ t', Str.join [comma] (((k', text') :: more').map
              (memberText style.ensureAscii)) = quote :: t' := by
            cases more' with
            | nil => exact ⟨_, rfl⟩
            | cons a b => exact ⟨_, rfl⟩
          obtain ⟨t', hjoin⟩ := hjoin
          rw [hjoin] at hv htail ⊢
          rw [List.append_assoc, List.append_assoc, hmember]
          have hcomma (r : Str) : skipSpace (comma :: r) = comma :: r := rfl
          have hne : comma ≠ closeBrace := by decide
          simp only [List.cons_append] at hv htail
          rw [scanMembers, if_pos rfl, hk]
          simp only [bind, Except.bind, hcolon, if_true, List.cons_append, List.nil_append,
            skipSpace_of_opens hopens, hv, hset, hcomma, if_neg hne,
            skipSpace_of_opens opens_quote, htail, List.append_assoc, List.map_cons]

/-- The members of a dictionary are read back one after the other. -/
theorem scanMembers_dumpsFields {F : FloatText} {style : Style} {fields : List (Str × Json)}
    (hhead : ∀ e ∈ fields, Opening F style e.2) (hkeys : ∀ e ∈ fields, KeyBack style e.1)
    (hread : ∀ e ∈ fields, ReadsBack F style e.2) (hne : fields ≠ [])
    {texts : List (Str × Str)} (h : dumpsFields F style fields = some texts)
    (sofar : Entries Str Json) (hnodup : (Entries.keys (sofar ++ fields)).Nodup)
    (fuel depth : Nat) (rest : Str)
    (hfuel : 2 * (Str.join [comma] (texts.map (memberText style.ensureAscii))).length + 2 ≤ fuel)
    (hdepth : Json.depthFields fields ≤ depth) :
    scanMembers F fuel depth sofar
        (Str.join [comma] (texts.map (memberText style.ensureAscii)) ++ closeBrace :: rest) =
      .ok (sofar ++ fields, rest) := by
  have hscan := scanMembers_readsAs id hhead hkeys hread hne h
    sofar hnodup fuel depth rest hfuel hdepth
  simpa using hscan

/-- Keys in the order of the dictionary. -/
def Style.Unsorted (style : Style) : Prop := style.sortKeys = false

/-- A list of values that are read back. -/
theorem readsBack_arr {F : FloatText} {style : Style} {items : List Json}
    (hhead : ∀ v ∈ items, Opening F style v) (hread : ∀ v ∈ items, ReadsBack F style v) :
    ReadsBack F style (.arr items) := by
  intro text h fuel depth rest hfuel hdepth _
  rw [dumps] at h
  obtain ⟨texts, htexts, h⟩ := Option.bind_eq_some_iff.mp h
  cases h
  simp only [List.length_append, List.length_cons, List.length_nil] at hfuel
  obtain ⟨fuel, rfl⟩ : ∃ n, fuel = n + 1 := ⟨fuel - 1, by omega⟩
  obtain ⟨depth, rfl⟩ : ∃ n, depth = n + 1 := ⟨depth - 1, by rw [Json.depth] at hdepth; omega⟩
  rw [List.cons_append, List.cons_append, List.append_assoc, List.singleton_append]
  cases items with
  | nil =>
      cases htexts
      exact scanValue_emptyArr F fuel depth rest
  | cons v items =>
      have hitems := scanItems_dumpsItems hhead hread (by simp) htexts fuel depth rest (by omega)
        (by rw [Json.depth] at hdepth; omega)
      obtain ⟨c, t, hjoin, hopens⟩ : ∃ c t, Str.join [comma] texts = c :: t ∧ Opens c := by
        rw [dumpsItems] at htexts
        obtain ⟨text, htext, htexts⟩ := Option.bind_eq_some_iff.mp htexts
        obtain ⟨more, -, htexts⟩ := Option.bind_eq_some_iff.mp htexts
        cases htexts
        obtain ⟨c, t, rfl, hopens⟩ := hhead v List.mem_cons_self htext
        cases more with
        | nil => exact ⟨c, t, rfl, hopens⟩
        | cons a b => exact ⟨c, _, rfl, hopens⟩
      rw [hjoin, List.cons_append] at hitems ⊢
      rw [scanValue_arr F fuel depth _ hopens, hitems]
      rfl

/-- A dictionary of values that are read back, under keys that are, whatever follows it. -/
theorem scanValue_dumps_obj {F : FloatText} {style : Style} (hstyle : style.Unsorted)
    {fields : List (Str × Json)} (hnodup : (Entries.keys fields).Nodup)
    (hhead : ∀ e ∈ fields, Opening F style e.2) (hkeys : ∀ e ∈ fields, KeyBack style e.1)
    (hread : ∀ e ∈ fields, ReadsBack F style e.2) {text : Str}
    (h : dumps F style (.obj fields) = some text) {fuel depth : Nat} (rest : Str)
    (hfuel : 2 * text.length ≤ fuel) (hdepth : Json.depth (.obj fields) ≤ depth) :
    scanValue F fuel depth (text ++ rest) = .ok (.obj fields, rest) := by
  rw [dumps] at h
  obtain ⟨texts, htexts, h⟩ := Option.bind_eq_some_iff.mp h
  have hordered : orderedFields style.sortKeys texts = texts := by
    rw [hstyle]
    rfl
  rw [hordered] at h
  cases h
  simp only [List.length_append, List.length_cons, List.length_nil] at hfuel
  obtain ⟨fuel, rfl⟩ : ∃ n, fuel = n + 1 := ⟨fuel - 1, by omega⟩
  obtain ⟨depth, rfl⟩ : ∃ n, depth = n + 1 := ⟨depth - 1, by rw [Json.depth] at hdepth; omega⟩
  rw [List.cons_append, List.cons_append, List.append_assoc, List.singleton_append]
  cases fields with
  | nil =>
      cases htexts
      exact scanValue_emptyObj F fuel depth rest
  | cons e fields =>
      have hmembers := scanMembers_dumpsFields hhead hkeys hread (by simp) htexts []
        (by simpa using hnodup) fuel depth rest (by omega) (by rw [Json.depth] at hdepth; omega)
      obtain ⟨t, hjoin⟩ : ∃ t, Str.join [comma]
          (texts.map (memberText style.ensureAscii)) = quote :: t := by
        obtain ⟨k, v⟩ := e
        rw [dumpsFields] at htexts
        obtain ⟨text, htext, htexts⟩ := Option.bind_eq_some_iff.mp htexts
        obtain ⟨more, -, htexts⟩ := Option.bind_eq_some_iff.mp htexts
        cases htexts
        cases more with
        | nil => exact ⟨_, rfl⟩
        | cons a b => exact ⟨_, rfl⟩
      rw [hjoin, List.cons_append] at hmembers ⊢
      rw [scanValue_obj F fuel depth _ opens_quote, hmembers]
      rfl

theorem readsBack_obj {F : FloatText} {style : Style} (hstyle : style.Unsorted)
    {fields : List (Str × Json)} (hnodup : (Entries.keys fields).Nodup)
    (hhead : ∀ e ∈ fields, Opening F style e.2) (hkeys : ∀ e ∈ fields, KeyBack style e.1)
    (hread : ∀ e ∈ fields, ReadsBack F style e.2) : ReadsBack F style (.obj fields) :=
  fun h _ _ rest hfuel hdepth _ =>
    scanValue_dumps_obj hstyle hnodup hhead hkeys hread h rest hfuel hdepth

/-- Every plain value is read back wherever it is written. -/
theorem readsBack {F : FloatText} {style : Style} (hstyle : style.Unsorted) {v : Json}
    (hv : Plain v) : ReadsBack F style v := by
  induction hv with
  | null => exact readsBack_constant F rfl (by decide) fun _ => rfl
  | bool b =>
      cases b
      · exact readsBack_constant F rfl (by decide) fun _ => rfl
      · exact readsBack_constant F rfl (by decide) fun _ => rfl
  | int n => exact readsBack_int F style n
  | str hs => exact readsBack_str F style hs
  | arr hplain ih => exact readsBack_arr (fun v hv => dumps_head (hplain v hv)) ih
  | obj hnodup hkeys hplain ih =>
      exact readsBack_obj hstyle hnodup (fun e he => dumps_head (hplain e he))
        (fun e he => scanString_stringText (hkeys e he)) ih

/-- The whole text of a value that is read back. -/
theorem loads_of_readsBack {F : FloatText} {style : Style} {v : Json}
    (hhead : Opening F style v) (hread : ReadsBack F style v) {text : Str}
    (h : dumps F style v = some text) {depth : Nat} (hdepth : v.depth ≤ depth) :
    loads F depth text = .ok v := by
  obtain ⟨c, t, rfl, hopens⟩ := hhead h
  have hscan := hread h (2 * (c :: t).length + 2) depth [] (by omega) hdepth delimited_nil
  rw [List.append_nil] at hscan
  have hbom : (c :: t).head? ≠ some (cp 0xFEFF) := by
    rw [List.head?_cons, ne_eq, Option.some.injEq]
    exact hopens.2.2.2
  rw [loads, if_neg hbom, skipSpace_of_opens hopens, hscan]
  rfl

/-- `json.loads(json.dumps(v))` is `v`, when the stack holds its nesting. -/
theorem loads_dumps {F : FloatText} {style : Style} (hstyle : style.Unsorted) {v : Json}
    (hv : Plain v) {text : Str} (h : dumps F style v = some text) {depth : Nat}
    (hdepth : v.depth ≤ depth) : loads F depth text = .ok v :=
  loads_of_readsBack (dumps_head hv) (readsBack hstyle hv) h hdepth

end MediaBridge.Foundation.JsonText
