import MediaBridge.Foundation.JsonSurrogates
import MediaBridge.Foundation.JsonSorted
import MediaBridge.Foundation.JsonWritable
import MediaBridge.Foundation.JsonAscii
import MediaBridge.Foundation.Raise

/-!
# What was read is read back

Every value that `json.loads` gives can be written with ASCII escapes, and the text gives the
value again: floats, constants outside JSON and lone surrogates included.

## Implementation notes

`Readable` says which values a text can give. The text has no surrogates of its own, as text
that was decoded has none; those of a string come from its escapes.
-/

namespace MediaBridge.Foundation

/-- How the interpreter writes and reads floats: a finite one is written as a number with a
fraction or an exponent that is read as itself, and no number is read as a NaN. -/
structure FloatText.Faithful (F : FloatText) : Prop where
  back : ∀ {bits rest}, JsonText.isFinite bits = true → JsonText.Delimited rest →
    JsonText.scanNumber F (F.repr bits ++ rest) = .ok (.float bits, rest)
  head : ∀ {bits}, JsonText.isFinite bits = true → ∃ c t, c.isAsciiDigit = true ∧
    (F.repr bits = c :: t ∨ F.repr bits = cp 45 :: c :: t)
  printable : ∀ {bits}, JsonText.isFinite bits = true → JsonText.Printable (F.repr bits)
  range : ∀ token, JsonText.isFinite (F.parse token) = true ∨
    F.parse token = 0x7FF0000000000000 ∨ F.parse token = 0xFFF0000000000000

namespace JsonText

/-- The floats outside JSON that a text can name. -/
def nonFinite : List (BitVec 64) := [0x7FF8000000000000, 0x7FF0000000000000, 0xFFF0000000000000]

/-- A value that a JSON text can give. -/
inductive Readable : Json → Prop
  | null : Readable .null
  | bool (b : Bool) : Readable (.bool b)
  | int {n : Int} : tooLong n.natAbs = false → Readable (.int n)
  | float {bits : BitVec 64} : isFinite bits = true ∨ bits ∈ nonFinite → Readable (.float bits)
  | str {s : Str} : rejoin s = s → Readable (.str s)
  | arr {items : List Json} : (∀ v ∈ items, Readable v) → Readable (.arr items)
  | obj {fields : List (Str × Json)} : (Entries.keys fields).Nodup →
      (∀ e ∈ fields, rejoin e.1 = e.1) → (∀ e ∈ fields, Readable e.2) → Readable (.obj fields)

theorem readable_empty : Readable (.obj []) :=
  .obj List.nodup_nil (fun _ he => nomatch he) fun _ he => nomatch he

section Strings

/-- The escape of a pair is that of the character it stands for. -/
theorem escapePoint_pair {a b : CodePoint} (ha : isHighSurrogate a.val = true)
    (hb : isLowSurrogate b.val = true) :
    escapePoint true (cp (0x10000 + (a.val - 0xD800) * 1024 + (b.val - 0xDC00))) =
      escapePoint true a ++ escapePoint true b := by
  simp only [isHighSurrogate, isLowSurrogate, Bool.and_eq_true, decide_eq_true_eq] at ha hb
  have hsurrogate {c : CodePoint} (hc : 0xD800 ≤ c.val ∧ c.val < 0xE000) :
      c.isSurrogate = true := by
    simp only [CodePoint.isSurrogate, Bool.and_eq_true, decide_eq_true_eq]
    omega
  have hfirst := escapePoint_surrogate (hsurrogate (c := a) (by omega))
  have hsecond := escapePoint_surrogate (hsurrogate (c := b) (by omega))
  have hval := cp_val_of_lt (n := 0x10000 + (a.val - 0xD800) * 1024 + (b.val - 0xDC00)) (by omega)
  have hshort : shortEscape (cp (0x10000 + (a.val - 0xD800) * 1024 + (b.val - 0xDC00))) = none := by
    unfold shortEscape
    have hne (n : Nat) (hn : n < 256) :
        cp (0x10000 + (a.val - 0xD800) * 1024 + (b.val - 0xDC00)) ≠ cp n := by
      intro heq
      have hsame := congrArg Fin.val heq
      rw [hval, cp_val_of_lt (by omega)] at hsame
      omega
    simp only [quote, backslash, hne 34 (by omega), hne 92 (by omega), hne 8 (by omega),
      hne 12 (by omega), hne 10 (by omega), hne 13 (by omega), hne 9 (by omega), if_false]
  rw [hfirst, hsecond, escapePoint, hshort]
  simp only [hval]
  have hhigh : 0xD800 + (0x10000 + (a.val - 0xD800) * 1024 + (b.val - 0xDC00) - 0x10000) / 1024 =
      a.val := by omega
  have hlow : 0xDC00 + (0x10000 + (a.val - 0xD800) * 1024 + (b.val - 0xDC00) - 0x10000) % 1024 =
      b.val := by omega
  rw [if_neg (by omega), if_pos (by simp only [Bool.true_and, decide_eq_true_eq]; omega),
    if_neg (by omega), hhigh, hlow]

/-- A string is written as what is read of it. -/
theorem flatMap_rejoin (s : Str) :
    (rejoin s).flatMap (escapePoint true) = s.flatMap (escapePoint true) := by
  induction s using rejoin.induct with
  | case1 a b rest hpair ih =>
      have hboth := Bool.and_eq_true_iff.mp hpair
      rw [rejoin, if_pos hpair, List.flatMap_cons, ih, escapePoint_pair hboth.1 hboth.2,
        List.flatMap_cons, List.flatMap_cons, List.append_assoc]
  | case2 a b rest hpair ih =>
      rw [rejoin, if_neg hpair, List.flatMap_cons, ih]
      rfl
  | case3 a => rfl
  | case4 => rfl

theorem rejoin_rejoin (s : Str) : rejoin (rejoin s) = rejoin s := by
  have hscan := scanString_rejoin (rejoin s) []
  rw [flatMap_rejoin, scanString_rejoin, Except.ok.injEq, Prod.mk.injEq] at hscan
  exact hscan.1.symm

/-- The text starts with the escape of the second half of a pair. -/
def LowStart (text : Str) : Prop :=
  ∃ l1 l2 l3 l4 after w, text = backslash :: cp 117 :: l1 :: l2 :: l3 :: l4 :: after ∧
    hexValue4 l1 l2 l3 l4 = some w ∧ isLowSurrogate w = true

/-- What a string literal gives. -/
structure Literal (text s rest : Str) : Prop where
  joined : rejoin s = s
  low : ∀ c ∈ s.head?, isLowSurrogate c.val = true → LowStart text
  suffix : rest <:+ text

theorem rejoin_cons {c : CodePoint} {s : Str} (hs : rejoin s = s)
    (h : isHighSurrogate c.val = true → ∀ d ∈ s.head?, isLowSurrogate d.val = false) :
    rejoin (c :: s) = c :: s := by
  cases s with
  | nil => rfl
  | cons d s =>
      have hpair : ¬ (isHighSurrogate c.val && isLowSurrogate d.val) = true := by
        rw [Bool.and_eq_true]
        rintro ⟨hhigh, hlow⟩
        rw [h hhigh d rfl] at hlow
        cases hlow
      rw [rejoin, if_neg hpair, hs]

theorem length_rejoin_le (s : Str) : (rejoin s).length ≤ s.length := by
  induction s using rejoin.induct with
  | case1 a b rest hpair ih =>
      rw [rejoin, if_pos hpair]
      simp only [List.length_cons]
      omega
  | case2 a b rest hpair ih =>
      rw [rejoin, if_neg hpair]
      simpa using ih
  | case3 a => exact Nat.le_refl _
  | case4 => exact Nat.le_refl _

/-- In a string with nothing to join, no pair is split. -/
theorem not_pair_of_rejoin {c d : CodePoint} {s : Str} (h : rejoin (c :: d :: s) = c :: d :: s) :
    ¬ (isHighSurrogate c.val && isLowSurrogate d.val) = true := by
  intro hpair
  rw [rejoin, if_pos hpair] at h
  have hlength := congrArg List.length h
  have hle := length_rejoin_le s
  simp only [List.length_cons] at hlength
  omega

theorem rejoin_tail {c : CodePoint} {s : Str} (h : rejoin (c :: s) = c :: s) : rejoin s = s := by
  cases s with
  | nil => rfl
  | cons d s =>
      rw [rejoin, if_neg (not_pair_of_rejoin h)] at h
      exact (List.cons.inj h).2

/-- Nothing is joined where a string without second halves at its start follows. -/
theorem rejoin_append {s t : Str} (hs : rejoin s = s) (ht : rejoin t = t)
    (h : ∀ d ∈ t.head?, isLowSurrogate d.val = false) : rejoin (s ++ t) = s ++ t := by
  induction s with
  | nil => exact ht
  | cons c s ih =>
      refine rejoin_cons (ih (rejoin_tail hs)) fun hhigh d hd => ?_
      cases s with
      | nil => exact h d hd
      | cons e s =>
          cases hd
          have hpair := not_pair_of_rejoin hs
          rw [Bool.not_eq_true, hhigh, Bool.true_and] at hpair
          exact hpair

theorem rejoin_of_ascii {s : Str} (h : ∀ c ∈ s, c.isAscii = true) : rejoin s = s :=
  rejoin_of_encodable (Str.encodable_of_ascii h)

theorem rejoin_lit {s : String} (h : ((lit s).all CodePoint.isAscii) = true) :
    rejoin (lit s) = lit s :=
  rejoin_of_ascii (List.all_eq_true.mp h)

theorem consPoint_eq_ok_iff {c : CodePoint} {x : Except LoadsError (Str × Str)} {s rest : Str} :
    consPoint c x = .ok (s, rest) ↔ ∃ t, x = .ok (t, rest) ∧ s = c :: t := by
  cases x with
  | error e => simp [consPoint]
  | ok r =>
      obtain ⟨t, rest'⟩ := r
      simp only [consPoint, Except.ok.injEq, Prod.mk.injEq]
      constructor
      · rintro ⟨rfl, rfl⟩
        exact ⟨t, ⟨rfl, rfl⟩, rfl⟩
      · rintro ⟨t', ⟨rfl, rfl⟩, rfl⟩
        exact ⟨rfl, rfl⟩

variable {text after s rest : Str} {c : CodePoint}

/-- A character that is no surrogate in front of a string. -/
theorem Literal.cons (h : Literal after s rest) (hc : c.isSurrogate = false)
    (hsuffix : after <:+ text) : Literal text (c :: s) rest := by
  simp only [CodePoint.isSurrogate, Bool.and_eq_false_iff, decide_eq_false_iff_not] at hc
  refine ⟨rejoin_cons h.joined fun hhigh => ?_, ?_, h.suffix.trans hsuffix⟩
  · simp only [isHighSurrogate, Bool.and_eq_true, decide_eq_true_eq] at hhigh
    omega
  · intro d hd hlow
    cases hd
    simp only [isLowSurrogate, Bool.and_eq_true, decide_eq_true_eq] at hlow
    omega

/-- A surrogate that no second half follows, in front of a string. -/
theorem Literal.cons_escape (h : Literal after s rest) {l1 l2 l3 l4 : CodePoint} {v : Nat}
    (hv : hexValue4 l1 l2 l3 l4 = some v) (hlt : v < 0x110000)
    (hpair : isHighSurrogate v = true → ¬ LowStart after) :
    Literal (backslash :: cp 117 :: l1 :: l2 :: l3 :: l4 :: after) (cp v :: s) rest := by
  have hsuffix : after <:+ backslash :: cp 117 :: l1 :: l2 :: l3 :: l4 :: after :=
    ⟨[backslash, cp 117, l1, l2, l3, l4], rfl⟩
  refine ⟨rejoin_cons h.joined fun hhigh => ?_, ?_, h.suffix.trans hsuffix⟩
  · rw [cp_val_of_lt hlt] at hhigh
    intro d hd
    rw [Bool.eq_false_iff]
    exact fun hlow => hpair hhigh (h.low d hd hlow)
  · intro d hd hlow
    cases hd
    rw [cp_val_of_lt hlt] at hlow
    exact ⟨l1, l2, l3, l4, after, v, rfl, hv, hlow⟩

theorem hexValue_lt {c : CodePoint} {v : Nat} (h : hexValue c = some v) : v < 16 := by
  unfold hexValue at h
  split_ifs at h with hdigit
  · cases h
    simp only [CodePoint.isAsciiDigit, Bool.and_eq_true, decide_eq_true_eq] at hdigit
    omega
  · cases h
    omega
  · cases h
    omega

theorem hexValue4_lt {a b c d : CodePoint} {v : Nat} (h : hexValue4 a b c d = some v) :
    v < 0x110000 := by
  simp only [hexValue4, Option.bind_eq_bind, Option.bind_eq_some_iff, Option.pure_def,
    Option.some.injEq] at h
  obtain ⟨a', ha, b', hb, c', hc, d', hd, rfl⟩ := h
  have := hexValue_lt ha
  have := hexValue_lt hb
  have := hexValue_lt hc
  have := hexValue_lt hd
  omega

theorem isSurrogate_escapedLetter {e p : CodePoint} (h : escapedLetter e = some p) :
    p.isSurrogate = false := by
  unfold escapedLetter at h
  split_ifs at h with hself
  · cases h
    rcases hself with rfl | rfl | rfl <;> decide
  all_goals
    cases h
    decide

theorem lowStart_cons_iff {b u l1 l2 l3 l4 : CodePoint} {after : Str} :
    LowStart (b :: u :: l1 :: l2 :: l3 :: l4 :: after) ↔
      (b = backslash ∧ u = cp 117) ∧ ∃ w, hexValue4 l1 l2 l3 l4 = some w ∧
        isLowSurrogate w = true := by
  constructor
  · rintro ⟨_, _, _, _, _, w, heq, hw, hlow⟩
    cases heq
    exact ⟨⟨rfl, rfl⟩, w, hw, hlow⟩
  · rintro ⟨⟨rfl, rfl⟩, w, hw, hlow⟩
    exact ⟨_, _, _, _, _, w, rfl, hw, hlow⟩

theorem encodable_tail {a text : Str} (h : Str.encodable text = true) (hsuffix : a <:+ text) :
    Str.encodable a = true :=
  Str.encodable_of_isInfix hsuffix.isInfix h

/-- A string literal in a text without surrogates. -/
theorem scanString_literal (htext : Str.encodable text = true)
    (h : scanString text = .ok (s, rest)) : Literal text s rest := by
  have hbq : backslash ≠ quote := by decide
  induction text using scanString.induct generalizing s with
  | case1 =>
      rw [scanString.eq_def] at h
      cases h
  | case2 more =>
      rw [scanString.eq_def] at h
      simp only [if_true, Except.ok.injEq, Prod.mk.injEq] at h
      obtain ⟨rfl, rfl⟩ := h
      exact ⟨rfl, by rintro _ ⟨⟩, List.suffix_cons _ _⟩
  | case3 =>
      rw [scanString.eq_def] at h
      simp [hbq] at h
  | case4 h1 h2 h3 h4 more hv =>
      rw [scanString.eq_def] at h
      simp [hbq, hv] at h
  | case5 h1 h2 h3 h4 v hv hhigh b u l1 l2 l3 l4 after hescape hw =>
      rw [scanString.eq_def] at h
      simp [hbq, hv, hhigh, hescape, hw] at h
  | case6 h1 h2 h3 h4 v hv hhigh b u l1 l2 l3 l4 after hescape w hw hlow _ ih =>
      have hsuffix : after <:+
          backslash :: cp 117 :: h1 :: h2 :: h3 :: h4 :: b :: u :: l1 :: l2 :: l3 :: l4 :: after :=
        ⟨[backslash, cp 117, h1, h2, h3, h4, b, u, l1, l2, l3, l4], rfl⟩
      rw [scanString.eq_def] at h
      simp only [if_neg hbq, if_true, hv, hhigh, if_pos hescape, hw, hlow,
        consPoint_eq_ok_iff] at h
      obtain ⟨t, ht, rfl⟩ := h
      refine (ih (encodable_tail htext hsuffix) ht).cons ?_ hsuffix
      simp only [isHighSurrogate, isLowSurrogate, Bool.and_eq_true, decide_eq_true_eq] at hhigh hlow
      simp only [CodePoint.isSurrogate, Bool.and_eq_false_iff, decide_eq_false_iff_not]
      rw [cp_val_of_lt (by omega)]
      omega
  | case7 h1 h2 h3 h4 v hv hhigh b u l1 l2 l3 l4 after hescape w hw hlow _ ih =>
      rw [scanString.eq_def] at h
      simp only [if_neg hbq, if_true, hv, hhigh, if_pos hescape, hw, if_neg hlow,
        consPoint_eq_ok_iff] at h
      obtain ⟨t, ht, rfl⟩ := h
      have hliteral := ih (encodable_tail htext ⟨[backslash, cp 117, h1, h2, h3, h4], rfl⟩) ht
      refine hliteral.cons_escape hv (hexValue4_lt hv) fun _ hstart => ?_
      obtain ⟨-, w', hw', hlow'⟩ := lowStart_cons_iff.mp hstart
      rw [hw, Option.some.injEq] at hw'
      exact hlow (hw' ▸ hlow')
  | case8 h1 h2 h3 h4 v hv hhigh b u l1 l2 l3 l4 after hescape _ ih =>
      rw [scanString.eq_def] at h
      simp only [if_neg hbq, if_true, hv, hhigh, if_neg hescape, consPoint_eq_ok_iff] at h
      obtain ⟨t, ht, rfl⟩ := h
      have hliteral := ih (encodable_tail htext ⟨[backslash, cp 117, h1, h2, h3, h4], rfl⟩) ht
      exact hliteral.cons_escape hv (hexValue4_lt hv) fun _ hstart =>
        hescape (lowStart_cons_iff.mp hstart).1
  | case9 h1 h2 h3 h4 v hv hhigh more hshort _ ih =>
      rw [scanString.eq_def] at h
      simp only [if_neg hbq, if_true, hv, hhigh, consPoint_eq_ok_iff] at h
      obtain ⟨t, ht, rfl⟩ := h
      have hliteral := ih (encodable_tail htext ⟨[backslash, cp 117, h1, h2, h3, h4], rfl⟩) ht
      refine hliteral.cons_escape hv (hexValue4_lt hv) fun _ hstart => ?_
      obtain ⟨l1, l2, l3, l4, after, -, heq, -, -⟩ := hstart
      exact hshort _ _ _ _ _ _ _ heq
  | case10 h1 h2 h3 h4 more v hv hhigh _ ih =>
      rw [scanString.eq_def] at h
      simp only [if_neg hbq, if_true, hv, if_neg hhigh, consPoint_eq_ok_iff] at h
      obtain ⟨t, ht, rfl⟩ := h
      have hliteral := ih (encodable_tail htext ⟨[backslash, cp 117, h1, h2, h3, h4], rfl⟩) ht
      exact hliteral.cons_escape hv (hexValue4_lt hv) fun h' => absurd h' hhigh
  | case11 more hshort =>
      rw [scanString.eq_def] at h
      simp only [if_neg hbq, if_true] at h
      cases h
  | case12 e more hu p hp _ ih =>
      rw [scanString.eq_def] at h
      simp only [if_neg hbq, if_true, if_neg hu, hp, consPoint_eq_ok_iff] at h
      obtain ⟨t, ht, rfl⟩ := h
      have hsuffix : more <:+ backslash :: e :: more := ⟨[backslash, e], rfl⟩
      exact (ih (encodable_tail htext hsuffix) ht).cons (isSurrogate_escapedLetter hp) hsuffix
  | case13 e more hu hp =>
      rw [scanString.eq_def] at h
      simp [hbq, hu, hp] at h
  | case14 d more hq hb hctl =>
      rw [scanString.eq_def] at h
      simp [hq, hb, hctl] at h
  | case15 d more hq hb hctl ih =>
      rw [scanString.eq_def] at h
      simp only [if_neg hq, if_neg hb, if_neg hctl, consPoint_eq_ok_iff] at h
      obtain ⟨t, ht, rfl⟩ := h
      have hsuffix := List.suffix_cons d more
      exact (ih (encodable_tail htext hsuffix) ht).cons (Str.encodable_cons.mp htext).1 hsuffix

end Strings

section Numbers

variable {F : FloatText} {text digits rest : Str} {v : Json}

theorem digitsValue_lt (h : ∀ c ∈ digits, c.isAsciiDigit = true) :
    digitsValue digits < 10 ^ digits.length := by
  have hfold (n : Nat) (digits : Str) (h : ∀ c ∈ digits, c.isAsciiDigit = true) :
      digits.foldl (fun n c => n * 10 + (c.val - 48)) n < (n + 1) * 10 ^ digits.length := by
    induction digits generalizing n with
    | nil => simp
    | cons c digits ih =>
        have hc := h c List.mem_cons_self
        simp only [CodePoint.isAsciiDigit, Bool.and_eq_true, decide_eq_true_eq] at hc
        rw [List.foldl_cons, List.length_cons, Nat.pow_succ']
        calc
          _ < (n * 10 + (c.val - 48) + 1) * 10 ^ digits.length :=
            ih _ fun d hd => h d (List.mem_cons_of_mem _ hd)
          _ ≤ (n + 1) * 10 * 10 ^ digits.length := Nat.mul_le_mul_right _ (by omega)
          _ = (n + 1) * (10 * 10 ^ digits.length) := Nat.mul_assoc _ _ _
  simpa [digitsValue] using hfold 0 digits h

theorem scanInteger_spec (h : scanInteger text = some (digits, rest)) :
    digits ≠ [] ∧ (∀ c ∈ digits, c.isAsciiDigit = true) ∧ rest <:+ text := by
  cases text with
  | nil => cases h
  | cons c more =>
      rw [scanInteger] at h
      split_ifs at h with hzero hdigit
      · cases h
        refine ⟨List.cons_ne_nil _ _, fun d hd => ?_, List.suffix_cons _ _⟩
        rw [List.mem_singleton.mp hd, hzero]
        decide
      · cases h
        refine ⟨List.cons_ne_nil _ _, List.forall_mem_cons.mpr ⟨hdigit, fun d hd => ?_⟩, ?_⟩
        · exact List.mem_takeWhile_imp hd
        · exact (List.dropWhile_suffix _).trans (List.suffix_cons _ _)

theorem scanFraction_suffix (text : Str) : (scanFraction text).2 <:+ text := by
  cases text with
  | nil => exact List.suffix_refl _
  | cons c more =>
      rw [scanFraction]
      split
      · exact (List.dropWhile_suffix _).trans (List.suffix_cons _ _)
      · exact List.suffix_refl _

theorem scanExponent_suffix (text : Str) : (scanExponent text).2 <:+ text := by
  cases text with
  | nil => exact List.suffix_refl _
  | cons c more =>
      rw [scanExponent]
      split
      · simp only
        split
        · exact ((List.drop_suffix _ _).trans (List.drop_suffix _ _)).trans (List.suffix_cons _ _)
        · exact List.suffix_refl _
      · exact List.suffix_refl _

theorem readable_integerValue {negative : Bool} (hne : digits ≠ [])
    (hdigits : ∀ c ∈ digits, c.isAsciiDigit = true)
    (h : integerValue negative digits = .ok v) : Readable v ∧ v.depth = 0 := by
  rw [integerValue] at h
  split at h
  · cases h
  rename_i hlong
  cases h
  have hshort : tooLong (digitsValue digits) = false := by
    rw [tooLong, decide_eq_false_iff_not, not_lt]
    exact (length_decimalDigits_le (List.length_pos_iff.mpr hne) (digitsValue_lt hdigits)).trans
      (not_lt.mp hlong)
  refine ⟨?_, rfl⟩
  cases negative with
  | false => exact .int hshort
  | true => exact .int (by simpa using hshort)

/-- A number token gives a number that can be written. -/
theorem scanNumber_readable (hF : F.Faithful) (h : scanNumber F text = .ok (v, rest)) :
    Readable v ∧ v.depth = 0 ∧ rest <:+ text := by
  rw [scanNumber] at h
  have hunsigned : (if (text.head? == some (cp 45)) = true then text.tail else text) <:+ text := by
    split
    · exact List.tail_suffix _
    · exact List.suffix_refl _
  simp only at h
  split at h
  · cases h
  · rename_i digits after hscan
    obtain ⟨hne, hdigits, hafter⟩ := scanInteger_spec hscan
    split at h
    · obtain ⟨w, hw, hpair⟩ := map_eq_ok_iff.mp h
      cases hpair
      obtain ⟨hreadable, hdepth⟩ := readable_integerValue hne hdigits hw
      exact ⟨hreadable, hdepth, hafter.trans hunsigned⟩
    · cases h
      refine ⟨.float ?_, rfl, ?_⟩
      · rcases hF.range _ with hfinite | hinf | hinf
        · exact .inl hfinite
        · exact .inr (by rw [hinf]; decide)
        · exact .inr (by rw [hinf]; decide)
      · exact (scanExponent_suffix _).trans
          ((scanFraction_suffix _).trans (hafter.trans hunsigned))

theorem scanConstant_readable {r : Json × Str} (h : scanConstant text = some r) :
    Readable r.1 ∧ r.1.depth = 0 ∧ r.2 <:+ text := by
  rw [scanConstant] at h
  obtain ⟨e, he, rfl⟩ := Option.map_eq_some_iff.mp h
  refine ⟨?_, ?_, List.drop_suffix _ _⟩
  · have hmem := List.mem_of_find?_eq_some he
    simp only [constants, List.mem_cons, List.not_mem_nil, or_false] at hmem
    rcases hmem with rfl | rfl | rfl | rfl | rfl | rfl
    · exact .null
    · exact .bool true
    · exact .bool false
    · exact .float (.inr (by decide))
    · exact .float (.inr (by decide))
    · exact .float (.inr (by decide))
  · have hmem := List.mem_of_find?_eq_some he
    simp only [constants, List.mem_cons, List.not_mem_nil, or_false] at hmem
    rcases hmem with rfl | rfl | rfl | rfl | rfl | rfl <;> rfl

end Numbers

section Values

variable {F : FloatText}

/-- What a scanner makes of a text: a value that can be written, within the stack, and the
text after it. -/
structure Scanned (depth : Nat) (text : Str) (v : Json) (rest : Str) : Prop where
  readable : Readable v
  depth_le : v.depth ≤ depth
  suffix : rest <:+ text

/-- What the scanners make of texts without surrogates, with a given fuel. -/
structure Scans (F : FloatText) (fuel : Nat) : Prop where
  value : ∀ {depth text v rest}, Str.encodable text = true →
    scanValue F fuel depth text = .ok (v, rest) → Scanned depth text v rest
  items : ∀ {depth text vs rest}, Str.encodable text = true →
    scanItems F fuel depth text = .ok (vs, rest) → Scanned (depth + 1) text (.arr vs) rest
  members : ∀ {depth sofar text fields rest}, Str.encodable text = true →
    Readable (.obj sofar) → Json.depthFields sofar ≤ depth →
    scanMembers F fuel depth sofar text = .ok (fields, rest) →
    Scanned (depth + 1) text (.obj fields) rest

theorem skipSpace_suffix (text : Str) : skipSpace text <:+ text := List.dropWhile_suffix _

theorem scans_zero : Scans F 0 where
  value := by
    intro depth text v rest _ h
    rw [scanValue] at h
    cases h
  items := by
    intro depth text vs rest _ h
    rw [scanItems] at h
    cases h
  members := by
    intro depth sofar text fields rest _ _ _ h
    rw [scanMembers] at h
    cases h

theorem scans_value_succ (hF : F.Faithful) {fuel : Nat} (hscans : Scans F fuel) {depth : Nat}
    {text rest : Str} {v : Json} (htext : Str.encodable text = true)
    (h : scanValue F (fuel + 1) depth text = .ok (v, rest)) : Scanned depth text v rest := by
  cases text with
  | nil =>
      rw [scanValue.eq_def] at h
      cases h
  | cons c more =>
      have hmore := List.suffix_cons c more
      have hskip := (skipSpace_suffix more).trans hmore
      rw [scanValue.eq_def] at h
      simp only at h
      split at h
      · obtain ⟨⟨s, after⟩, hs, hpair⟩ := map_eq_ok_iff.mp h
        cases hpair
        have hliteral := scanString_literal (encodable_tail htext hmore) hs
        exact ⟨.str hliteral.joined, Nat.zero_le _, hliteral.suffix.trans hmore⟩
      split at h
      · cases depth with
        | zero => cases h
        | succ depth =>
            simp only at h
            split at h
            · cases h
            · rename_i d after hspace
              rw [hspace] at hskip
              split at h
              · cases h
                exact ⟨readable_empty, Nat.succ_le_succ (Nat.zero_le _),
                  (List.suffix_cons _ _).trans hskip⟩
              · obtain ⟨⟨fields, last⟩, hfields, hpair⟩ := map_eq_ok_iff.mp h
                cases hpair
                have hscanned := hscans.members (encodable_tail htext hskip)
                  readable_empty (Nat.zero_le _) hfields
                exact ⟨hscanned.readable, hscanned.depth_le, hscanned.suffix.trans hskip⟩
      split at h
      · cases depth with
        | zero => cases h
        | succ depth =>
            simp only at h
            split at h
            · cases h
            · rename_i d after hspace
              rw [hspace] at hskip
              split at h
              · cases h
                exact ⟨.arr (by rintro _ ⟨⟩), Nat.succ_le_succ (Nat.zero_le _),
                  (List.suffix_cons _ _).trans hskip⟩
              · obtain ⟨⟨items, last⟩, hitems, hpair⟩ := map_eq_ok_iff.mp h
                cases hpair
                have hscanned := hscans.items (encodable_tail htext hskip) hitems
                exact ⟨hscanned.readable, hscanned.depth_le, hscanned.suffix.trans hskip⟩
      split at h
      · rename_i r hconstant
        cases h
        obtain ⟨hreadable, hdepth, hsuffix⟩ := scanConstant_readable hconstant
        exact ⟨hreadable, hdepth.trans_le (Nat.zero_le _), hsuffix⟩
      · obtain ⟨hreadable, hdepth, hsuffix⟩ := scanNumber_readable hF h
        exact ⟨hreadable, hdepth.trans_le (Nat.zero_le _), hsuffix⟩

theorem scans_items_succ {fuel : Nat} (hscans : Scans F fuel) {depth : Nat}
    {text rest : Str} {vs : List Json} (htext : Str.encodable text = true)
    (h : scanItems F (fuel + 1) depth text = .ok (vs, rest)) :
    Scanned (depth + 1) text (.arr vs) rest := by
  rw [scanItems] at h
  obtain ⟨⟨v, after⟩, hv, h⟩ := ok_of_bind h
  have hfirst := hscans.value htext hv
  have hskip := (skipSpace_suffix after).trans hfirst.suffix
  simp only at h
  split at h
  · cases h
  · rename_i d last hspace
    rw [hspace] at hskip
    have hlast := (List.suffix_cons _ _).trans hskip
    split at h
    · cases h
      refine ⟨.arr ?_, ?_, hlast⟩
      · rintro w hw
        rw [List.mem_singleton.mp hw]
        exact hfirst.readable
      · rw [Json.depth, Json.depthItems, Json.depthItems]
        exact Nat.succ_le_succ (max_le hfirst.depth_le (Nat.zero_le _))
    · split at h
      · obtain ⟨⟨ws, final⟩, hws, h⟩ := ok_of_bind h
        cases h
        have hnext := (skipSpace_suffix last).trans hlast
        have hothers := hscans.items (encodable_tail htext hnext) hws
        refine ⟨.arr ?_, ?_, hothers.suffix.trans hnext⟩
        · cases hothers.readable with
          | arr hall => exact List.forall_mem_cons.mpr ⟨hfirst.readable, hall⟩
        · have hdepth := hothers.depth_le
          rw [Json.depth] at hdepth ⊢
          rw [Json.depthItems]
          exact Nat.succ_le_succ (max_le hfirst.depth_le (Nat.le_of_succ_le_succ hdepth))
      · cases h

/-- An assignment of a value that can be written. -/
theorem readable_set {sofar : Entries Str Json} {key : Str} {v : Json} (hkey : rejoin key = key)
    (hv : Readable v) (h : Readable (.obj sofar)) :
    Readable (.obj (Entries.set sofar key v)) := by
  cases h with
  | obj hnodup hkeys hvalues =>
      refine .obj (Entries.nodup_set hnodup key v) (fun e he => ?_) fun e he => ?_
      · rcases Entries.mem_set he with rfl | hold
        · exact hkey
        · exact hkeys e hold
      · rcases Entries.mem_set he with rfl | hold
        · exact hv
        · exact hvalues e hold

theorem depthFields_set {sofar : Entries Str Json} (key : Str) {v : Json} {d : Nat}
    (hv : v.depth ≤ d) (h : Json.depthFields sofar ≤ d) :
    Json.depthFields (Entries.set sofar key v) ≤ d := by
  rw [Json.depthFields_le_iff] at h ⊢
  intro e he
  rcases Entries.mem_set he with rfl | hold
  · exact hv
  · exact h e hold

theorem scans_members_succ {fuel : Nat} (hscans : Scans F fuel) {depth : Nat}
    {sofar fields : Entries Str Json} {text rest : Str} (htext : Str.encodable text = true)
    (hsofar : Readable (.obj sofar)) (hdepth : Json.depthFields sofar ≤ depth)
    (h : scanMembers F (fuel + 1) depth sofar text = .ok (fields, rest)) :
    Scanned (depth + 1) text (.obj fields) rest := by
  cases text with
  | nil =>
      rw [scanMembers] at h
      cases h
  | cons c more =>
      have hmore := List.suffix_cons c more
      rw [scanMembers] at h
      split at h
      · obtain ⟨⟨key, afterKey⟩, hkey, h⟩ := ok_of_bind h
        have hliteral := scanString_literal (encodable_tail htext hmore) hkey
        have hskip := (skipSpace_suffix afterKey).trans (hliteral.suffix.trans hmore)
        simp only at h
        split at h
        · cases h
        · rename_i d afterColon hspace
          rw [hspace] at hskip
          split at h
          · obtain ⟨⟨v, afterValue⟩, hv, h⟩ := ok_of_bind h
            have hcolon := (skipSpace_suffix afterColon).trans
              ((List.suffix_cons d afterColon).trans hskip)
            have hvalue := hscans.value (encodable_tail htext hcolon) hv
            have hset := readable_set hliteral.joined hvalue.readable hsofar
            have hset_depth := depthFields_set key hvalue.depth_le hdepth
            have hend := (skipSpace_suffix afterValue).trans (hvalue.suffix.trans hcolon)
            simp only at h
            split at h
            · cases h
            · rename_i d' last hspace'
              rw [hspace'] at hend
              have hlast := (List.suffix_cons d' last).trans hend
              split at h
              · cases h
                exact ⟨hset, Nat.succ_le_succ hset_depth, hlast⟩
              · split at h
                · have hnext := (skipSpace_suffix last).trans hlast
                  have hothers := hscans.members (encodable_tail htext hnext) hset hset_depth h
                  exact ⟨hothers.readable, hothers.depth_le, hothers.suffix.trans hnext⟩
                · cases h
          · cases h
      · cases h

theorem scans (hF : F.Faithful) (fuel : Nat) : Scans F fuel := by
  induction fuel with
  | zero => exact scans_zero
  | succ fuel ih =>
      exact ⟨scans_value_succ hF ih, scans_items_succ ih, scans_members_succ ih⟩

/-- What a text without surrogates of its own gives can be written, and takes no more of the
stack than there is. -/
theorem readable_of_loads (hF : F.Faithful) {depth : Nat} {text : Str} {v : Json}
    (htext : Str.encodable text = true) (h : loads F depth text = .ok v) :
    Readable v ∧ v.depth ≤ depth := by
  rw [loads] at h
  split at h
  · cases h
  · obtain ⟨⟨w, rest⟩, hw, h⟩ := ok_of_bind h
    simp only at h
    split at h
    · cases h
      have hscanned := (scans hF _).value (encodable_tail htext (skipSpace_suffix text)) hw
      exact ⟨hscanned.readable, hscanned.depth_le⟩
    · cases h

end Values

section Writing

variable {F : FloatText} {style : Style}

/-- A finite float is read back wherever it is written. -/
theorem readsBack_finite (hF : F.Faithful) {bits : BitVec 64} (hfinite : isFinite bits = true) :
    ReadsBack F style (.float bits) := by
  intro text h fuel depth rest hfuel _ hrest
  rw [dumps, if_pos hfinite] at h
  cases h
  have hback := hF.back hfinite hrest
  obtain ⟨c, t, hdigit, hhead⟩ := hF.head hfinite
  obtain ⟨fuel, rfl⟩ : ∃ n, fuel = n + 1 := by
    have hpos : 0 < (F.repr bits).length := by
      rcases hhead with hhead | hhead <;> rw [hhead] <;> exact Nat.succ_pos _
    exact ⟨fuel - 1, by omega⟩
  rcases hhead with hhead | hhead
  · rw [hhead, List.cons_append] at hback ⊢
    rw [scanValue_other F fuel depth _ (ne_of_isAsciiDigit hdigit),
      (scanConstant_digits hdigit _).1]
    exact hback
  · rw [hhead, List.cons_append, List.cons_append] at hback ⊢
    rw [scanValue_other F fuel depth _ (by decide), (scanConstant_digits hdigit _).2]
    exact hback

theorem opening_finite (hF : F.Faithful) {bits : BitVec 64} (hfinite : isFinite bits = true) :
    Opening F style (.float bits) := by
  intro text htext
  rw [dumps, if_pos hfinite] at htext
  cases htext
  obtain ⟨c, t, hdigit, hhead | hhead⟩ := hF.head hfinite
  · exact ⟨c, t, hhead, opens_of_isAsciiDigit hdigit⟩
  · exact ⟨_, _, hhead, by decide⟩

theorem readsBack_float (hF : F.Faithful) (hnan : style.allowNan = true) {bits : BitVec 64}
    (h : isFinite bits = true ∨ bits ∈ nonFinite) : ReadsBack F style (.float bits) := by
  rcases h with hfinite | hmem
  · exact readsBack_finite hF hfinite
  · simp only [nonFinite, List.mem_cons, List.not_mem_nil, or_false] at hmem
    have hwritten (w : BitVec 64) (hw : isFinite w = false) :
        dumps F style (.float w) = some (nonFiniteText w) := by
      rw [dumps, if_neg (by rw [hw]; exact Bool.false_ne_true), if_pos hnan]
    rcases hmem with rfl | rfl | rfl
    · have htext : dumps F style (.float 0x7FF8000000000000) = some (cp 78 :: lit "aN") :=
        hwritten _ (by decide)
      apply readsBack_constant F htext
      · decide
      · intro rest
        rfl
    · have htext : dumps F style (.float 0x7FF0000000000000) = some (cp 73 :: lit "nfinity") :=
        hwritten _ (by decide)
      apply readsBack_constant F htext
      · decide
      · intro rest
        rfl
    · have htext : dumps F style (.float 0xFFF0000000000000) = some (cp 45 :: lit "Infinity") :=
        hwritten _ (by decide)
      apply readsBack_constant F htext
      · decide
      · intro rest
        rfl

theorem readsBack_joined (hascii : style.ensureAscii = true) {s : Str} (hs : rejoin s = s) :
    ReadsBack F style (.str s) := by
  intro text h fuel depth rest hfuel _ _
  cases h
  cases fuel with
  | zero => simp [stringText] at hfuel
  | succ fuel =>
      rw [stringText, hascii, List.cons_append, List.cons_append, List.append_assoc,
        List.singleton_append, scanValue_quote, scanString_rejoin, hs]
      rfl

theorem keyBack_joined (hascii : style.ensureAscii = true) {key : Str} (hkey : rejoin key = key) :
    KeyBack style key := by
  intro rest
  rw [hascii, scanString_rejoin, hkey]

theorem printable_natText (n : Nat) : Printable (natText n) := by
  intro c hc
  have hdigit := natText_isDigit n c hc
  simp only [CodePoint.isAsciiDigit, Bool.and_eq_true, decide_eq_true_eq] at hdigit
  omega

theorem printable_intText (n : Int) : Printable (intText n) := by
  cases n with
  | ofNat n => exact printable_natText n
  | negSucc n => exact .cons (by decide) (printable_natText _)

theorem printable_lit {s : String}
    (h : ((lit s).all fun c => decide (32 ≤ c.val ∧ c.val < 127)) = true) :
    Printable (lit s) := fun c hc => of_decide_eq_true (List.all_eq_true.mp h c hc)

theorem printable_nonFiniteText (bits : BitVec 64) : Printable (nonFiniteText bits) := by
  unfold nonFiniteText
  split_ifs
  · exact printable_lit (by decide)
  · exact printable_lit (by decide)
  · exact printable_lit (by decide)

theorem printable_join {texts : List Str} (h : ∀ t ∈ texts, Printable t) :
    Printable (Str.join [comma] texts) := by
  induction texts with
  | nil => exact printable_nil
  | cons t rest ih =>
      have hrest := ih (List.forall_mem_of_forall_mem_cons h)
      cases rest with
      | nil => simpa using h t List.mem_cons_self
      | cons t' rest =>
          rw [Str.join_cons_cons]
          exact ((h t List.mem_cons_self).append (.cons (by decide) printable_nil)).append hrest

/-- A string is written as what is read of it. -/
theorem dumps_rejoin (hascii : style.ensureAscii = true) (s : Str) :
    dumps F style (.str (rejoin s)) = dumps F style (.str s) := by
  rw [dumps, dumps, stringText, stringText, hascii, flatMap_rejoin]

/-- A dictionary is written in the same way with values that are. -/
theorem dumps_set_congr {fields : Entries Str Json} {key : Str} {v w : Json}
    (h : dumps F style v = dumps F style w) :
    dumps F style (.obj (Entries.set fields key v)) =
      dumps F style (.obj (Entries.set fields key w)) := by
  have hfields : dumpsFields F style (Entries.set fields key v) =
      dumpsFields F style (Entries.set fields key w) := by
    induction fields with
    | nil => simp only [Entries.set, dumpsFields, h]
    | cons e rest ih =>
        obtain ⟨k, u⟩ := e
        rw [Entries.set, Entries.set]
        split
        · simp only [dumpsFields, h]
        · simp only [dumpsFields, ih]
  rw [dumps, hfields, dumps]

/-- The text of a dictionary that is not empty starts with a brace and a quote. -/
theorem dumps_obj_opening {e : Str × Json} {fields : List (Str × Json)} {text : Str}
    (h : dumps F style (.obj (e :: fields)) = some text) :
    ∃ rest, text = openBrace :: quote :: rest := by
  rw [dumps, dumpsFields] at h
  obtain ⟨texts, htexts, h⟩ := Option.bind_eq_some_iff.mp h
  obtain ⟨first, -, htexts⟩ := Option.bind_eq_some_iff.mp htexts
  obtain ⟨more, -, htexts⟩ := Option.bind_eq_some_iff.mp htexts
  cases htexts
  cases h
  have hlength := (orderedFields_perm style.sortKeys ((e.1, first) :: more)).length_eq
  cases hordered : orderedFields style.sortKeys ((e.1, first) :: more) with
  | nil =>
      rw [hordered] at hlength
      cases hlength
  | cons member members =>
      rw [List.map_cons]
      cases members with
      | nil => exact ⟨_, rfl⟩
      | cons second members => exact ⟨_, rfl⟩

/-- A dictionary of values that are read back, in a line of its own. -/
theorem loads_line_of (hstyle : style.Unsorted) {fields : List (Str × Json)}
    (hnodup : (Entries.keys fields).Nodup) (hhead : ∀ e ∈ fields, Opening F style e.2)
    (hkeys : ∀ e ∈ fields, KeyBack style e.1) (hread : ∀ e ∈ fields, ReadsBack F style e.2)
    {text : Str} (hopening : ∃ c t, text = c :: t ∧ Opens c)
    (htext : dumps F style (.obj fields) = some text) {depth : Nat}
    (hdepth : Json.depth (.obj fields) ≤ depth) :
    loads F depth (text ++ [cp 10]) = .ok (.obj fields) := by
  obtain ⟨c, t, rfl, hopens⟩ := hopening
  have hscan : scanValue F (2 * ((c :: t) ++ [cp 10]).length + 2) depth
      ((c :: t) ++ [cp 10]) = .ok (.obj fields, [cp 10]) :=
    scanValue_dumps_obj hstyle hnodup hhead hkeys hread htext [cp 10]
      (by simp only [List.length_append, List.length_singleton]; omega) hdepth
  have hbom : ((c :: t) ++ [cp 10]).head? ≠ some (cp 0xFEFF) := by
    rw [List.cons_append, List.head?_cons, ne_eq, Option.some.injEq]
    exact hopens.2.2.2
  rw [loads, if_neg hbom, List.cons_append, skipSpace_of_opens hopens, ← List.cons_append,
    hscan]
  rfl

namespace Readable

theorem opening (hF : F.Faithful) (hnan : style.allowNan = true) {v : Json} (h : Readable v) :
    Opening F style v := by
  intro text htext
  cases h with
  | null => exact dumps_head .null htext
  | bool b => exact dumps_head (.bool b) htext
  | int => exact dumps_head (.int _) htext
  | @float bits =>
      by_cases hfinite : isFinite bits = true
      · exact opening_finite hF hfinite htext
      rw [dumps, if_neg hfinite, if_pos hnan] at htext
      · cases htext
        unfold nonFiniteText
        split_ifs
        · exact ⟨_, _, rfl, by decide⟩
        · exact ⟨_, _, rfl, by decide⟩
        · exact ⟨_, _, rfl, by decide⟩
  | str =>
      cases htext
      exact ⟨_, _, rfl, opens_quote⟩
  | arr =>
      rw [dumps] at htext
      obtain ⟨texts, -, htext⟩ := Option.bind_eq_some_iff.mp htext
      cases htext
      exact ⟨_, _, rfl, by decide⟩
  | obj =>
      rw [dumps] at htext
      obtain ⟨texts, -, htext⟩ := Option.bind_eq_some_iff.mp htext
      cases htext
      exact ⟨_, _, rfl, by decide⟩

theorem readsBack (hF : F.Faithful) (hstyle : style.Unsorted) (hascii : style.ensureAscii = true)
    (hnan : style.allowNan = true) {v : Json} (h : Readable v) : ReadsBack F style v := by
  induction h with
  | null => exact readsBack_constant F rfl (by decide) fun _ => rfl
  | bool b =>
      cases b
      · exact readsBack_constant F rfl (by decide) fun _ => rfl
      · exact readsBack_constant F rfl (by decide) fun _ => rfl
  | int => exact readsBack_int F style _
  | float hbits => exact readsBack_float hF hnan hbits
  | str hs => exact readsBack_joined hascii hs
  | arr hitems ih => exact readsBack_arr (fun v hv => (hitems v hv).opening hF hnan) ih
  | obj hnodup hkeys hvalues ih =>
      exact readsBack_obj hstyle hnodup (fun e he => (hvalues e he).opening hF hnan)
        (fun e he => keyBack_joined hascii (hkeys e he)) ih

theorem sorted {v : Json} (h : Readable v) : Readable v.sorted := by
  induction h with
  | null => simpa using Readable.null
  | bool b => simpa using Readable.bool b
  | int hn => simpa using Readable.int hn
  | float hbits => simpa using Readable.float hbits
  | str hs => simpa using Readable.str hs
  | arr _ ih =>
      rw [Json.sorted_arr]
      refine .arr fun v hv => ?_
      obtain ⟨w, hw, rfl⟩ := List.mem_map.mp hv
      exact ih w hw
  | @obj fields hnodup hkeys _ ih =>
      rw [Json.sorted_obj]
      have hmem {e : Str × Json} (he : e ∈ Json.sortedEntries fields) :
          ∃ f ∈ fields, (f.1, f.2.sorted) = e :=
        List.mem_map.mp ((Json.sortedEntries_perm fields).mem_iff.mp he)
      refine .obj ((Json.keys_sortedEntries fields).nodup_iff.mpr hnodup) ?_ ?_
      · intro e he
        obtain ⟨f, hf, rfl⟩ := hmem he
        exact hkeys f hf
      · intro e he
        obtain ⟨f, hf, rfl⟩ := hmem he
        exact ih f hf

theorem loads_dumps (hF : F.Faithful) (hstyle : style.Unsorted)
    (hascii : style.ensureAscii = true) (hnan : style.allowNan = true) {v : Json}
    (h : Readable v) {text : Str} (htext : dumps F style v = some text) {depth : Nat}
    (hdepth : v.depth ≤ depth) : loads F depth text = .ok v :=
  loads_of_readsBack (h.opening hF hnan) (h.readsBack hF hstyle hascii hnan) htext hdepth

/-- A text with sorted keys is read as the sorted value. -/
theorem loads_dumps_sorted (hF : F.Faithful) (hstyle : style.sortKeys = true)
    (hascii : style.ensureAscii = true) (hnan : style.allowNan = true) {v : Json}
    (h : Readable v) {text : Str} (htext : dumps F style v = some text) {depth : Nat}
    (hdepth : v.depth ≤ depth) : loads F depth text = .ok v.sorted := by
  have hsorted := dumps_sorted hstyle htext
  have hunsorted : Style.Unsorted { style with sortKeys := false } := rfl
  exact h.sorted.loads_dumps hF hunsorted hascii hnan hsorted (Json.depth_sorted_le hdepth)

/-- A dictionary in a line of its own. -/
theorem loads_line (hF : F.Faithful) (hstyle : style.Unsorted)
    (hascii : style.ensureAscii = true) (hnan : style.allowNan = true)
    {fields : List (Str × Json)} (h : Readable (.obj fields)) {text : Str}
    (htext : dumps F style (.obj fields) = some text) {depth : Nat}
    (hdepth : Json.depth (.obj fields) ≤ depth) :
    loads F depth (text ++ [cp 10]) = .ok (.obj fields) := by
  have hopening := h.opening hF hnan htext
  cases h with
  | obj hnodup hkeys hvalues =>
      exact loads_line_of hstyle hnodup (fun e he => (hvalues e he).opening hF hnan)
        (fun e he => keyBack_joined hascii (hkeys e he))
        (fun e he => (hvalues e he).readsBack hF hstyle hascii hnan) hopening htext hdepth

/-- A line with sorted keys is read as the sorted dictionary. -/
theorem loads_line_sorted (hF : F.Faithful) (hstyle : style.sortKeys = true)
    (hascii : style.ensureAscii = true) (hnan : style.allowNan = true)
    {fields : List (Str × Json)} (h : Readable (.obj fields)) {text : Str}
    (htext : dumps F style (.obj fields) = some text) {depth : Nat}
    (hdepth : Json.depth (.obj fields) ≤ depth) :
    loads F depth (text ++ [cp 10]) = .ok (.obj (Json.sortedEntries fields)) := by
  have hsorted := h.sorted
  have hwritten := dumps_sorted hstyle htext
  have hshort := Json.depth_sorted_le hdepth
  have hunsorted : Style.Unsorted { style with sortKeys := false } := rfl
  rw [Json.sorted_obj] at hsorted hwritten hshort
  exact hsorted.loads_line hF hunsorted hascii hnan hwritten hshort

/-- A value that can be written has a text of printable characters. -/
theorem exists_dumps (hF : F.Faithful) (hascii : style.ensureAscii = true)
    (hnan : style.allowNan = true) {v : Json} (h : Readable v) :
    ∃ text, dumps F style v = some text ∧ Printable text := by
  induction h with
  | null => exact ⟨_, rfl, printable_lit (by decide)⟩
  | bool b => cases b <;> exact ⟨_, rfl, printable_lit (by decide)⟩
  | int hn => exact ⟨_, if_neg (by simp [hn]), printable_intText _⟩
  | @float bits _ =>
      rw [dumps]
      split_ifs with hfinite
      · exact ⟨_, rfl, hF.printable hfinite⟩
      · exact ⟨_, rfl, printable_nonFiniteText _⟩
  | str _ => exact ⟨_, rfl, by rw [hascii]; exact stringText_printable _⟩
  | arr _ ih =>
      obtain ⟨texts, htexts, hall⟩ := exists_dumpsItems ih
      refine ⟨openBracket :: Str.join [comma] texts ++ [closeBracket], ?_, ?_⟩
      · rw [dumps, htexts]
        rfl
      · exact .cons (by decide) (.append (printable_join hall) (.cons (by decide) printable_nil))
  | @obj fields _ _ _ ih =>
      obtain ⟨texts, htexts, hall⟩ := exists_dumpsFields (K := fun _ => True)
        (fun e (_ : e ∈ fields) => trivial) ih
      refine ⟨openBrace :: Str.join [comma] ((orderedFields style.sortKeys texts).map
        (memberText style.ensureAscii)) ++ [closeBrace], ?_, ?_⟩
      · rw [dumps, htexts]
        rfl
      · refine .cons (by decide) (.append (printable_join fun t ht => ?_)
          (.cons (by decide) printable_nil))
        obtain ⟨e, he, rfl⟩ := List.mem_map.mp ht
        rw [memberText, hascii]
        exact ((stringText_printable _).append (.cons (by decide) printable_nil)).append
          (hall e (mem_orderedFields.mp he)).2

end Readable

end Writing

end JsonText

namespace FloatText

open JsonText

/-- Every float as its number with a fraction of zero. -/
def numbered : FloatText where
  repr bits := natText bits.toNat ++ lit ".0"
  parse token :=
    let bits := BitVec.ofNat 64 (digitsValue (token.takeWhile CodePoint.isAsciiDigit))
    if isFinite bits then bits else 0x7FF0000000000000

theorem scanNumber_numbered {bits : BitVec 64} (h : isFinite bits = true) {rest : Str}
    (hrest : Delimited rest) :
    scanNumber numbered (numbered.repr bits ++ rest) = .ok (.float bits, rest) := by
  have htext : numbered.repr bits ++ rest = natText bits.toNat ++ (cp 46 :: cp 48 :: rest) := by
    simp only [numbered, List.append_assoc]
    rfl
  have hhead : ((natText bits.toNat ++ (cp 46 :: cp 48 :: rest)).head? == some (cp 45)) =
      false := by
    obtain ⟨c, more, heq, hdigit, -⟩ := natText_head bits.toNat
    rw [heq, List.cons_append, List.head?_cons, Option.some_beq_some, beq_eq_false_iff_ne]
    rintro rfl
    exact absurd hdigit (by decide)
  have hstop : (cp 46 :: cp 48 :: rest).takeWhile CodePoint.isAsciiDigit = [] := rfl
  have hfraction : scanFraction (cp 46 :: cp 48 :: rest) = (lit ".0", rest) := by
    have hzero : ∀ c ∈ [cp 48], c.isAsciiDigit = true := by
      intro c hc
      rw [List.mem_singleton.mp hc]
      decide
    have htake := takeWhile_digits_append hzero hrest.not_digit
    have hdrop := dropWhile_digits_append hzero hrest.not_digit
    rw [List.singleton_append] at htake hdrop
    rw [scanFraction]
    simp only [htake, hdrop]
    rfl
  have hparse : numbered.parse (natText bits.toNat ++ lit ".0") = bits := by
    have hdigits := takeWhile_digits_append (natText_isDigit bits.toNat)
      (Eq.refl ((lit ".0").takeWhile CodePoint.isAsciiDigit))
    simp only [numbered, hdigits, digitsValue_natText, BitVec.ofNat_toNat, BitVec.setWidth_eq, h,
      if_true]
  rw [htext, scanNumber]
  simp only [hhead, Bool.false_eq_true, if_false, scanInteger_natText _ hstop, hfraction,
    scanExponent_delimited hrest]
  have hnonempty : (lit ".0").isEmpty = false := rfl
  simp only [hnonempty, Bool.false_and, Bool.false_eq_true, if_false, List.nil_append,
    List.append_nil, hparse]

/-- A way to write floats that reads every finite one back. -/
theorem numbered_faithful : numbered.Faithful where
  back := fun h hrest => scanNumber_numbered h hrest
  head := by
    intro bits _
    obtain ⟨c, t, heq, hdigit, -⟩ := natText_head bits.toNat
    exact ⟨c, t ++ lit ".0", hdigit, .inl (by simp only [numbered, heq, List.cons_append])⟩
  printable := fun _ => (printable_natText _).append (printable_lit (by decide))
  range := by
    intro token
    simp only [numbered]
    split_ifs with hfinite
    · exact .inl hfinite
    · exact .inr (.inl rfl)

end FloatText

end MediaBridge.Foundation
