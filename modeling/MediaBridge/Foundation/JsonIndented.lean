import MediaBridge.Foundation.JsonEncoded
import MediaBridge.Foundation.JsonReread

/-!
# JSON text with line breaks

`json.dump(value, stream, indent=2)`: every item and every member stands on a line of its own, and
a key is followed by a colon and a space. Where the text has an encoding, it is read as the value.

## Implementation notes

The interpreter writes the parts of such a text one after another; what counts is the whole of them.
A number may be followed by a line break here, as it may not in a compact text.
-/

namespace MediaBridge.Foundation

namespace JsonText

section Writing

/-- A line break and the indentation of a level. -/
def newLine (level : Nat) : Str := cp 10 :: List.replicate (2 * level) (cp 32)

/-- Texts between brackets, each on a line of its own. -/
def block (opening closing : CodePoint) (level : Nat) : List Str → Str
  | [] => [opening, closing]
  | text :: texts =>
      opening :: newLine (level + 1) ++ Str.join (comma :: newLine (level + 1)) (text :: texts) ++
        newLine level ++ [closing]

/-- A member with its key. -/
def memberLine (ensureAscii : Bool) (e : Str × Str) : Str :=
  stringText ensureAscii e.1 ++ [colon, cp 32] ++ e.2

mutual

/-- `json.dumps(value, indent=2, ...)` inside of `level` brackets. -/
def dumpsIndented (F : FloatText) (style : Style) (level : Nat) : Json → Option Str
  | .arr items => do
      let texts ← indentedItems F style (level + 1) items
      return block openBracket closeBracket level texts
  | .obj fields => do
      let texts ← indentedFields F style (level + 1) fields
      let members := (orderedFields style.sortKeys texts).map (memberLine style.ensureAscii)
      return block openBrace closeBrace level members
  | .null => dumps F style .null
  | .bool b => dumps F style (.bool b)
  | .int n => dumps F style (.int n)
  | .float bits => dumps F style (.float bits)
  | .str s => dumps F style (.str s)

/-- The texts of the items of a list. -/
def indentedItems (F : FloatText) (style : Style) (level : Nat) : List Json → Option (List Str)
  | [] => some []
  | v :: rest => do
      let text ← dumpsIndented F style level v
      let texts ← indentedItems F style level rest
      return text :: texts

/-- The texts of the values of a dictionary, each with its key. -/
def indentedFields (F : FloatText) (style : Style) (level : Nat) :
    List (Str × Json) → Option (List (Str × Str))
  | [] => some []
  | (k, v) :: rest => do
      let text ← dumpsIndented F style level v
      let texts ← indentedFields F style level rest
      return (k, text) :: texts

end

end Writing

section Numbers

/-- What may follow a value: a separator, a bracket or white space. -/
def Ends (rest : Str) : Prop :=
  ∀ c, rest.head? = some c →
    c = comma ∨ c = closeBracket ∨ c = closeBrace ∨ isJsonSpace c = true

theorem ends_cons {c : CodePoint} {rest : Str}
    (h : c = comma ∨ c = closeBracket ∨ c = closeBrace ∨ isJsonSpace c = true) :
    Ends (c :: rest) := by
  intro d hd
  cases hd
  exact h

variable {rest : Str}

/-- What ends a value is no part of a number. -/
theorem Ends.not_number (h : Ends rest) {c : CodePoint} (hc : rest.head? = some c) :
    c.isAsciiDigit = false ∧ c ≠ cp 46 ∧ c ≠ cp 101 ∧ c ≠ cp 69 ∧
      (c == cp 43 || c == cp 45) = false := by
  rcases h c hc with rfl | rfl | rfl | hspace
  · decide
  · decide
  · decide
  · simp only [isJsonSpace, Bool.or_eq_true, beq_iff_eq] at hspace
    rcases hspace with ((rfl | rfl) | rfl) | rfl <;> decide

/-- A run of letters stops at a letter of another kind. -/
theorem takeWhile_stop {p : CodePoint → Bool} (h : ∀ c, rest.head? = some c → p c = false)
    (text : Str) : (text ++ rest).takeWhile p = text.takeWhile p ∧
      (text ++ rest).dropWhile p = text.dropWhile p ++ rest := by
  induction text with
  | nil =>
      cases rest with
      | nil => exact ⟨rfl, rfl⟩
      | cons c rest =>
          have hc := h c rfl
          exact ⟨List.takeWhile_cons_of_neg (by simp [hc]),
            List.dropWhile_cons_of_neg (by simp [hc])⟩
  | cons c text ih =>
      cases hc : p c with
      | false => simp [hc]
      | true => simp [hc, ih.1, ih.2]

theorem scanInteger_append (h : Ends rest) {text digits after : Str}
    (hscan : scanInteger text = some (digits, after)) :
    scanInteger (text ++ rest) = some (digits, after ++ rest) := by
  cases text with
  | nil => cases hscan
  | cons c text =>
      obtain ⟨htake, hdrop⟩ := takeWhile_stop (fun _ hd => (h.not_number hd).1) text
      rw [scanInteger] at hscan
      rw [List.cons_append, scanInteger]
      split_ifs at hscan ⊢ with hzero hdigit
      · cases hscan
        rfl
      · cases hscan
        rw [htake, hdrop]

theorem scanFraction_append (h : Ends rest) (text : Str) :
    scanFraction (text ++ rest) = ((scanFraction text).1, (scanFraction text).2 ++ rest) := by
  cases text with
  | nil =>
      cases rest with
      | nil => rfl
      | cons c rest =>
          rw [List.nil_append, scanFraction]
          exact if_neg fun hc => (h.not_number rfl).2.1 hc.1
  | cons c text =>
      obtain ⟨htake, hdrop⟩ := takeWhile_stop (fun _ hd => (h.not_number hd).1) text
      rw [List.cons_append, scanFraction, scanFraction, htake, hdrop]
      split_ifs <;> rfl

theorem scanExponent_append (h : Ends rest) (text : Str) :
    scanExponent (text ++ rest) = ((scanExponent text).1, (scanExponent text).2 ++ rest) := by
  cases text with
  | nil =>
      cases rest with
      | nil => rfl
      | cons c rest =>
          obtain ⟨-, -, hlower, hupper, -⟩ := h.not_number rfl
          rw [List.nil_append, scanExponent]
          exact if_neg fun hc => hc.elim hlower hupper
  | cons c text =>
      have hsign := (takeWhile_stop (fun _ hd => (h.not_number hd).2.2.2.2) text).1
      have hlength : ((text.takeWhile fun d => d == cp 43 || d == cp 45).take 1).length ≤
          text.length :=
        (List.length_take_le' _ _).trans (List.takeWhile_prefix _).length_le
      have hdigits := (takeWhile_stop (fun _ hd => (h.not_number hd).1)
        (text.drop ((text.takeWhile fun d => d == cp 43 || d == cp 45).take 1).length)).1
      rw [List.cons_append, scanExponent, scanExponent]
      simp only [hsign, List.drop_append_of_le_length hlength, hdigits]
      split_ifs
      · rw [List.drop_append_of_le_length (List.takeWhile_prefix _).length_le]
      · rfl
      · rfl

/-- A number is read in front of whatever may follow a value. -/
theorem scanNumber_append {F : FloatText} (h : Ends rest) {text : Str} {v : Json}
    (hscan : scanNumber F text = .ok (v, [])) :
    scanNumber F (text ++ rest) = .ok (v, rest) := by
  have hne : text ≠ [] := by
    rintro rfl
    cases hscan
  have hhead : (text ++ rest).head? = text.head? := List.head?_append_of_ne_nil _ hne
  have htail : (text ++ rest).tail = text.tail ++ rest := List.tail_append_of_ne_nil hne
  have hunsigned : (if (text.head? == some (cp 45)) = true then text.tail ++ rest
      else text ++ rest) =
        (if (text.head? == some (cp 45)) = true then text.tail else text) ++ rest := by
    split <;> rfl
  simp only [scanNumber, hhead, htail, hunsigned] at hscan ⊢
  cases hinteger : scanInteger (if (text.head? == some (cp 45)) = true then text.tail
      else text) with
  | none =>
      rw [hinteger] at hscan
      cases hscan
  | some found =>
      obtain ⟨digits, after⟩ := found
      simp only [hinteger] at hscan
      simp only [scanInteger_append h hinteger, scanFraction_append h, scanExponent_append h]
      cases hplain : (scanFraction after).1.isEmpty &&
          (scanExponent (scanFraction after).2).1.isEmpty with
      | true =>
          simp only [hplain, if_true] at hscan ⊢
          cases hvalue : integerValue (text.head? == some (cp 45)) digits with
          | error e =>
              rw [hvalue] at hscan
              cases hscan
          | ok w =>
              rw [hvalue] at hscan
              cases hscan
              rfl
      | false =>
          simp only [hplain, Bool.false_eq_true, if_false] at hscan ⊢
          injection hscan with hscan
          injection hscan with hv hrest
          rw [hv, hrest, List.nil_append]

end Numbers

section Reading

variable {F : FloatText} {style : Style}

/-- A value whose text, where it has an encoding, is read as the value. -/
inductive Kept : Json → Prop
  | null : Kept .null
  | bool (b : Bool) : Kept (.bool b)
  | int (n : Int) : Kept (.int n)
  | float {bits : BitVec 64} : isFinite bits = true ∨ bits ∈ nonFinite → Kept (.float bits)
  | str (s : Str) : Kept (.str s)
  | arr {items : List Json} : (∀ v ∈ items, Kept v) → Kept (.arr items)
  | obj {fields : List (Str × Json)} : (Entries.keys fields).Nodup →
      (∀ e ∈ fields, Kept e.2) → Kept (.obj fields)

theorem Readable.kept {v : Json} (h : Readable v) : Kept v := by
  induction h with
  | null => exact .null
  | bool b => exact .bool b
  | int => exact .int _
  | float hbits => exact .float hbits
  | str => exact .str _
  | arr _ ih => exact .arr ih
  | obj hnodup _ _ ih => exact .obj hnodup ih

/-- The text of a value at a level starts with an opening letter and is read as the value. -/
def ReadsIndented (F : FloatText) (style : Style) (level : Nat) (v : Json) : Prop :=
  ∀ text, dumpsIndented F style level v = some text → text.encodable = true →
    (∃ c t, text = c :: t ∧ Opens c) ∧ ∀ fuel depth rest, 2 * text.length ≤ fuel →
      v.depth ≤ depth → Ends rest → scanValue F fuel depth (text ++ rest) = .ok (v, rest)

theorem skipSpace_newLine (level : Nat) (rest : Str) :
    skipSpace (newLine level ++ rest) = skipSpace rest := by
  apply List.dropWhile_append_of_pos
  intro c hc
  rcases List.mem_cons.mp hc with rfl | hc
  · rfl
  · rw [List.eq_of_mem_replicate hc]
    rfl

theorem skipSpace_line (level : Nat) {c : CodePoint} (h : Opens c) (rest : Str) :
    skipSpace (newLine level ++ c :: rest) = c :: rest := by
  rw [skipSpace_newLine, skipSpace_of_opens h]

theorem skipSpace_close {c : CodePoint} (h : isJsonSpace c = false) (level : Nat) (rest : Str) :
    skipSpace (newLine level ++ c :: rest) = c :: rest := by
  rw [skipSpace_newLine]
  exact List.dropWhile_cons_of_neg (by simp [h])

theorem ends_newLine (level : Nat) (rest : Str) : Ends (newLine level ++ rest) :=
  ends_cons (.inr (.inr (.inr rfl)))

section Leaves

variable {level : Nat}

/-- A value that is one word is read whatever follows it. -/
theorem readsIndented_constant {v : Json} {c : CodePoint} {t : Str}
    (hdumps : dumpsIndented F style level v = some (c :: t)) (hopens : Opens c)
    (hc : c ≠ quote ∧ c ≠ openBrace ∧ c ≠ openBracket)
    (hscan : ∀ rest, scanConstant (c :: t ++ rest) = some (v, rest)) :
    ReadsIndented F style level v := by
  intro text h _
  rw [hdumps] at h
  cases h
  refine ⟨⟨c, t, rfl, hopens⟩, fun fuel depth rest hfuel _ _ => ?_⟩
  cases fuel with
  | zero => simp at hfuel
  | succ fuel =>
      have hrest := hscan rest
      rw [List.cons_append] at hrest ⊢
      rw [scanValue_other F fuel depth _ hc, hrest]

/-- A number is read in front of a line break as in front of a separator. -/
theorem readsIndented_number {v : Json} {text : Str} {c : CodePoint} {t : Str}
    (hdumps : dumpsIndented F style level v = some text) (hdigit : c.isAsciiDigit = true)
    (htext : text = c :: t ∨ text = cp 45 :: c :: t)
    (hscan : scanNumber F text = .ok (v, [])) : ReadsIndented F style level v := by
  intro found h _
  rw [hdumps] at h
  cases h
  refine ⟨?_, fun fuel depth rest hfuel _ hrest => ?_⟩
  · rcases htext with rfl | rfl
    · exact ⟨c, t, rfl, opens_of_isAsciiDigit hdigit⟩
    · exact ⟨_, _, rfl, by decide⟩
  · have hback := scanNumber_append hrest hscan
    cases fuel with
    | zero => rcases htext with rfl | rfl <;> simp at hfuel
    | succ fuel =>
        rcases htext with rfl | rfl
        · rw [List.cons_append] at hback ⊢
          rw [scanValue_other F fuel depth _ (ne_of_isAsciiDigit hdigit),
            (scanConstant_digits hdigit _).1]
          exact hback
        · rw [List.cons_append, List.cons_append] at hback ⊢
          rw [scanValue_other F fuel depth _ (by decide), (scanConstant_digits hdigit _).2]
          exact hback

theorem readsIndented_int (n : Int) : ReadsIndented F style level (.int n) := by
  intro text h hgood
  have hdumps : dumpsIndented F style level (.int n) = dumps F style (.int n) := by
    rw [dumpsIndented]
  have hshort : tooLong n.natAbs = false := by
    rw [hdumps, dumps] at h
    split_ifs at h with hlong
    exact Bool.eq_false_iff.mpr hlong
  have hscan : scanNumber F (intText n) = .ok (.int n, []) := by
    simpa using scanNumber_intText F hshort delimited_nil
  have htext : dumpsIndented F style level (.int n) = some (intText n) := by
    rw [hdumps, dumps, if_neg (by simp [hshort])]
  cases n with
  | ofNat n =>
      obtain ⟨c, t, heq, hdigit, -⟩ := natText_head n
      exact readsIndented_number htext hdigit (.inl heq) hscan text h hgood
  | negSucc n =>
      obtain ⟨c, t, heq, hdigit, -⟩ := natText_head (n + 1)
      exact readsIndented_number htext hdigit (.inr (congrArg (cp 45 :: ·) heq)) hscan text h hgood

theorem readsIndented_float (hF : F.Faithful) (hnan : style.allowNan = true) {bits : BitVec 64}
    (h : isFinite bits = true ∨ bits ∈ nonFinite) : ReadsIndented F style level (.float bits) := by
  have hdumps : dumpsIndented F style level (.float bits) = dumps F style (.float bits) := by
    rw [dumpsIndented]
  rcases h with hfinite | hmem
  · have hscan : scanNumber F (F.repr bits) = .ok (.float bits, []) := by
      simpa using hF.back hfinite delimited_nil
    obtain ⟨c, t, hdigit, hhead⟩ := hF.head hfinite
    exact readsIndented_number (by rw [hdumps, dumps, if_pos hfinite]) hdigit hhead hscan
  · simp only [nonFinite, List.mem_cons, List.not_mem_nil, or_false] at hmem
    have hwritten (w : BitVec 64) (hw : isFinite w = false) :
        dumpsIndented F style level (.float w) = some (nonFiniteText w) := by
      rw [dumpsIndented, dumps, if_neg (by rw [hw]; exact Bool.false_ne_true), if_pos hnan]
    rcases hmem with rfl | rfl | rfl
    · have htext : dumpsIndented F style level (.float 0x7FF8000000000000) =
          some (cp 78 :: lit "aN") := hwritten _ (by decide)
      exact readsIndented_constant htext (by decide) (by decide) fun _ => rfl
    · have htext : dumpsIndented F style level (.float 0x7FF0000000000000) =
          some (cp 73 :: lit "nfinity") := hwritten _ (by decide)
      exact readsIndented_constant htext (by decide) (by decide) fun _ => rfl
    · have htext : dumpsIndented F style level (.float 0xFFF0000000000000) =
          some (cp 45 :: lit "Infinity") := hwritten _ (by decide)
      exact readsIndented_constant htext (by decide) (by decide) fun _ => rfl

theorem readsIndented_str (hascii : style.ensureAscii = false) (s : Str) :
    ReadsIndented F style level (.str s) := by
  intro text h hgood
  rw [dumpsIndented, dumps, hascii, Option.some.injEq] at h
  subst h
  refine ⟨⟨quote, _, rfl, opens_quote⟩, fun fuel depth rest hfuel _ _ => ?_⟩
  cases fuel with
  | zero => simp [stringText] at hfuel
  | succ fuel =>
      rw [stringText, List.cons_append, List.cons_append, List.append_assoc,
        List.singleton_append, scanValue_quote,
        scanString_stringText (encodable_stringText_iff.mp hgood)]
      rfl

end Leaves

section Blocks

theorem encodable_block {opening closing : CodePoint} {level : Nat} {texts : List Str}
    (h : (block opening closing level texts).encodable = true) :
    ∀ t ∈ texts, t.encodable = true := by
  cases texts with
  | nil => exact List.forall_mem_nil _
  | cons t texts =>
      rw [block, List.cons_append, List.cons_append, List.cons_append, Str.encodable_cons,
        Str.encodable_append, Str.encodable_append, Str.encodable_append] at h
      exact Str.encodable_of_join h.2.1.1.2

/-- A bracket with lines after it opens a list. -/
theorem scanValue_lines {c : CodePoint} (h : Opens c) (fuel depth level : Nat) (rest : Str) :
    scanValue F (fuel + 1) (depth + 1) (openBracket :: (newLine level ++ c :: rest)) =
      (scanItems F fuel depth (c :: rest)).map fun r => (.arr r.1, r.2) := by
  have hq : openBracket ≠ quote := by decide
  have hb : openBracket ≠ openBrace := by decide
  rw [scanValue.eq_def]
  simp [hq, hb, skipSpace_line level h, h.2.1]

/-- A brace with lines after it opens a dictionary. -/
theorem scanValue_memberLines {c : CodePoint} (h : Opens c) (fuel depth level : Nat)
    (rest : Str) :
    scanValue F (fuel + 1) (depth + 1) (openBrace :: (newLine level ++ c :: rest)) =
      (scanMembers F fuel depth [] (c :: rest)).map fun r => (.obj r.1, r.2) := by
  have hq : openBrace ≠ quote := by decide
  rw [scanValue.eq_def]
  simp [hq, skipSpace_line level h, h.2.2.1]

theorem indentedItems_cons {level : Nat} {v : Json} {items : List Json} {texts : List Str}
    (h : indentedItems F style level (v :: items) = some texts) :
    ∃ text more, texts = text :: more ∧ dumpsIndented F style level v = some text ∧
      indentedItems F style level items = some more := by
  rw [indentedItems] at h
  obtain ⟨text, htext, h⟩ := Option.bind_eq_some_iff.mp h
  obtain ⟨more, hmore, h⟩ := Option.bind_eq_some_iff.mp h
  cases h
  exact ⟨text, more, rfl, htext, hmore⟩

theorem indentedFields_cons {level : Nat} {e : Str × Json} {fields : List (Str × Json)}
    {texts : List (Str × Str)} (h : indentedFields F style level (e :: fields) = some texts) :
    ∃ text more, texts = (e.1, text) :: more ∧ dumpsIndented F style level e.2 = some text ∧
      indentedFields F style level fields = some more := by
  rw [indentedFields] at h
  obtain ⟨text, htext, h⟩ := Option.bind_eq_some_iff.mp h
  obtain ⟨more, hmore, h⟩ := Option.bind_eq_some_iff.mp h
  cases h
  exact ⟨text, more, rfl, htext, hmore⟩

/-- The items of a list are read line by line. -/
theorem scanItems_lines {level : Nat} {items : List Json} {texts : List Str}
    (hread : ∀ v ∈ items, ReadsIndented F style level v) (hne : items ≠ [])
    (h : indentedItems F style level items = some texts)
    (hgood : ∀ t ∈ texts, Str.encodable t = true) (closing fuel depth : Nat) (rest : Str)
    (hfuel : 2 * (Str.join (comma :: newLine level) texts).length + 2 ≤ fuel)
    (hdepth : Json.depthItems items ≤ depth) :
    (∃ c t, Str.join (comma :: newLine level) texts = c :: t ∧ Opens c) ∧
      scanItems F fuel depth (Str.join (comma :: newLine level) texts ++
        (newLine closing ++ closeBracket :: rest)) = .ok (items, rest) := by
  induction items generalizing texts fuel with
  | nil => exact absurd rfl hne
  | cons v items ih =>
      obtain ⟨text, more, rfl, htext, hmore⟩ := indentedItems_cons h
      obtain ⟨hv, hitems⟩ := List.forall_mem_cons.mp hread
      obtain ⟨hfirst, hothers⟩ := List.forall_mem_cons.mp hgood
      obtain ⟨⟨c, t, rfl, hopens⟩, hscan⟩ := hv text htext hfirst
      obtain ⟨fuel, rfl⟩ : ∃ n, fuel = n + 1 := ⟨fuel - 1, by omega⟩
      rw [Json.depthItems, Nat.max_le] at hdepth
      cases items with
      | nil =>
          cases hmore
          rw [Str.join_singleton] at hfuel ⊢
          refine ⟨⟨c, t, rfl, hopens⟩, ?_⟩
          have hback := hscan fuel depth (newLine closing ++ closeBracket :: rest) (by omega)
            hdepth.1 (ends_newLine _ _)
          have hclose : skipSpace (newLine closing ++ closeBracket :: rest) =
              closeBracket :: rest := skipSpace_close (by decide) _ _
          simp only [scanItems, hback, hclose, if_true, bind, Except.bind]
      | cons w items =>
          obtain ⟨text', more', rfl, htext', hmore'⟩ := indentedItems_cons hmore
          rw [Str.join_cons_cons] at hfuel ⊢
          simp only [List.length_append, List.length_cons] at hfuel
          obtain ⟨⟨d, u, hjoin, hd⟩, htail⟩ := ih hitems (by simp) hmore hothers fuel (by omega)
            hdepth.2
          refine ⟨⟨c, _, rfl, hopens⟩, ?_⟩
          have hback := hscan fuel depth (comma :: (newLine level ++
              (Str.join (comma :: newLine level) (text' :: more') ++
                (newLine closing ++ closeBracket :: rest))))
            (by simp only [List.length_cons]; omega) hdepth.1 (ends_cons (.inl rfl))
          rw [hjoin, List.cons_append] at hback htail ⊢
          have hcomma (r : Str) : skipSpace (comma :: r) = comma :: r := rfl
          have hne : comma ≠ closeBracket := by decide
          have hline := skipSpace_line level hd
            (u ++ (newLine closing ++ closeBracket :: rest))
          simp only [List.append_assoc, List.cons_append] at hback ⊢
          rw [scanItems, hback]
          simp only [bind, Except.bind, hcomma, if_neg hne, if_true, hline, htail]

/-- The members of a dictionary are read line by line. -/
theorem scanMembers_lines {level : Nat} {fields : List (Str × Json)}
    {texts : List (Str × Str)} (hread : ∀ e ∈ fields, ReadsIndented F style level e.2)
    (hne : fields ≠ [])
    (h : indentedFields F style level fields = some texts)
    (hgood : ∀ e ∈ texts, (memberLine false e).encodable = true) (sofar : Entries Str Json)
    (hnodup : (Entries.keys (sofar ++ fields)).Nodup) (closing fuel depth : Nat) (rest : Str)
    (hfuel : 2 * (Str.join (comma :: newLine level) (texts.map (memberLine false))).length + 2 ≤
      fuel)
    (hdepth : Json.depthFields fields ≤ depth) :
    (∃ t, Str.join (comma :: newLine level) (texts.map (memberLine false)) = quote :: t) ∧
      scanMembers F fuel depth sofar
          (Str.join (comma :: newLine level) (texts.map (memberLine false)) ++
            (newLine closing ++ closeBrace :: rest)) = .ok (sofar ++ fields, rest) := by
  induction fields generalizing texts fuel sofar with
  | nil => exact absurd rfl hne
  | cons e fields ih =>
      obtain ⟨k, v⟩ := e
      obtain ⟨text, more, rfl, htext, hmore⟩ : ∃ text more, texts = (k, text) :: more ∧
          dumpsIndented F style level v = some text ∧
            indentedFields F style level fields = some more := indentedFields_cons h
      obtain ⟨hv, hfields⟩ := List.forall_mem_cons.mp hread
      obtain ⟨hfirst, hothers⟩ := List.forall_mem_cons.mp hgood
      rw [memberLine, Str.encodable_append, Str.encodable_append, encodable_stringText_iff]
        at hfirst
      obtain ⟨⟨hkey, -⟩, hencodable⟩ := hfirst
      obtain ⟨⟨c, t, rfl, hopens⟩, hscan⟩ := hv text htext hencodable
      obtain ⟨fuel, rfl⟩ : ∃ n, fuel = n + 1 := ⟨fuel - 1, by omega⟩
      rw [Json.depthFields, Nat.max_le] at hdepth
      have hset : Entries.set sofar k v = sofar ++ [(k, v)] := by
        apply Entries.set_of_notMem
        intro hmem
        rw [Entries.keys_append, List.nodup_append] at hnodup
        exact hnodup.2.2 k hmem k (by simp [Entries.keys]) rfl
      have hmember (r : Str) : memberLine false (k, c :: t) ++ r =
          quote :: (k.flatMap (escapePoint false) ++ quote ::
            (colon :: cp 32 :: (c :: t ++ r))) := by
        simp [memberLine, stringText]
      have hlength : (memberLine false (k, c :: t)).length =
          (k.flatMap (escapePoint false)).length + 4 + (c :: t).length := by
        simp [memberLine, stringText]
        omega
      have hcolon (r : Str) : skipSpace (colon :: r) = colon :: r := rfl
      have hspace (r : Str) : skipSpace (cp 32 :: (c :: r)) = c :: r :=
        (List.dropWhile_cons_of_pos rfl).trans (skipSpace_of_opens hopens r)
      have hk (r : Str) : scanString (k.flatMap (escapePoint false) ++ quote :: r) =
          .ok (k, r) := scanString_stringText hkey r
      cases fields with
      | nil =>
          cases hmore
          rw [List.map_singleton, Str.join_singleton] at hfuel ⊢
          refine ⟨⟨_, rfl⟩, ?_⟩
          have hback := hscan fuel depth (newLine closing ++ closeBrace :: rest) (by omega)
            hdepth.1 (ends_newLine _ _)
          have hclose : skipSpace (newLine closing ++ closeBrace :: rest) =
              closeBrace :: rest := skipSpace_close (by decide) _ _
          rw [List.cons_append] at hback
          rw [hmember, scanMembers, if_pos rfl, hk]
          simp only [bind, Except.bind, hcolon, if_true, List.cons_append, hspace, hback, hset,
            hclose]
      | cons e' fields =>
          obtain ⟨text', more', rfl, htext', hmore'⟩ := indentedFields_cons hmore
          rw [List.map_cons, List.map_cons, Str.join_cons_cons] at hfuel ⊢
          rw [← List.map_cons] at hfuel ⊢
          simp only [List.length_append, List.length_cons] at hfuel
          obtain ⟨⟨u, hjoin⟩, htail⟩ := ih hfields (by simp) hmore hothers (sofar ++ [(k, v)])
            (by simpa [Entries.keys] using hnodup) fuel (by omega) hdepth.2
          refine ⟨⟨_, rfl⟩, ?_⟩
          have hback := hscan fuel depth (comma :: (newLine level ++
              (Str.join (comma :: newLine level) (((e'.1, text') :: more').map
                (memberLine false)) ++ (newLine closing ++ closeBrace :: rest))))
            (by omega) hdepth.1 (ends_cons (.inl rfl))
          have hcomma (r : Str) : skipSpace (comma :: r) = comma :: r := rfl
          have hne : comma ≠ closeBrace := by decide
          have hline := skipSpace_line level opens_quote
            (u ++ (newLine closing ++ closeBrace :: rest))
          rw [hjoin] at hback htail ⊢
          rw [List.append_assoc, List.append_assoc, hmember]
          simp only [List.cons_append, List.append_assoc] at hback htail ⊢
          rw [scanMembers, if_pos rfl, hk]
          simp only [bind, Except.bind, hcolon, if_true, hspace, hback, hset, hcomma, if_neg hne,
            hline, htail, List.nil_append]

theorem length_block {opening closing : CodePoint} {level : Nat} {text : Str}
    {texts : List Str} :
    (block opening closing level (text :: texts)).length =
      (newLine (level + 1)).length +
        (Str.join (comma :: newLine (level + 1)) (text :: texts)).length +
        (newLine level).length + 2 := by
  simp only [block, List.length_append, List.length_cons, List.length_nil]
  omega

theorem readsIndented_arr {level : Nat} {items : List Json}
    (hread : ∀ v ∈ items, ReadsIndented F style (level + 1) v) :
    ReadsIndented F style level (.arr items) := by
  intro text h hgood
  rw [dumpsIndented] at h
  obtain ⟨texts, htexts, h⟩ := Option.bind_eq_some_iff.mp h
  cases h
  have hall := encodable_block hgood
  cases items with
  | nil =>
      cases htexts
      refine ⟨⟨_, _, rfl, by decide⟩, fun fuel depth rest hfuel hdepth _ => ?_⟩
      change 2 * 2 ≤ fuel at hfuel
      change 1 ≤ depth at hdepth
      obtain ⟨fuel, rfl⟩ : ∃ n, fuel = n + 1 := ⟨fuel - 1, by omega⟩
      obtain ⟨depth, rfl⟩ : ∃ n, depth = n + 1 := ⟨depth - 1, by omega⟩
      exact scanValue_emptyArr F fuel depth rest
  | cons v items =>
      obtain ⟨first, more, rfl, hfirst, hmore⟩ := indentedItems_cons htexts
      refine ⟨⟨_, _, rfl, by decide⟩, fun fuel depth rest hfuel hdepth _ => ?_⟩
      rw [length_block] at hfuel
      rw [Json.depth] at hdepth
      obtain ⟨fuel, rfl⟩ : ∃ n, fuel = n + 1 := ⟨fuel - 1, by omega⟩
      obtain ⟨depth, rfl⟩ : ∃ n, depth = n + 1 := ⟨depth - 1, by omega⟩
      obtain ⟨⟨c, t, hjoin, hopens⟩, hscan⟩ := scanItems_lines hread (by simp) htexts hall
        level fuel depth rest (by omega) (by omega)
      rw [hjoin, List.cons_append] at hscan
      rw [block, hjoin]
      simp only [List.cons_append, List.append_assoc, List.nil_append]
      rw [scanValue_lines hopens, hscan]
      rfl

theorem readsIndented_obj (hascii : style.ensureAscii = false) (hstyle : style.Unsorted)
    {level : Nat} {fields : List (Str × Json)} (hnodup : (Entries.keys fields).Nodup)
    (hread : ∀ e ∈ fields, ReadsIndented F style (level + 1) e.2) :
    ReadsIndented F style level (.obj fields) := by
  intro text h hgood
  rw [dumpsIndented] at h
  obtain ⟨texts, htexts, h⟩ := Option.bind_eq_some_iff.mp h
  rw [hascii, show style.sortKeys = false from hstyle] at h
  change some (block openBrace closeBrace level (texts.map (memberLine false))) = _ at h
  cases h
  have hall : ∀ e ∈ texts, (memberLine false e).encodable = true :=
    fun e he => encodable_block hgood _ (List.mem_map_of_mem he)
  cases fields with
  | nil =>
      cases htexts
      refine ⟨⟨_, _, rfl, by decide⟩, fun fuel depth rest hfuel hdepth _ => ?_⟩
      change 2 * 2 ≤ fuel at hfuel
      change 1 ≤ depth at hdepth
      obtain ⟨fuel, rfl⟩ : ∃ n, fuel = n + 1 := ⟨fuel - 1, by omega⟩
      obtain ⟨depth, rfl⟩ : ∃ n, depth = n + 1 := ⟨depth - 1, by omega⟩
      exact scanValue_emptyObj F fuel depth rest
  | cons e fields =>
      obtain ⟨first, more, rfl, hfirst, hmore⟩ := indentedFields_cons htexts
      refine ⟨⟨_, _, rfl, by decide⟩, fun fuel depth rest hfuel hdepth _ => ?_⟩
      rw [List.map_cons, length_block, ← List.map_cons] at hfuel
      rw [Json.depth] at hdepth
      obtain ⟨fuel, rfl⟩ : ∃ n, fuel = n + 1 := ⟨fuel - 1, by omega⟩
      obtain ⟨depth, rfl⟩ : ∃ n, depth = n + 1 := ⟨depth - 1, by omega⟩
      obtain ⟨⟨t, hjoin⟩, hscan⟩ := scanMembers_lines hread (by simp) htexts hall
        [] hnodup level fuel depth rest (by omega) (by omega)
      rw [hjoin, List.cons_append] at hscan
      rw [List.map_cons] at hjoin
      rw [List.map_cons, block, hjoin]
      simp only [List.cons_append, List.append_assoc, List.nil_append]
      rw [scanValue_memberLines opens_quote, hscan]
      rfl

end Blocks

namespace Kept

theorem readsIndented (hF : F.Faithful) (hstyle : style.Unsorted)
    (hascii : style.ensureAscii = false) (hnan : style.allowNan = true) {v : Json} (h : Kept v)
    (level : Nat) : ReadsIndented F style level v := by
  induction h generalizing level with
  | null =>
      exact readsIndented_constant (c := cp 110) (t := lit "ull") (by rw [dumpsIndented]; rfl)
        (by decide) (by decide) fun _ => rfl
  | bool b =>
      cases b with
      | false =>
          exact readsIndented_constant (c := cp 102) (t := lit "alse")
            (by rw [dumpsIndented]; rfl) (by decide) (by decide) fun _ => rfl
      | true =>
          exact readsIndented_constant (c := cp 116) (t := lit "rue")
            (by rw [dumpsIndented]; rfl) (by decide) (by decide) fun _ => rfl
  | int n => exact readsIndented_int n
  | float hbits => exact readsIndented_float hF hnan hbits
  | str s => exact readsIndented_str hascii s
  | arr _ ih => exact readsIndented_arr fun v hv => ih v hv (level + 1)
  | obj hnodup _ ih => exact readsIndented_obj hascii hstyle hnodup fun e he => ih e he (level + 1)

/-- A text with line breaks and a line break at its end is read as the value. -/
theorem loads_indented (hF : F.Faithful) (hstyle : style.Unsorted)
    (hascii : style.ensureAscii = false) (hnan : style.allowNan = true) {v : Json} (h : Kept v)
    {text : Str} (htext : dumpsIndented F style 0 v = some text) (hgood : text.encodable = true)
    {depth : Nat} (hdepth : v.depth ≤ depth) : loads F depth (text ++ [cp 10]) = .ok v := by
  obtain ⟨⟨c, t, rfl, hopens⟩, hscan⟩ :=
    h.readsIndented hF hstyle hascii hnan 0 text htext hgood
  have hback := hscan (2 * ((c :: t) ++ [cp 10]).length + 2) depth [cp 10]
    (by simp only [List.length_append, List.length_singleton]; omega) hdepth
    (ends_cons (.inr (.inr (.inr rfl))))
  have hbom : ((c :: t) ++ [cp 10]).head? ≠ some (cp 0xFEFF) := by
    rw [List.cons_append, List.head?_cons, ne_eq, Option.some.injEq]
    exact hopens.2.2.2
  rw [loads, if_neg hbom, List.cons_append, skipSpace_of_opens hopens, ← List.cons_append, hback]
  rfl

end Kept

section LineBreaks

/-- No carriage return. -/
def Unreturned (text : Str) : Prop := ∀ c ∈ text, c ≠ cp 13

theorem Unreturned.append {s t : Str} (hs : Unreturned s) (ht : Unreturned t) :
    Unreturned (s ++ t) := List.forall_mem_append.mpr ⟨hs, ht⟩

theorem Unreturned.cons {c : CodePoint} {s : Str} (hc : c ≠ cp 13) (hs : Unreturned s) :
    Unreturned (c :: s) := List.forall_mem_cons.mpr ⟨hc, hs⟩

theorem unreturned_nil : Unreturned [] := List.forall_mem_nil _

theorem Printable.unreturned {s : Str} (h : Printable s) : Unreturned s := by
  rintro c hc rfl
  exact absurd (h _ hc).1 (by decide)

theorem unreturned_newLine (level : Nat) : Unreturned (newLine level) := by
  apply Unreturned.cons (by decide)
  intro c hc
  rw [List.eq_of_mem_replicate hc]
  decide

theorem unreturned_join {sep : Str} (hsep : Unreturned sep) {texts : List Str}
    (h : ∀ t ∈ texts, Unreturned t) : Unreturned (Str.join sep texts) := by
  induction texts with
  | nil => exact unreturned_nil
  | cons t rest ih =>
      obtain ⟨ht, hrest⟩ := List.forall_mem_cons.mp h
      cases rest with
      | nil => simpa using ht
      | cons t' rest =>
          rw [Str.join_cons_cons]
          exact (ht.append hsep).append (ih hrest)

theorem unreturned_block {opening closing : CodePoint} (hopening : opening ≠ cp 13)
    (hclosing : closing ≠ cp 13) (level : Nat) {texts : List Str}
    (h : ∀ t ∈ texts, Unreturned t) : Unreturned (block opening closing level texts) := by
  cases texts with
  | nil => exact .cons hopening (.cons hclosing unreturned_nil)
  | cons t texts =>
      have hjoin : Unreturned (Str.join (comma :: newLine (level + 1)) (t :: texts)) :=
        unreturned_join (.cons (by decide) (unreturned_newLine _)) h
      exact ((Unreturned.cons hopening (unreturned_newLine _)).append hjoin).append
        (unreturned_newLine _) |>.append (.cons hclosing unreturned_nil)

/-- A carriage return in a string is written as an escape. -/
theorem unreturned_escapePoint (c : CodePoint) : Unreturned (escapePoint false c) := by
  unfold escapePoint
  split
  · rename_i letter hletter
    have hplain : letter ≠ cp 13 := by
      unfold shortEscape at hletter
      split_ifs at hletter <;> cases hletter <;> decide
    exact .cons (by decide) (.cons hplain unreturned_nil)
  · rename_i hshort
    rw [Bool.false_and, if_neg Bool.false_ne_true]
    split_ifs
    · exact (unicodeEscape_printable _).unreturned
    · refine .cons ?_ unreturned_nil
      rintro rfl
      cases hshort

theorem unreturned_stringText (s : Str) : Unreturned (stringText false s) := by
  refine Unreturned.append (.cons (by decide) fun c hc => ?_) (.cons (by decide) unreturned_nil)
  obtain ⟨d, -, hd⟩ := List.mem_flatMap.mp hc
  exact unreturned_escapePoint d c hd

theorem unreturned_memberLine {e : Str × Str} (h : Unreturned e.2) :
    Unreturned (memberLine false e) :=
  ((unreturned_stringText e.1).append (.cons (by decide) (.cons (by decide) unreturned_nil))).append
    h

theorem exists_of_indentedItems {level : Nat} {items : List Json} {texts : List Str}
    (h : indentedItems F style level items = some texts) :
    ∀ t ∈ texts, ∃ v ∈ items, dumpsIndented F style level v = some t := by
  induction items generalizing texts with
  | nil =>
      cases h
      exact List.forall_mem_nil _
  | cons v items ih =>
      obtain ⟨text, more, rfl, htext, hmore⟩ := indentedItems_cons h
      refine List.forall_mem_cons.mpr ⟨⟨v, List.mem_cons_self, htext⟩, fun t ht => ?_⟩
      obtain ⟨w, hw, hdumps⟩ := ih hmore t ht
      exact ⟨w, List.mem_cons_of_mem _ hw, hdumps⟩

theorem exists_of_indentedFields {level : Nat} {fields : List (Str × Json)}
    {texts : List (Str × Str)} (h : indentedFields F style level fields = some texts) :
    ∀ e ∈ texts, ∃ f ∈ fields, dumpsIndented F style level f.2 = some e.2 := by
  induction fields generalizing texts with
  | nil =>
      cases h
      exact List.forall_mem_nil _
  | cons e fields ih =>
      obtain ⟨text, more, rfl, htext, hmore⟩ := indentedFields_cons h
      refine List.forall_mem_cons.mpr ⟨⟨e, List.mem_cons_self, htext⟩, fun f hf => ?_⟩
      obtain ⟨w, hw, hdumps⟩ := ih hmore f hf
      exact ⟨w, List.mem_cons_of_mem _ hw, hdumps⟩

/-- All line breaks of a text are line feeds. -/
theorem unreturned_dumpsIndented (hF : F.Faithful) (hstyle : style.Unsorted)
    (hascii : style.ensureAscii = false) {v : Json} (h : Kept v) {level : Nat} {text : Str}
    (htext : dumpsIndented F style level v = some text) : Unreturned text := by
  induction h generalizing level text with
  | null =>
      rw [dumpsIndented] at htext
      cases htext
      exact (printable_lit (by decide)).unreturned
  | bool b =>
      rw [dumpsIndented] at htext
      cases b <;> cases htext <;> exact (printable_lit (by decide)).unreturned
  | int n =>
      rw [dumpsIndented, dumps] at htext
      split_ifs at htext
      cases htext
      exact (printable_intText n).unreturned
  | float =>
      rw [dumpsIndented, dumps] at htext
      split_ifs at htext with hfinite
      · cases htext
        exact (hF.printable hfinite).unreturned
      · cases htext
        exact (printable_nonFiniteText _).unreturned
  | str s =>
      rw [dumpsIndented, dumps, hascii] at htext
      cases htext
      exact unreturned_stringText s
  | arr _ ih =>
      rw [dumpsIndented] at htext
      obtain ⟨texts, htexts, htext⟩ := Option.bind_eq_some_iff.mp htext
      cases htext
      apply unreturned_block (by decide) (by decide)
      intro t ht
      obtain ⟨v, hv, hdumps⟩ := exists_of_indentedItems htexts t ht
      exact ih v hv hdumps
  | obj _ _ ih =>
      rw [dumpsIndented] at htext
      obtain ⟨texts, htexts, htext⟩ := Option.bind_eq_some_iff.mp htext
      rw [hascii, show style.sortKeys = false from hstyle] at htext
      cases htext
      apply unreturned_block (by decide) (by decide)
      intro t ht
      obtain ⟨e, he, rfl⟩ := List.mem_map.mp ht
      obtain ⟨f, hf, hdumps⟩ := exists_of_indentedFields htexts e he
      exact unreturned_memberLine (ih f hf hdumps)

end LineBreaks

end Reading

end JsonText

end MediaBridge.Foundation
