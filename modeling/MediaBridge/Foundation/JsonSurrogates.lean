import MediaBridge.Foundation.JsonRoundTrip

/-!
# Lone surrogates in a JSON text

With `ensure_ascii`, a lone surrogate is written as an escape, and read back as itself unless
the escape after it completes a pair.
-/

namespace MediaBridge.Foundation.JsonText

/-- What is read of the escapes of a string. -/
def rejoin : Str → Str
  | a :: b :: rest =>
      if isHighSurrogate a.val && isLowSurrogate b.val then
        cp (0x10000 + (a.val - 0xD800) * 1024 + (b.val - 0xDC00)) :: rejoin rest
      else a :: rejoin (b :: rest)
  | [a] => [a]
  | [] => []

section Scanning

theorem val_lt_of_isHighSurrogate {v : Nat} (h : isHighSurrogate v = true) : v < 0x10000 := by
  simp only [isHighSurrogate, Bool.and_eq_true, decide_eq_true_eq] at h
  omega

theorem val_lt_of_isLowSurrogate {v : Nat} (h : isLowSurrogate v = true) : v < 0x10000 := by
  simp only [isLowSurrogate, Bool.and_eq_true, decide_eq_true_eq] at h
  omega

/-- A surrogate is written as one escape. -/
theorem escapePoint_surrogate {c : CodePoint} (hc : c.isSurrogate = true) :
    escapePoint true c = unicodeEscape c.val := by
  simp only [CodePoint.isSurrogate, Bool.and_eq_true, decide_eq_true_eq] at hc
  have hshort : shortEscape c = none := by
    rw [Option.eq_none_iff_forall_ne_some]
    intro letter hletter
    obtain ⟨hback, -⟩ := shortEscape_spec hletter
    have hsmall : ∀ d : CodePoint, escapedLetter letter = some d → d.val < 0xD800 := by
      intro d hd
      unfold escapedLetter at hd
      repeat' split at hd
      all_goals cases hd
      all_goals first | decide | skip
      rename_i hletters
      rcases hletters with rfl | rfl | rfl <;> decide
    have hlow := hsmall c hback
    omega
  rw [escapePoint, hshort]
  simp only
  rw [if_neg (by omega), if_pos (by simp; omega), if_pos (by omega)]

/-- The text after an escape does not go on with the second half of a pair. -/
def NoLowEscape (text : Str) : Prop :=
  ∀ l1 l2 l3 l4 after, text = backslash :: cp 117 :: l1 :: l2 :: l3 :: l4 :: after →
    ∃ w, hexValue4 l1 l2 l3 l4 = some w ∧ isLowSurrogate w = false

/-- The first half of a pair stands for itself when the second is missing. -/
theorem scanString_highAlone {v : Nat} {text : Str} (h : isHighSurrogate v = true)
    (htext : NoLowEscape text) :
    scanString (unicodeEscape v ++ text) = consPoint (cp v) (scanString text) := by
  have hbq : backslash ≠ quote := by decide
  have hv := val_lt_of_isHighSurrogate h
  simp only [unicodeEscape, List.cons_append, List.nil_append]
  conv_lhs => rw [scanString.eq_def]
  simp only [if_neg hbq, if_true, hexValue4_hexLetters hv, h]
  split
  · rename_i b u l1 l2 l3 l4 after
    split
    · rename_i hescape
      obtain ⟨rfl, rfl⟩ := hescape
      obtain ⟨w, hw, hlow⟩ := htext l1 l2 l3 l4 after rfl
      simp [hw, hlow]
    · rfl
  · rfl

theorem noLowEscape_quote (rest : Str) : NoLowEscape (quote :: rest) := by
  intro l1 l2 l3 l4 after heq
  have hne : quote ≠ backslash := by decide
  exact absurd (List.cons.inj heq).1 hne

theorem noLowEscape_unicodeEscape {v : Nat} (hv : v < 0x10000) (hlow : isLowSurrogate v = false)
    (rest : Str) : NoLowEscape (unicodeEscape v ++ rest) := by
  intro l1 l2 l3 l4 after heq
  simp only [unicodeEscape, List.cons_append, List.nil_append, List.cons.injEq] at heq
  obtain ⟨-, -, rfl, rfl, rfl, rfl, -⟩ := heq
  exact ⟨v, hexValue4_hexLetters hv, hlow⟩

/-- What is written for a character starts with the second half of a pair only if the
character is one. -/
theorem noLowEscape_escapePoint {c : CodePoint} (hc : isLowSurrogate c.val = false)
    (rest : Str) : NoLowEscape (escapePoint true c ++ rest) := by
  unfold escapePoint
  split
  · rename_i letter hletter
    obtain ⟨-, hu⟩ := shortEscape_spec hletter
    intro l1 l2 l3 l4 after heq
    simp only [List.cons_append, List.nil_append, List.cons.injEq] at heq
    exact absurd heq.2.1 hu
  rename_i hnone
  obtain ⟨-, hb⟩ := shortEscape_none hnone
  have hlt := c.isLt
  split
  · exact noLowEscape_unicodeEscape (by omega) hc rest
  split
  · split
    · rename_i hbmp
      exact noLowEscape_unicodeEscape hbmp hc rest
    · rw [List.append_assoc]
      apply noLowEscape_unicodeEscape
      · omega
      · simp only [isLowSurrogate, Bool.and_eq_false_iff, decide_eq_false_iff_not]
        omega
  · intro l1 l2 l3 l4 after heq
    exact absurd (List.cons.inj heq).1 hb

/-- A character in front of a text that does not complete a pair with it. -/
theorem scanString_escapePoint_cons {c : CodePoint} {text : Str}
    (h : isHighSurrogate c.val = true → NoLowEscape text) :
    scanString (escapePoint true c ++ text) = consPoint c (scanString text) := by
  cases hsurrogate : c.isSurrogate with
  | false => exact scanString_escapePoint hsurrogate text
  | true =>
      rw [escapePoint_surrogate hsurrogate]
      cases hhigh : isHighSurrogate c.val with
      | true => rw [scanString_highAlone hhigh (h hhigh), Utf8.cp_val]
      | false =>
          simp only [CodePoint.isSurrogate, Bool.and_eq_true, decide_eq_true_eq] at hsurrogate
          rw [scanString_unicodeEscape text (by omega) hhigh, Utf8.cp_val]

/-- Every string is read as its escapes say. -/
theorem scanString_rejoin (s rest : Str) :
    scanString (s.flatMap (escapePoint true) ++ quote :: rest) = .ok (rejoin s, rest) := by
  induction s using rejoin.induct with
  | case1 a b more hpair ih =>
      rw [Bool.and_eq_true] at hpair
      have ha : a.isSurrogate = true := by
        have hhigh := hpair.1
        simp only [isHighSurrogate, Bool.and_eq_true, decide_eq_true_eq] at hhigh
        simp only [CodePoint.isSurrogate, Bool.and_eq_true, decide_eq_true_eq]
        omega
      have hb : b.isSurrogate = true := by
        have hlow := hpair.2
        simp only [isLowSurrogate, Bool.and_eq_true, decide_eq_true_eq] at hlow
        simp only [CodePoint.isSurrogate, Bool.and_eq_true, decide_eq_true_eq]
        omega
      rw [List.flatMap_cons, List.flatMap_cons, escapePoint_surrogate ha,
        escapePoint_surrogate hb, ← List.append_assoc, List.append_assoc,
        scanString_surrogatePair _ (val_lt_of_isHighSurrogate hpair.1)
          (val_lt_of_isLowSurrogate hpair.2) hpair.1 hpair.2, ih, rejoin, if_pos (by simp [hpair])]
      rfl
  | case2 a b more hpair ih =>
      rw [List.flatMap_cons, List.append_assoc, scanString_escapePoint_cons, ih, rejoin,
        if_neg hpair]
      · rfl
      · intro hhigh
        rw [List.flatMap_cons, List.append_assoc]
        apply noLowEscape_escapePoint
        rw [Bool.not_eq_true, Bool.and_eq_false_iff] at hpair
        exact hpair.resolve_left (by simp [hhigh])
  | case3 a =>
      have hquote : scanString (quote :: rest) = .ok ([], rest) := by
        rw [scanString.eq_def]
        simp
      rw [List.flatMap_singleton, scanString_escapePoint_cons fun _ => noLowEscape_quote rest,
        hquote]
      rfl
  | case4 =>
      rw [List.flatMap_nil, List.nil_append, scanString.eq_def]
      simp [rejoin]

/-- Without surrogates nothing is rejoined. -/
theorem rejoin_of_encodable {s : Str} (hs : Str.encodable s = true) : rejoin s = s := by
  have hscan := scanString_rejoin s []
  rw [scanString_stringText hs, Except.ok.injEq, Prod.mk.injEq] at hscan
  exact hscan.1.symm

end Scanning

section Flat

/-- A string or an integer. -/
inductive Flat : Json → Prop
  | str (s : Str) : Flat (.str s)
  | int (n : Int) : Flat (.int n)

/-- What is read of the text of a flat value. -/
def rejoinValue : Json → Json
  | .str s => .str (rejoin s)
  | v => v

variable {F : FloatText} {style : Style}

theorem readsAs_flat (hstyle : style.ensureAscii = true) {v : Json} (hv : Flat v) :
    ReadsAs F style v (rejoinValue v) := by
  cases hv with
  | int n => exact readsBack_int F style n
  | str s =>
      intro text h fuel depth rest hfuel _ _
      cases h
      cases fuel with
      | zero => simp [stringText] at hfuel
      | succ fuel =>
          rw [stringText, hstyle, List.cons_append, List.cons_append, List.append_assoc,
            List.singleton_append, scanValue_quote, scanString_rejoin]
          rfl

theorem dumps_head_flat {v : Json} (hv : Flat v) {text : Str} (h : dumps F style v = some text) :
    ∃ c t, text = c :: t ∧ Opens c := by
  cases hv with
  | int n => exact dumps_head (.int n) h
  | str s =>
      cases h
      exact ⟨_, _, rfl, by decide⟩

theorem depthFields_flat {fields : List (Str × Json)} (h : ∀ e ∈ fields, Flat e.2) :
    Json.depthFields fields = 0 := by
  induction fields with
  | nil => rfl
  | cons e fields ih =>
      obtain ⟨k, v⟩ := e
      rw [Json.depthFields, ih fun e he => h e (List.mem_cons_of_mem _ he)]
      cases h (k, v) List.mem_cons_self with
      | str s => rfl
      | int n => rfl

/-- A dictionary of flat values is read, whatever its strings hold. -/
theorem loads_flat (hstyle : style.Unsorted) (hascii : style.ensureAscii = true)
    {fields : List (Str × Json)} (hne : fields ≠ []) (hnodup : (Entries.keys fields).Nodup)
    (hkeys : ∀ e ∈ fields, Str.encodable e.1 = true) (hflat : ∀ e ∈ fields, Flat e.2)
    {text : Str} (h : dumps F style (.obj fields) = some text) {depth : Nat}
    (hdepth : 1 ≤ depth) :
    loads F depth text = .ok (.obj (fields.map fun e => (e.1, rejoinValue e.2))) := by
  rw [dumps] at h
  obtain ⟨texts, htexts, h⟩ := Option.bind_eq_some_iff.mp h
  have hordered : orderedFields style.sortKeys texts = texts := by
    rw [hstyle]
    rfl
  rw [hordered] at h
  cases h
  obtain ⟨depth, rfl⟩ : ∃ n, depth = n + 1 := ⟨depth - 1, by omega⟩
  have hflatDepth : Json.depthFields fields ≤ depth := by
    rw [depthFields_flat hflat]
    exact Nat.zero_le depth
  obtain ⟨t, hhead⟩ : ∃ t, Str.join [comma] (texts.map (memberText style.ensureAscii)) =
      quote :: t := by
    cases fields with
    | nil => exact absurd rfl hne
    | cons e fields =>
        obtain ⟨k, v⟩ := e
        rw [dumpsFields] at htexts
        obtain ⟨text, -, htexts⟩ := Option.bind_eq_some_iff.mp htexts
        obtain ⟨more, -, htexts⟩ := Option.bind_eq_some_iff.mp htexts
        cases htexts
        cases more with
        | nil => exact ⟨_, rfl⟩
        | cons a b => exact ⟨_, rfl⟩
  have hmembers := scanMembers_readsAs rejoinValue (fun e he => dumps_head_flat (hflat e he))
    (fun e he => scanString_stringText (hkeys e he))
    (fun e he => readsAs_flat hascii (hflat e he)) hne htexts [] hnodup
    (2 * (openBrace :: Str.join [comma] (texts.map (memberText style.ensureAscii)) ++
      [closeBrace]).length + 1) depth []
    (by simp only [List.length_append, List.length_cons, List.length_nil]; omega) hflatDepth
  rw [hhead] at hmembers ⊢
  have hbom : (openBrace :: quote :: t ++ [closeBrace]).head? ≠ some (cp 0xFEFF) := by
    simp only [List.cons_append, List.head?_cons]
    decide
  have hopens : Opens openBrace := by decide
  rw [loads, if_neg hbom]
  simp only [List.cons_append] at hmembers ⊢
  rw [skipSpace_of_opens hopens, scanValue_obj F _ _ _ opens_quote, hmembers]
  rfl

end Flat

end MediaBridge.Foundation.JsonText
