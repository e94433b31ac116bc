import MediaBridge.Foundation.JsonSorted

/-!
# Texts that are cut inside a string literal

A compact JSON text has white space in its string literals only. Where it is cut before
such a character, and ends there or goes on with a control character, it is no JSON text.
-/

namespace MediaBridge.Foundation.JsonText

/-- The text ends, or goes on with a control character. -/
def Broken (rest : Str) : Prop := ∀ c ∈ rest.head?, c.val < 32

/-- Where a split falls in two joined lists. -/
theorem append_eq_append_cons {α : Type} {x y a m : List α} {c : α}
    (h : x ++ y = a ++ c :: m) :
    (∃ m', x = a ++ c :: m') ∨ ∃ a', a = x ++ a' ∧ y = a' ++ c :: m := by
  rcases List.append_eq_append_iff.mp h with ⟨a', ha, hy⟩ | ⟨m', hx, hm⟩
  · exact .inr ⟨a', ha, hy⟩
  · cases m' with
    | nil => exact .inr ⟨[], by rw [hx, List.append_nil, List.append_nil], hm.symm⟩
    | cons d m' =>
        obtain ⟨rfl, -⟩ := List.cons.inj hm
        exact .inl ⟨m', hx⟩

/-- The text before a blank starts like the whole, unless the whole starts with it. -/
theorem cut_cons {h c : CodePoint} {t a m : Str} (heq : h :: t = a ++ c :: m)
    (hh : h.isSpace = false) (hc : c.isSpace = true) : ∃ a', a = h :: a' ∧ t = a' ++ c :: m := by
  cases a with
  | nil =>
      obtain ⟨rfl, -⟩ := List.cons.inj heq
      rw [hh] at hc
      cases hc
  | cons d a' =>
      obtain ⟨rfl, ht⟩ := List.cons.inj heq
      exact ⟨a', rfl, ht⟩

/-- A blank is not the delimiter after a text. -/
theorem cut_append_singleton {t a m : Str} {d c : CodePoint} (heq : t ++ [d] = a ++ c :: m)
    (hd : d.isSpace = false) (hc : c.isSpace = true) : ∃ m', t = a ++ c :: m' := by
  rcases append_eq_append_cons heq with h | ⟨a', -, h⟩
  · exact h
  · obtain ⟨a'', -, h⟩ := cut_cons h hd hc
    simp at h

theorem hexLetter_not_isSpace (n : Nat) : (hexLetter (n % 16)).isSpace = false := by
  have hall : ∀ d < 16, (hexLetter d).isSpace = false := by decide
  exact hall _ (Nat.mod_lt _ (by decide))

theorem unicodeEscape_not_isSpace {v : Nat} {c : CodePoint} (h : c ∈ unicodeEscape v) :
    c.isSpace = false := by
  simp only [unicodeEscape, List.mem_cons, List.not_mem_nil, or_false] at h
  rcases h with rfl | rfl | rfl | rfl | rfl | rfl
  · decide
  · decide
  · exact hexLetter_not_isSpace _
  · exact hexLetter_not_isSpace _
  · exact hexLetter_not_isSpace _
  · exact hexLetter_not_isSpace _

/-- A blank in a string literal stands for itself. -/
theorem escapePoint_of_isSpace {ensureAscii : Bool} {c d : CodePoint}
    (h : c ∈ escapePoint ensureAscii d) (hc : c.isSpace = true) :
    escapePoint ensureAscii d = [d] := by
  have hescape {v : Nat} (hv : c ∈ unicodeEscape v) : False := by
    rw [unicodeEscape_not_isSpace hv] at hc
    cases hc
  unfold escapePoint at h ⊢
  split at h
  · rename_i letter hletter
    exfalso
    simp only [List.mem_cons, List.not_mem_nil, or_false] at h
    rcases h with rfl | rfl
    · exact absurd hc (by decide)
    · unfold shortEscape at hletter
      split_ifs at hletter <;> cases hletter <;> exact absurd hc (by decide)
  · rename_i hnone
    split_ifs at h ⊢
    · exact (hescape h).elim
    · exact (hescape h).elim
    · rcases List.mem_append.mp h with h | h
      · exact (hescape h).elim
      · exact (hescape h).elim
    · rfl

theorem scanString_broken {rest : Str} (h : Broken rest) : scanString rest = .error .decode := by
  cases rest with
  | nil => rw [scanString]
  | cons c rest =>
      have hc : c.val < 32 := h c rfl
      have hq : c ≠ quote := by
        rintro rfl
        exact absurd hc (by decide)
      have hb : c ≠ backslash := by
        rintro rfl
        exact absurd hc (by decide)
      rw [scanString.eq_def]
      simp [hq, hb, hc]

/-- A string literal that is cut before a blank is not read. -/
theorem scanString_cut {ensureAscii : Bool} {s a m rest : Str} {c : CodePoint}
    (hs : Str.encodable s = true) (heq : s.flatMap (escapePoint ensureAscii) = a ++ c :: m)
    (hc : c.isSpace = true) (hrest : Broken rest) : scanString (a ++ rest) = .error .decode := by
  induction s generalizing a with
  | nil => simp at heq
  | cons d s ih =>
      simp only [Str.encodable, List.all_cons, Bool.and_eq_true, Bool.not_eq_true'] at hs
      rw [List.flatMap_cons] at heq
      rcases append_eq_append_cons heq with ⟨m', hd⟩ | ⟨a', rfl, htail⟩
      · have hself := escapePoint_of_isSpace (by rw [hd]; simp) hc
        rw [hself] at hd
        cases a with
        | nil => exact scanString_broken hrest
        | cons x a => simp at hd
      · rw [List.append_assoc, scanString_escapePoint hs.1,
          ih (by simpa [Str.encodable] using hs.2) htail]
        rfl

/-- What the induction shows of a value: its text is not read when it is cut. -/
def Fails (F : FloatText) (style : Style) (v : Json) : Prop :=
  ∀ {text : Str}, dumps F style v = some text → ∀ {a m : Str} {c : CodePoint},
    text = a ++ c :: m → c.isSpace = true → ∀ {fuel depth : Nat} {rest : Str},
      2 * a.length ≤ fuel → v.depth ≤ depth → Broken rest →
        scanValue F fuel depth (a ++ rest) = .error .decode

section Heads

variable {F : FloatText} {style : Style}

theorem digit_not_isSpace {c : CodePoint} (h : c.isAsciiDigit = true) : c.isSpace = false := by
  simp only [CodePoint.isAsciiDigit, Bool.and_eq_true, decide_eq_true_eq] at h
  simp only [CodePoint.isSpace, Bool.or_eq_false_iff, Bool.and_eq_false_iff,
    decide_eq_false_iff_not, beq_eq_false_iff_ne]
  omega

theorem intText_not_isSpace {n : Int} {c : CodePoint} (h : c ∈ intText n) :
    c.isSpace = false := by
  cases n with
  | ofNat n => exact digit_not_isSpace (natText_isDigit n c h)
  | negSucc n =>
      rcases List.mem_cons.mp h with rfl | h
      · decide
      · exact digit_not_isSpace (natText_isDigit _ c h)

/-- A written value starts with an opening letter that is not blank. -/
theorem dumps_head_not_isSpace {v : Json} (hv : Plain v) {text : Str}
    (h : dumps F style v = some text) :
    ∃ c t, text = c :: t ∧ Opens c ∧ c.isSpace = false := by
  obtain ⟨c, t, rfl, hopens⟩ := dumps_head hv h
  refine ⟨c, t, rfl, hopens, ?_⟩
  cases hv with
  | null =>
      cases h
      decide
  | bool b =>
      cases b
      · cases h
        decide
      · cases h
        decide
  | int n =>
      rw [dumps] at h
      split_ifs at h
      apply intText_not_isSpace (n := n)
      rw [Option.some.inj h]
      exact List.mem_cons_self
  | str =>
      cases h
      decide
  | arr =>
      rw [dumps] at h
      obtain ⟨texts, -, h⟩ := Option.bind_eq_some_iff.mp h
      cases h
      decide
  | obj =>
      rw [dumps] at h
      obtain ⟨texts, -, h⟩ := Option.bind_eq_some_iff.mp h
      cases h
      decide

/-- A text without blanks is not cut before one. -/
theorem fails_of_not_isSpace {v : Json}
    (h : ∀ text, dumps F style v = some text → ∀ c ∈ text, c.isSpace = false) :
    Fails F style v := by
  intro text htext a m c heq hc
  have hblank := h text htext c (by rw [heq]; simp)
  rw [hc] at hblank
  cases hblank

theorem forall_not_isSpace {s : Str} (h : (s.any CodePoint.isSpace) = false) :
    ∀ c ∈ s, c.isSpace = false := by
  simpa using h

theorem fails_str {s : Str} (hs : Str.encodable s = true) : Fails F style (.str s) := by
  intro text h a m c heq hc fuel depth rest hfuel hdepth hrest
  cases h
  rw [stringText, List.cons_append] at heq
  obtain ⟨a, rfl, hquote⟩ := cut_cons heq (by decide) hc
  obtain ⟨m, hletters⟩ := cut_append_singleton hquote (by decide) hc
  cases fuel with
  | zero => simp at hfuel
  | succ fuel =>
      rw [List.cons_append, scanValue_quote, scanString_cut hs hletters hc hrest]
      rfl

theorem skipSpace_comma (rest : Str) : skipSpace (comma :: rest) = comma :: rest := rfl

theorem skipSpace_colon (rest : Str) : skipSpace (colon :: rest) = colon :: rest := rfl

/-- The first letter of joined texts. -/
theorem join_head {c : CodePoint} {t : Str} (texts : List Str) :
    ∃ t', Str.join [comma] ((c :: t) :: texts) = c :: t' := by
  cases texts with
  | nil => exact ⟨t, rfl⟩
  | cons u texts => exact ⟨_, rfl⟩

/-- The items of a list are not read when their text is cut. -/
theorem scanItems_cut {items : List Json} (hstyle : style.Unsorted)
    (hplain : ∀ v ∈ items, Plain v) (hfails : ∀ v ∈ items, Fails F style v) {texts : List Str}
    (h : dumpsItems F style items = some texts) {a m : Str} {c : CodePoint}
    (heq : Str.join [comma] texts = a ++ c :: m) (hc : c.isSpace = true) {fuel depth : Nat}
    {rest : Str} (hfuel : 2 * a.length < fuel) (hdepth : Json.depthItems items ≤ depth)
    (hrest : Broken rest) : scanItems F fuel depth (a ++ rest) = .error .decode := by
  induction items generalizing texts a fuel with
  | nil =>
      cases h
      simp at heq
  | cons v items ih =>
      rw [dumpsItems] at h
      obtain ⟨text, htext, h⟩ := Option.bind_eq_some_iff.mp h
      obtain ⟨more, hmore, h⟩ := Option.bind_eq_some_iff.mp h
      cases h
      obtain ⟨fuel, rfl⟩ : ∃ n, fuel = n + 1 := ⟨fuel - 1, by omega⟩
      rw [Json.depthItems, Nat.max_le] at hdepth
      have hfirst {m' : Str} (hcut : text = a ++ c :: m') :
          scanItems F (fuel + 1) depth (a ++ rest) = .error .decode := by
        have hv := hfails v List.mem_cons_self htext hcut hc
          (show 2 * a.length ≤ fuel by omega) hdepth.1 hrest
        rw [scanItems, hv]
        rfl
      cases items with
      | nil =>
          cases hmore
          exact hfirst heq
      | cons w items =>
          obtain ⟨text', more', rfl⟩ : ∃ t ts, more = t :: ts := by
            cases dumpsItems_eq_some_iff.mp hmore
            exact ⟨_, _, rfl⟩
          rw [Str.join_cons_cons, List.append_assoc] at heq
          rcases append_eq_append_cons heq with ⟨m', hcut⟩ | ⟨a', rfl, htail⟩
          · exact hfirst hcut
          · obtain ⟨a', rfl, hlater⟩ := cut_cons htail (by decide) hc
            simp only [List.length_append, List.length_cons] at hfuel
            obtain ⟨d, t, rfl, hopens, hd⟩ : ∃ d t, text' = d :: t ∧ Opens d ∧
                d.isSpace = false := by
              cases dumpsItems_eq_some_iff.mp hmore with
              | cons hw _ => exact dumps_head_not_isSpace (hplain w (by simp)) hw
            obtain ⟨t', hhead⟩ := join_head (c := d) (t := t) more'
            obtain ⟨a'', rfl, -⟩ := cut_cons (hhead.symm.trans hlater) hd hc
            have hv := readsBack hstyle (hplain v List.mem_cons_self) htext fuel depth
              (comma :: (d :: a'' ++ rest)) (by omega) hdepth.1 (delimited_comma _)
            have htail := ih (fun x hx => hplain x (List.mem_cons_of_mem _ hx))
              (fun x hx => hfails x (List.mem_cons_of_mem _ hx)) hmore hlater
              (show 2 * (d :: a'').length < fuel by
                simp only [List.length_cons] at hfuel ⊢
                omega) hdepth.2
            have hne : comma ≠ closeBracket := by decide
            rw [List.append_assoc, List.cons_append, scanItems, hv]
            simp only [bind, Except.bind, skipSpace_comma, if_neg hne, if_true, List.cons_append,
              skipSpace_of_opens hopens]
            rw [List.cons_append] at htail
            rw [htail]

/-- A cut of a member falls into its key or into its value. -/
theorem memberText_cut {ensureAscii : Bool} {key text a m : Str} {c : CodePoint}
    (heq : memberText ensureAscii (key, text) = a ++ c :: m) (hc : c.isSpace = true) :
    (∃ a' m', a = quote :: a' ∧ key.flatMap (escapePoint ensureAscii) = a' ++ c :: m') ∨
      ∃ a', a = stringText ensureAscii key ++ colon :: a' ∧ text = a' ++ c :: m := by
  rw [memberText, List.append_assoc] at heq
  rcases append_eq_append_cons heq with ⟨m', hcut⟩ | ⟨a', rfl, htail⟩
  · rw [stringText, List.cons_append] at hcut
    obtain ⟨a', rfl, hquote⟩ := cut_cons hcut (by decide) hc
    obtain ⟨m', hletters⟩ := cut_append_singleton hquote (by decide) hc
    exact .inl ⟨a', m', rfl, hletters⟩
  · obtain ⟨a', rfl, htext⟩ := cut_cons htail (by decide) hc
    exact .inr ⟨a', rfl, htext⟩

/-- A member whose text is cut is not read. -/
theorem scanMembers_cut_first {key text a m rest : Str} {v : Json} {c : CodePoint}
    (hkey : Str.encodable key = true) (hplain : Plain v) (hfails : Fails F style v)
    (htext : dumps F style v = some text)
    (heq : memberText style.ensureAscii (key, text) = a ++ c :: m) (hc : c.isSpace = true)
    {fuel depth : Nat} (hfuel : 2 * a.length < fuel) (hdepth : v.depth ≤ depth)
    (hrest : Broken rest) (sofar : Entries Str Json) :
    scanMembers F fuel depth sofar (a ++ rest) = .error .decode := by
  obtain ⟨fuel, rfl⟩ : ∃ n, fuel = n + 1 := ⟨fuel - 1, by omega⟩
  rcases memberText_cut heq hc with ⟨a', m', rfl, hletters⟩ | ⟨a', rfl, hvalue⟩
  · rw [List.cons_append, scanMembers, if_pos rfl, scanString_cut hkey hletters hc hrest]
    rfl
  · obtain ⟨d, t, rfl, hopens, hd⟩ := dumps_head_not_isSpace hplain htext
    simp only [List.length_append, List.length_cons] at hfuel
    have hv := hfails htext hvalue hc (show 2 * a'.length ≤ fuel by omega) hdepth hrest
    obtain ⟨a'', rfl, -⟩ := cut_cons hvalue hd hc
    rw [stringText, List.cons_append, List.cons_append, List.cons_append, scanMembers, if_pos rfl,
      List.append_assoc, List.append_assoc, List.singleton_append, scanString_stringText hkey]
    rw [List.cons_append] at hv
    simp only [bind, Except.bind, List.cons_append, skipSpace_colon, if_true,
      skipSpace_of_opens hopens, hv]

/-- The members of a dictionary are not read when their text is cut. -/
theorem scanMembers_cut {fields : List (Str × Json)} (hstyle : style.Unsorted)
    (hkeys : ∀ e ∈ fields, Str.encodable e.1 = true) (hplain : ∀ e ∈ fields, Plain e.2)
    (hfails : ∀ e ∈ fields, Fails F style e.2) {texts : List (Str × Str)}
    (h : dumpsFields F style fields = some texts) {a m : Str} {c : CodePoint}
    (heq : Str.join [comma] (texts.map (memberText style.ensureAscii)) = a ++ c :: m)
    (hc : c.isSpace = true) {fuel depth : Nat} {rest : Str} (hfuel : 2 * a.length < fuel)
    (hdepth : Json.depthFields fields ≤ depth) (hrest : Broken rest)
    (sofar : Entries Str Json) :
    scanMembers F fuel depth sofar (a ++ rest) = .error .decode := by
  induction fields generalizing texts a fuel sofar with
  | nil =>
      cases h
      simp at heq
  | cons e fields ih =>
      obtain ⟨key, v⟩ := e
      rw [dumpsFields] at h
      obtain ⟨text, htext, h⟩ := Option.bind_eq_some_iff.mp h
      obtain ⟨more, hmore, h⟩ := Option.bind_eq_some_iff.mp h
      cases h
      rw [Json.depthFields, Nat.max_le] at hdepth
      have hkey := hkeys (key, v) List.mem_cons_self
      have hv := hplain (key, v) List.mem_cons_self
      have hfirst {m' : Str} (hcut : memberText style.ensureAscii (key, text) = a ++ c :: m') :
          scanMembers F fuel depth sofar (a ++ rest) = .error .decode :=
        scanMembers_cut_first hkey hv (hfails (key, v) List.mem_cons_self) htext hcut hc hfuel
          hdepth.1 hrest sofar
      cases fields with
      | nil =>
          cases hmore
          exact hfirst heq
      | cons e' fields =>
          obtain ⟨key', v'⟩ := e'
          obtain ⟨text', more', rfl⟩ : ∃ t ts, more = (key', t) :: ts := by
            rw [dumpsFields] at hmore
            obtain ⟨t, -, hmore⟩ := Option.bind_eq_some_iff.mp hmore
            obtain ⟨ts, -, hmore⟩ := Option.bind_eq_some_iff.mp hmore
            cases hmore
            exact ⟨t, ts, rfl⟩
          rw [List.map_cons, List.map_cons, Str.join_cons_cons, List.append_assoc] at heq
          rcases append_eq_append_cons heq with ⟨m', hcut⟩ | ⟨a', rfl, htail⟩
          · exact hfirst hcut
          · obtain ⟨a', rfl, hlater⟩ := cut_cons htail (by decide) hc
            obtain ⟨t', hhead⟩ : ∃ t', Str.join [comma] (memberText style.ensureAscii (key', text') ::
                more'.map (memberText style.ensureAscii)) = quote :: t' := join_head _
            obtain ⟨a'', rfl, -⟩ := cut_cons (hhead.symm.trans hlater) (by decide) hc
            simp only [List.length_append, List.length_cons] at hfuel
            obtain ⟨fuel, rfl⟩ : ∃ n, fuel = n + 1 := ⟨fuel - 1, by omega⟩
            obtain ⟨d, t, rfl, hopens, -⟩ := dumps_head_not_isSpace hv htext
            have hlength : (d :: t).length ≤ (memberText style.ensureAscii (key, d :: t)).length := by
              rw [memberText, List.length_append]
              exact Nat.le_add_left _ _
            have hread := readsBack hstyle hv htext fuel depth
              (comma :: (quote :: a'' ++ rest)) (by omega) hdepth.1 (delimited_comma _)
            have htail := ih (fun x hx => hkeys x (List.mem_cons_of_mem _ hx))
              (fun x hx => hplain x (List.mem_cons_of_mem _ hx))
              (fun x hx => hfails x (List.mem_cons_of_mem _ hx)) hmore hlater
              (show 2 * (quote :: a'').length < fuel by
                simp only [List.length_cons]
                omega) hdepth.2 (Entries.set sofar key v)
            have hne : comma ≠ closeBrace := by decide
            have hmember (r : Str) : memberText style.ensureAscii (key, d :: t) ++ r =
                quote :: (key.flatMap (escapePoint style.ensureAscii) ++ quote ::
                  (colon :: (d :: t ++ r))) := by
              simp [memberText, stringText]
            rw [List.append_assoc, hmember, scanMembers, if_pos rfl, scanString_stringText hkey]
            simp only [List.cons_append] at hread htail
            simp only [bind, Except.bind, skipSpace_colon, if_true, List.cons_append,
              skipSpace_of_opens hopens, hread, skipSpace_comma, if_neg hne,
              skipSpace_of_opens opens_quote, htail]

/-- No plain value is read from a text that is cut before a blank. -/
theorem fails (hstyle : style.Unsorted) {v : Json} (hv : Plain v) : Fails F style v := by
  induction hv with
  | null =>
      apply fails_of_not_isSpace
      rintro _ ⟨⟩
      exact forall_not_isSpace (by decide)
  | bool b =>
      apply fails_of_not_isSpace
      cases b
      · rintro _ ⟨⟩
        exact forall_not_isSpace (by decide)
      · rintro _ ⟨⟩
        exact forall_not_isSpace (by decide)
  | int n =>
      apply fails_of_not_isSpace
      intro text h c hc
      rw [dumps] at h
      split_ifs at h
      cases h
      exact intText_not_isSpace hc
  | str hs => exact fails_str hs
  | @arr items hplain ih =>
      intro text h a m c heq hc fuel depth rest hfuel hdepth hrest
      rw [dumps] at h
      obtain ⟨texts, htexts, h⟩ := Option.bind_eq_some_iff.mp h
      cases h
      rw [List.cons_append] at heq
      obtain ⟨a, rfl, hclose⟩ := cut_cons heq (by decide) hc
      obtain ⟨m, hitems⟩ := cut_append_singleton hclose (by decide) hc
      rw [List.length_cons] at hfuel
      rw [Json.depth] at hdepth
      obtain ⟨fuel, rfl⟩ : ∃ n, fuel = n + 1 := ⟨fuel - 1, by omega⟩
      obtain ⟨depth, rfl⟩ : ∃ n, depth = n + 1 := ⟨depth - 1, by omega⟩
      have hscan := scanItems_cut hstyle hplain ih htexts hitems hc
        (show 2 * a.length < fuel by omega) (show Json.depthItems items ≤ depth by omega) hrest
      cases dumpsItems_eq_some_iff.mp htexts with
      | nil => simp at hitems
      | @cons w u items texts hw hmore =>
          obtain ⟨d, t, rfl, hopens, hd⟩ := dumps_head_not_isSpace (hplain w (by simp)) hw
          obtain ⟨t', hhead⟩ := join_head (c := d) (t := t) texts
          obtain ⟨a'', rfl, -⟩ := cut_cons (hhead.symm.trans hitems) hd hc
          rw [List.cons_append] at hscan ⊢
          rw [List.cons_append, scanValue_arr F fuel depth _ hopens, hscan]
          rfl
  | @obj fields hnodup hkeys hplain ih =>
      intro text h a m c heq hc fuel depth rest hfuel hdepth hrest
      rw [dumps] at h
      obtain ⟨texts, htexts, h⟩ := Option.bind_eq_some_iff.mp h
      have hordered : orderedFields style.sortKeys texts = texts := by
        rw [hstyle]
        rfl
      rw [hordered] at h
      cases h
      rw [List.cons_append] at heq
      obtain ⟨a, rfl, hclose⟩ := cut_cons heq (by decide) hc
      obtain ⟨m, hmembers⟩ := cut_append_singleton hclose (by decide) hc
      rw [List.length_cons] at hfuel
      rw [Json.depth] at hdepth
      obtain ⟨fuel, rfl⟩ : ∃ n, fuel = n + 1 := ⟨fuel - 1, by omega⟩
      obtain ⟨depth, rfl⟩ : ∃ n, depth = n + 1 := ⟨depth - 1, by omega⟩
      have hscan := scanMembers_cut hstyle hkeys hplain ih htexts hmembers hc
        (show 2 * a.length < fuel by omega) (show Json.depthFields fields ≤ depth by omega) hrest []
      cases texts with
      | nil => simp at hmembers
      | cons e texts =>
          obtain ⟨t', hhead⟩ : ∃ t', Str.join [comma]
              ((e :: texts).map (memberText style.ensureAscii)) = quote :: t' := join_head _
          obtain ⟨a'', rfl, -⟩ := cut_cons (hhead.symm.trans hmembers) (by decide) hc
          rw [List.cons_append] at hscan ⊢
          rw [List.cons_append, scanValue_obj F fuel depth _ opens_quote, hscan]
          rfl

/-- A cut JSON text is no JSON text. -/
theorem loads_cut (hstyle : style.Unsorted) {v : Json} (hv : Plain v) {text a m rest : Str}
    {c : CodePoint} (h : dumps F style v = some text) (heq : text = a ++ c :: m)
    (hc : c.isSpace = true) {depth : Nat} (hdepth : v.depth ≤ depth) (hrest : Broken rest) :
    loads F depth (a ++ rest) = .error .decode := by
  obtain ⟨d, t, rfl, hopens, hd⟩ := dumps_head_not_isSpace hv h
  obtain ⟨a', rfl, -⟩ := cut_cons heq hd hc
  have hscan := fails hstyle hv h heq hc
    (show 2 * (d :: a').length ≤ 2 * (d :: a' ++ rest).length + 2 by
      simp only [List.length_append]
      omega) hdepth hrest
  have hbom : (d :: a' ++ rest).head? ≠ some (cp 0xFEFF) := by
    rw [List.cons_append, List.head?_cons, ne_eq, Option.some.injEq]
    exact hopens.2.2.2
  rw [loads, if_neg hbom, List.cons_append, skipSpace_of_opens hopens, ← List.cons_append, hscan]
  rfl

end Heads

end MediaBridge.Foundation.JsonText
