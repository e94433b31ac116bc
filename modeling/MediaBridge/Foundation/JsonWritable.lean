import MediaBridge.Foundation.JsonRoundTrip

/-!
# Values that can be written

A value without floats, without integers of too many digits and without lone surrogates
has a JSON text in every style, and that text has a UTF-8 encoding.
-/

namespace MediaBridge.Foundation

namespace Str

theorem encodable_iff {s : Str} : s.encodable = true ↔ ∀ c ∈ s, c.isSurrogate = false := by
  simp [encodable]

theorem encodable_append {s t : Str} :
    (s ++ t).encodable = true ↔ s.encodable = true ∧ t.encodable = true := by
  rw [encodable_iff, encodable_iff, encodable_iff, List.forall_mem_append]

theorem encodable_cons {c : CodePoint} {s : Str} :
    encodable (c :: s) = true ↔ c.isSurrogate = false ∧ s.encodable = true := by
  rw [encodable_iff, encodable_iff, List.forall_mem_cons]

theorem encodable_flatMap {α : Type} {items : List α} {text : α → Str}
    (h : ∀ item ∈ items, (text item).encodable = true) :
    encodable (items.flatMap text) = true := by
  rw [encodable_iff]
  intro c hc
  obtain ⟨item, hitem, hc⟩ := List.mem_flatMap.mp hc
  exact encodable_iff.mp (h item hitem) c hc

theorem encodable_join {sep : Str} (hsep : sep.encodable = true) {texts : List Str}
    (h : ∀ t ∈ texts, t.encodable = true) : (join sep texts).encodable = true := by
  induction texts with
  | nil => rfl
  | cons t rest ih =>
      cases rest with
      | nil => exact h t List.mem_cons_self
      | cons u rest =>
          rw [join_cons_cons, encodable_append, encodable_append]
          exact ⟨⟨h t List.mem_cons_self, hsep⟩, ih (List.forall_mem_of_forall_mem_cons h)⟩

theorem encodable_of_isInfix {s t : Str} (h : s <:+: t) (ht : t.encodable = true) :
    s.encodable = true := by
  rw [encodable_iff] at ht ⊢
  exact fun c hc => ht c (h.subset hc)

end Str

namespace JsonText

/-- A value that has a JSON text in every style. -/
inductive Writable : Json → Prop
  | null : Writable .null
  | bool (b : Bool) : Writable (.bool b)
  | int {n : Int} : tooLong n.natAbs = false → Writable (.int n)
  | str {s : Str} : Str.encodable s = true → Writable (.str s)
  | arr {items : List Json} : (∀ v ∈ items, Writable v) → Writable (.arr items)
  | obj {fields : List (Str × Json)} : (∀ e ∈ fields, Str.encodable e.1 = true) →
      (∀ e ∈ fields, Writable e.2) → Writable (.obj fields)

namespace Writable

theorem empty : Writable (.obj []) := .obj nofun nofun

theorem cons {key : Str} {v : Json} {fields : List (Str × Json)} (hkey : key.encodable = true)
    (hv : Writable v) (h : Writable (.obj fields)) : Writable (.obj ((key, v) :: fields)) := by
  cases h with
  | obj hkeys hvalues =>
      exact .obj (List.forall_mem_cons.mpr ⟨hkey, hkeys⟩) (List.forall_mem_cons.mpr ⟨hv, hvalues⟩)

end Writable

theorem encodable_hexEscape (v : Nat) : (unicodeEscape v).encodable = true := by
  have hdigits : ∀ d < 16, (hexLetter d).isSurrogate = false := by decide
  have hletter (n : Nat) := hdigits (n % 16) (Nat.mod_lt _ (by decide))
  rw [Str.encodable_iff]
  simp only [unicodeEscape, List.mem_cons, List.not_mem_nil, or_false, forall_eq_or_imp,
    forall_eq, hletter, and_true]
  decide

theorem encodable_escapePoint {ensureAscii : Bool} {c : CodePoint}
    (h : c.isSurrogate = false) : (escapePoint ensureAscii c).encodable = true := by
  unfold escapePoint
  split
  · rename_i letter hletter
    have hshort : letter.isSurrogate = false := by
      unfold shortEscape at hletter
      split_ifs at hletter <;> cases hletter <;> decide
    rw [Str.encodable_cons, Str.encodable_cons]
    exact ⟨by decide, hshort, rfl⟩
  · split_ifs
    · exact encodable_hexEscape _
    · exact encodable_hexEscape _
    · exact Str.encodable_append.mpr ⟨encodable_hexEscape _, encodable_hexEscape _⟩
    · exact Str.encodable_cons.mpr ⟨h, rfl⟩

theorem encodable_stringText {ensureAscii : Bool} {s : Str} (h : s.encodable = true) :
    (stringText ensureAscii s).encodable = true := by
  rw [stringText, List.cons_append, Str.encodable_cons, Str.encodable_append]
  refine ⟨by decide, Str.encodable_flatMap fun c hc => ?_, by decide⟩
  exact encodable_escapePoint (Str.encodable_iff.mp h c hc)

theorem encodable_natText (n : Nat) : (natText n).encodable = true := by
  apply Str.encodable_of_ascii
  intro c hc
  have hdigit := natText_isDigit n c hc
  simp only [CodePoint.isAsciiDigit, Bool.and_eq_true, decide_eq_true_eq] at hdigit
  simp only [CodePoint.isAscii, decide_eq_true_eq]
  omega

theorem length_decimalDigits_le {fuel n k : Nat} (hk : 0 < k) (h : n < 10 ^ k) :
    (decimalDigits fuel n).length ≤ k := by
  induction fuel generalizing n k with
  | zero => exact Nat.zero_le k
  | succ fuel ih =>
      rw [decimalDigits]
      split_ifs with hn
      · exact hk
      · obtain ⟨k, rfl⟩ := Nat.exists_eq_succ_of_ne_zero hk.ne'
        rw [Nat.pow_succ] at h
        have hlt : n / 10 < 10 ^ k := by omega
        have hpos : 0 < k := by
          rcases Nat.eq_zero_or_pos k with rfl | hpos
          · omega
          · exact hpos
        rw [List.length_append]
        exact Nat.succ_le_succ (ih hpos hlt)

/-- A number below the limit has a text. -/
theorem tooLong_eq_false {n : Nat} (h : n < 10 ^ maxIntDigits) : tooLong n = false :=
  decide_eq_false (Nat.not_lt.mpr (length_decimalDigits_le (by decide) h))

theorem encodable_intText (n : Int) : (intText n).encodable = true := by
  cases n with
  | ofNat n => exact encodable_natText n
  | negSucc n => exact Str.encodable_cons.mpr ⟨by decide, encodable_natText _⟩

/-- Items that can be written have texts. -/
theorem exists_dumpsItems {F : FloatText} {style : Style} {G : Str → Prop} {items : List Json}
    (h : ∀ v ∈ items, ∃ text, dumps F style v = some text ∧ G text) :
    ∃ texts, dumpsItems F style items = some texts ∧ ∀ t ∈ texts, G t := by
  induction items with
  | nil => exact ⟨[], rfl, nofun⟩
  | cons v rest ih =>
      obtain ⟨text, htext, hgood⟩ := h v List.mem_cons_self
      obtain ⟨texts, htexts, hall⟩ := ih (List.forall_mem_of_forall_mem_cons h)
      refine ⟨text :: texts, ?_, List.forall_mem_cons.mpr ⟨hgood, hall⟩⟩
      rw [dumpsItems, htext, htexts]
      rfl

/-- Fields that can be written have texts. -/
theorem exists_dumpsFields {F : FloatText} {style : Style} {K G : Str → Prop}
    {fields : List (Str × Json)} (hkeys : ∀ e ∈ fields, K e.1)
    (h : ∀ e ∈ fields, ∃ text, dumps F style e.2 = some text ∧ G text) :
    ∃ texts, dumpsFields F style fields = some texts ∧ ∀ e ∈ texts, K e.1 ∧ G e.2 := by
  induction fields with
  | nil => exact ⟨[], rfl, nofun⟩
  | cons e rest ih =>
      obtain ⟨text, htext, hgood⟩ := h e List.mem_cons_self
      obtain ⟨texts, htexts, hall⟩ := ih (List.forall_mem_of_forall_mem_cons hkeys)
        (List.forall_mem_of_forall_mem_cons h)
      refine ⟨(e.1, text) :: texts, ?_, List.forall_mem_cons.mpr
        ⟨⟨hkeys e List.mem_cons_self, hgood⟩, hall⟩⟩
      rw [dumpsFields, htext, htexts]
      rfl

theorem mem_orderedFields {ν : Type} {sortKeys : Bool} {fields : List (Str × ν)}
    {e : Str × ν} : e ∈ orderedFields sortKeys fields ↔ e ∈ fields := by
  unfold orderedFields
  split
  · exact List.mem_insertionSort _
  · exact Iff.rfl

/-- A value that can be written has a text with a UTF-8 encoding. -/
theorem Writable.exists_dumps {v : Json} (h : Writable v) (F : FloatText) (style : Style) :
    ∃ text, dumps F style v = some text ∧ text.encodable = true := by
  induction h with
  | null => exact ⟨_, rfl, by decide⟩
  | bool b => cases b <;> exact ⟨_, rfl, by decide⟩
  | int hshort => exact ⟨_, if_neg (by simp [hshort]), encodable_intText _⟩
  | str hs => exact ⟨_, rfl, encodable_stringText hs⟩
  | arr _ ih =>
      obtain ⟨texts, htexts, hall⟩ := exists_dumpsItems ih
      refine ⟨openBracket :: Str.join [comma] texts ++ [closeBracket], ?_, ?_⟩
      · rw [dumps, htexts]
        rfl
      · rw [List.cons_append, Str.encodable_cons, Str.encodable_append]
        exact ⟨by decide, Str.encodable_join (by decide) hall, by decide⟩
  | obj hkeys _ ih =>
      obtain ⟨texts, htexts, hall⟩ :=
        exists_dumpsFields (K := fun key => Str.encodable key = true) hkeys ih
      refine ⟨openBrace :: Str.join [comma] ((orderedFields style.sortKeys texts).map
        (memberText style.ensureAscii)) ++ [closeBrace], ?_, ?_⟩
      · rw [dumps, htexts]
        rfl
      · rw [List.cons_append, Str.encodable_cons, Str.encodable_append]
        refine ⟨by decide, Str.encodable_join (by decide) ?_, by decide⟩
        intro t ht
        obtain ⟨e, he, rfl⟩ := List.mem_map.mp ht
        obtain ⟨hkey, htext⟩ := hall e (mem_orderedFields.mp he)
        rw [memberText, Str.encodable_append, Str.encodable_append]
        exact ⟨⟨encodable_stringText hkey, by decide⟩, htext⟩

/-- The encoded text of a value that can be written. -/
theorem Writable.exists_encoded {v : Json} (h : Writable v) (F : FloatText) (style : Style) :
    ∃ text data, dumps F style v = some text ∧ Utf8.encode text = some data := by
  obtain ⟨text, htext, hgood⟩ := h.exists_dumps F style
  exact ⟨text, _, htext, if_pos hgood⟩

end JsonText

end MediaBridge.Foundation
