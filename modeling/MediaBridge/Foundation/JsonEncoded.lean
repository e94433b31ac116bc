import MediaBridge.Foundation.JsonSorted
import MediaBridge.Foundation.JsonWritable

/-!
# Values whose JSON text has a UTF-8 encoding

Which values `json.dumps(...).encode()` takes, in a style that leaves non-ASCII letters as they
are: by the parts of the value.
-/

namespace MediaBridge.Foundation

namespace Str

/-- A joined text can be encoded only if its parts can. -/
theorem encodable_of_join {sep : Str} {texts : List Str} (h : (join sep texts).encodable = true) :
    ∀ t ∈ texts, t.encodable = true := by
  induction texts with
  | nil => exact List.forall_mem_nil _
  | cons t rest ih =>
      cases rest with
      | nil => exact List.forall_mem_singleton.mpr h
      | cons u rest =>
          rw [join_cons_cons, encodable_append, encodable_append] at h
          exact List.forall_mem_cons.mpr ⟨h.1.1, ih h.2⟩

end Str

namespace JsonText

variable {F : FloatText} {style : Style}

/-- The value has a text, and the text an encoding. -/
def Encoded (F : FloatText) (style : Style) (v : Json) : Prop :=
  ∃ text, dumps F style v = some text ∧ text.encodable = true

/-- A letter that is left as it is can be encoded only if it is no surrogate. -/
theorem isSurrogate_of_escapePoint {c : CodePoint}
    (h : (escapePoint false c).encodable = true) : c.isSurrogate = false := by
  by_contra hsurrogate
  have hrange : 0xD800 ≤ c.val := by
    simp only [CodePoint.isSurrogate, Bool.not_eq_false, Bool.and_eq_true,
      decide_eq_true_eq] at hsurrogate
    exact hsurrogate.1
  have hshort : shortEscape c = none := by
    unfold shortEscape
    have hne : ∀ n < 0xD800, c ≠ cp n := by
      rintro n hn rfl
      have hval : (cp n).val = n := Nat.mod_eq_of_lt (hn.trans (by decide))
      omega
    have hquote : c ≠ quote := hne 34 (by decide)
    have hbackslash : c ≠ backslash := hne 92 (by decide)
    rw [if_neg hquote, if_neg hbackslash, if_neg (hne 8 (by decide)),
      if_neg (hne 12 (by decide)), if_neg (hne 10 (by decide)), if_neg (hne 13 (by decide)),
      if_neg (hne 9 (by decide))]
  have hlarge : ¬ c.val < 32 := by omega
  simp only [escapePoint, hshort, if_neg hlarge, Bool.false_and, Bool.false_eq_true,
    if_false] at h
  exact hsurrogate (Str.encodable_cons.mp h).1

theorem encodable_stringText_iff {s : Str} :
    (stringText false s).encodable = true ↔ s.encodable = true := by
  refine ⟨?_, encodable_stringText⟩
  intro h
  rw [stringText, List.cons_append, Str.encodable_cons, Str.encodable_append] at h
  apply Str.encodable_iff.mpr
  intro c hc
  apply isSurrogate_of_escapePoint
  apply Str.encodable_iff.mpr
  intro d hd
  exact Str.encodable_iff.mp h.2.1 d (List.mem_flatMap.mpr ⟨c, hc, hd⟩)

theorem encoded_str_iff (hstyle : style.ensureAscii = false) {s : Str} :
    Encoded F style (.str s) ↔ s.encodable = true := by
  unfold Encoded
  simp only [dumps, Option.some.injEq, exists_eq_left', hstyle]
  exact encodable_stringText_iff

theorem encoded_arr_iff {items : List Json} :
    Encoded F style (.arr items) ↔ ∀ v ∈ items, Encoded F style v := by
  constructor
  · rintro ⟨text, htext, hgood⟩ v hv
    rw [dumps] at htext
    obtain ⟨texts, htexts, h⟩ := Option.bind_eq_some_iff.mp htext
    cases h
    obtain ⟨t, ht, hdumps⟩ := exists_of_forall₂_left (dumpsItems_eq_some_iff.mp htexts) hv
    rw [List.cons_append, Str.encodable_cons, Str.encodable_append] at hgood
    exact ⟨t, hdumps, Str.encodable_of_join hgood.2.1 t ht⟩
  · intro h
    obtain ⟨texts, htexts, hall⟩ := exists_dumpsItems h
    refine ⟨openBracket :: Str.join [comma] texts ++ [closeBracket], ?_, ?_⟩
    · rw [dumps, htexts]
      rfl
    · rw [List.cons_append, Str.encodable_cons, Str.encodable_append]
      exact ⟨by decide, Str.encodable_join (by decide) hall, by decide⟩

theorem encoded_obj_iff (hstyle : style.ensureAscii = false) {fields : List (Str × Json)} :
    Encoded F style (.obj fields) ↔
      ∀ e ∈ fields, Str.encodable e.1 = true ∧ Encoded F style e.2 := by
  constructor
  · rintro ⟨text, htext, hgood⟩ e he
    rw [dumps] at htext
    obtain ⟨texts, htexts, h⟩ := Option.bind_eq_some_iff.mp htext
    cases h
    obtain ⟨t, ht, hkey, hdumps⟩ := exists_of_forall₂_left (dumpsFields_eq_some_iff.mp htexts) he
    rw [List.cons_append, Str.encodable_cons, Str.encodable_append] at hgood
    have hmember := Str.encodable_of_join hgood.2.1 _
      (List.mem_map_of_mem (mem_orderedFields.mpr ht))
    rw [memberText, Str.encodable_append, Str.encodable_append, hstyle,
      encodable_stringText_iff] at hmember
    exact ⟨hkey ▸ hmember.1.1, t.2, hdumps, hmember.2⟩
  · intro h
    obtain ⟨texts, htexts, hall⟩ := exists_dumpsFields (K := fun key => Str.encodable key = true)
      (fun e he => (h e he).1) fun e he => (h e he).2
    refine ⟨openBrace :: Str.join [comma] ((orderedFields style.sortKeys texts).map
      (memberText style.ensureAscii)) ++ [closeBrace], ?_, ?_⟩
    · rw [dumps, htexts]
      rfl
    · rw [List.cons_append, Str.encodable_cons, Str.encodable_append]
      refine ⟨by decide, Str.encodable_join (by decide) ?_, by decide⟩
      intro t ht
      obtain ⟨e, he, rfl⟩ := List.mem_map.mp ht
      obtain ⟨hkey, htext⟩ := hall e (mem_orderedFields.mp he)
      rw [memberText, Str.encodable_append, Str.encodable_append]
      exact ⟨⟨encodable_stringText hkey, by decide⟩, htext⟩

end JsonText

end MediaBridge.Foundation
