import MediaBridge.Foundation.JsonAscii
import MediaBridge.Foundation.JsonSorted
import MediaBridge.Foundation.JsonWritable

/-!
# The characters of a JSON text

Without `ensure_ascii`, the characters of a text that are not printable ASCII are those of
the strings of the value.
-/

namespace MediaBridge.Foundation

/-- A character occurs in a string or in a key of the value. -/
inductive Json.Mentions (c : CodePoint) : Json → Prop
  | str {s : Str} : c ∈ s → Mentions c (.str s)
  | item {v : Json} {items : List Json} : v ∈ items → Mentions c v → Mentions c (.arr items)
  | key {e : Str × Json} {fields : List (Str × Json)} : e ∈ fields → c ∈ e.1 →
      Mentions c (.obj fields)
  | value {e : Str × Json} {fields : List (Str × Json)} : e ∈ fields → Mentions c e.2 →
      Mentions c (.obj fields)

namespace JsonText

/-- A value that has a text in every style, and that is read back from it. -/
structure Portable (v : Json) : Prop where
  plain : Plain v
  writable : Writable v

namespace Portable

theorem null : Portable .null := ⟨.null, .null⟩

theorem str {s : Str} (h : Str.encodable s = true) : Portable (.str s) := ⟨.str h, .str h⟩

theorem int {n : Int} (h : tooLong n.natAbs = false) : Portable (.int n) := ⟨.int n, .int h⟩

theorem bool (b : Bool) : Portable (.bool b) := ⟨.bool b, .bool b⟩

theorem arr {items : List Json} (h : ∀ v ∈ items, Portable v) : Portable (.arr items) :=
  ⟨.arr fun v hv => (h v hv).plain, .arr fun v hv => (h v hv).writable⟩

/-- A dictionary whose keys are constants of the program. -/
theorem obj {fields : List (Str × Json)} (names : List String)
    (hnames : fields.map Prod.fst = names.map lit)
    (hkeys : (names.map lit).Nodup ∧ (names.map lit).all Str.encodable = true)
    (h : ∀ e ∈ fields, Portable e.2) : Portable (.obj fields) := by
  have hencodable : ∀ e ∈ fields, Str.encodable e.1 = true := by
    intro e he
    apply List.all_eq_true.mp hkeys.2
    rw [← hnames]
    exact List.mem_map_of_mem he
  have hnodup : (Entries.keys fields).Nodup := by
    rw [Entries.keys, hnames]
    exact hkeys.1
  exact ⟨.obj hnodup hencodable fun e he => (h e he).plain,
    .obj hencodable fun e he => (h e he).writable⟩

end Portable

/-- Printable ASCII. -/
def IsPrintable (c : CodePoint) : Prop := 32 ≤ c.val ∧ c.val < 127

instance (c : CodePoint) : Decidable (IsPrintable c) := inferInstanceAs (Decidable (_ ∧ _))

theorem isPrintable_of_isDigit {c : CodePoint} (h : c.isAsciiDigit = true) : IsPrintable c := by
  simp only [CodePoint.isAsciiDigit, Bool.and_eq_true, decide_eq_true_eq] at h
  unfold IsPrintable
  omega

theorem isPrintable_intText {n : Int} {c : CodePoint} (h : c ∈ intText n) : IsPrintable c := by
  cases n with
  | ofNat n => exact isPrintable_of_isDigit (natText_isDigit n c h)
  | negSucc n =>
      rcases List.mem_cons.mp h with rfl | h
      · decide
      · exact isPrintable_of_isDigit (natText_isDigit _ c h)

/-- A character of an escaped string is printable, or stands for itself. -/
theorem isPrintable_or_eq_of_mem_escapePoint {ensureAscii : Bool} {c d : CodePoint}
    (h : c ∈ escapePoint ensureAscii d) : IsPrintable c ∨ (127 ≤ c.val ∧ c = d) := by
  have hescape {v : Nat} (hv : c ∈ unicodeEscape v) : IsPrintable c :=
    unicodeEscape_printable v c hv
  unfold escapePoint at h
  split at h
  · rename_i letter hshort
    left
    simp only [List.mem_cons, List.not_mem_nil, or_false] at h
    rcases h with rfl | rfl
    · decide
    · exact shortEscape_printable hshort
  · split_ifs at h with hcontrol _ _
    · exact .inl (hescape h)
    · exact .inl (hescape h)
    · exact .inl ((List.mem_append.mp h).elim hescape hescape)
    · obtain rfl := List.mem_singleton.mp h
      by_cases hlow : c.val < 127
      · exact .inl ⟨by omega, hlow⟩
      · exact .inr ⟨by omega, rfl⟩

theorem mem_stringText {ensureAscii : Bool} {s : Str} {c : CodePoint}
    (h : c ∈ stringText ensureAscii s) : IsPrintable c ∨ (127 ≤ c.val ∧ c ∈ s) := by
  rw [stringText, List.cons_append, List.mem_cons, List.mem_append, List.mem_singleton] at h
  rcases h with rfl | h | rfl
  · exact .inl (by decide)
  · obtain ⟨d, hd, hc⟩ := List.mem_flatMap.mp h
    rcases isPrintable_or_eq_of_mem_escapePoint hc with hprint | ⟨hhigh, rfl⟩
    · exact .inl hprint
    · exact .inr ⟨hhigh, hd⟩
  · exact .inl (by decide)

theorem mem_joined {sep : Str} {texts : List Str} {c : CodePoint} (h : c ∈ Str.join sep texts) :
    c ∈ sep ∨ ∃ t ∈ texts, c ∈ t := by
  induction texts with
  | nil => cases h
  | cons t rest ih =>
      cases rest with
      | nil => exact .inr ⟨t, List.mem_cons_self, h⟩
      | cons u rest =>
          rw [Str.join_cons_cons, List.mem_append, List.mem_append] at h
          rcases h with (h | h) | h
          · exact .inr ⟨t, List.mem_cons_self, h⟩
          · exact .inl h
          · exact (ih h).imp_right fun ⟨w, hw, hc⟩ => ⟨w, List.mem_cons_of_mem _ hw, hc⟩

theorem mem_join {texts : List Str} {c : CodePoint} (h : c ∈ Str.join [comma] texts) :
    c = comma ∨ ∃ t ∈ texts, c ∈ t := (mem_joined h).imp_left List.mem_singleton.mp

theorem mem_join_of_mem {texts : List Str} {t : Str} (ht : t ∈ texts) {c : CodePoint}
    (hc : c ∈ t) : c ∈ Str.join [comma] texts := by
  induction texts with
  | nil => cases ht
  | cons u rest ih =>
      cases rest with
      | nil =>
          obtain rfl := List.mem_singleton.mp ht
          exact hc
      | cons w rest =>
          rw [Str.join_cons_cons]
          rcases List.mem_cons.mp ht with rfl | ht
          · exact List.mem_append_left _ (List.mem_append_left _ hc)
          · exact List.mem_append_right _ (ih ht)

variable {F : FloatText} {style : Style}

/-- A character of a text is printable, or the value mentions it. -/
theorem isPrintable_or_mentions {v : Json} (hv : Plain v) {text : Str}
    (h : dumps F style v = some text) {c : CodePoint} (hc : c ∈ text) :
    IsPrintable c ∨ (127 ≤ c.val ∧ Json.Mentions c v) := by
  have hconstant {s : Str} (hs : s.all (fun c => decide (IsPrintable c)) = true) (hcs : c ∈ s) :
      IsPrintable c := by
    simpa using List.all_eq_true.mp hs c hcs
  induction hv generalizing text with
  | null =>
      cases h
      exact .inl (hconstant (by decide) hc)
  | bool b =>
      cases b
      · cases h
        exact .inl (hconstant (by decide) hc)
      · cases h
        exact .inl (hconstant (by decide) hc)
  | int n =>
      rw [dumps] at h
      split_ifs at h
      cases h
      exact .inl (isPrintable_intText hc)
  | str hs =>
      cases h
      rcases mem_stringText hc with hprint | ⟨hhigh, hmem⟩
      · exact .inl hprint
      · exact .inr ⟨hhigh, .str hmem⟩
  | arr hplain ih =>
      rw [dumps] at h
      obtain ⟨texts, htexts, h⟩ := Option.bind_eq_some_iff.mp h
      cases h
      rw [List.cons_append, List.mem_cons, List.mem_append, List.mem_singleton] at hc
      rcases hc with rfl | hc | rfl
      · exact .inl (by decide)
      · rcases mem_join hc with rfl | ⟨t, ht, hct⟩
        · exact .inl (by decide)
        · obtain ⟨w, hw, hdumps⟩ := exists_of_forall₂ (dumpsItems_eq_some_iff.mp htexts) ht
          rcases ih w hw hdumps hct with hprint | ⟨hhigh, hmentions⟩
          · exact .inl hprint
          · exact .inr ⟨hhigh, .item hw hmentions⟩
      · exact .inl (by decide)
  | obj hnodup hkeys hplain ih =>
      rw [dumps] at h
      obtain ⟨texts, htexts, h⟩ := Option.bind_eq_some_iff.mp h
      cases h
      rw [List.cons_append, List.mem_cons, List.mem_append, List.mem_singleton] at hc
      rcases hc with rfl | hc | rfl
      · exact .inl (by decide)
      · rcases mem_join hc with rfl | ⟨t, ht, hct⟩
        · exact .inl (by decide)
        · obtain ⟨e, he, rfl⟩ := List.mem_map.mp ht
          obtain ⟨f, hf, hkey, hdumps⟩ := exists_of_forall₂ (dumpsFields_eq_some_iff.mp htexts)
            (mem_orderedFields.mp he)
          rw [memberText, List.mem_append, List.mem_append, List.mem_singleton] at hct
          rcases hct with (hct | rfl) | hct
          · rcases mem_stringText hct with hprint | ⟨hhigh, hmem⟩
            · exact .inl hprint
            · exact .inr ⟨hhigh, .key hf (hkey ▸ hmem)⟩
          · exact .inl (by decide)
          · rcases ih f hf hdumps hct with hprint | ⟨hhigh, hmentions⟩
            · exact .inl hprint
            · exact .inr ⟨hhigh, .value hf hmentions⟩
      · exact .inl (by decide)

theorem escapePoint_of_not_ascii {c : CodePoint} (h : 127 ≤ c.val) :
    escapePoint false c = [c] := by
  have hshort : shortEscape c = none := by
    unfold shortEscape
    have hne (n : Nat) (hn : n < 127) : c ≠ cp n := by
      rintro rfl
      rw [cp_val_of_lt (by omega)] at h
      omega
    rw [if_neg (show c ≠ quote from hne 34 (by decide)),
      if_neg (show c ≠ backslash from hne 92 (by decide)), if_neg (hne 8 (by decide)),
      if_neg (hne 12 (by decide)), if_neg (hne 10 (by decide)), if_neg (hne 13 (by decide)),
      if_neg (hne 9 (by decide))]
  rw [escapePoint, hshort]
  simp only [Bool.false_and, Bool.false_eq_true, if_false]
  exact if_neg (by omega)

theorem mem_stringText_of_mem {s : Str} {c : CodePoint} (h : 127 ≤ c.val) (hc : c ∈ s) :
    c ∈ stringText false s := by
  rw [stringText, List.cons_append]
  refine List.mem_cons_of_mem _ (List.mem_append_left _ (List.mem_flatMap.mpr ⟨c, hc, ?_⟩))
  rw [escapePoint_of_not_ascii h]
  exact List.mem_cons_self

/-- Without `ensure_ascii`, what the value mentions outside ASCII is in its text. -/
theorem mem_dumps_of_mentions (hstyle : style.ensureAscii = false) {v : Json} {text : Str}
    (h : dumps F style v = some text) {c : CodePoint} (hhigh : 127 ≤ c.val)
    (hc : Json.Mentions c v) : c ∈ text := by
  induction hc generalizing text with
  | str hmem =>
      rw [dumps, hstyle] at h
      cases h
      exact mem_stringText_of_mem hhigh hmem
  | item hv _ ih =>
      rw [dumps] at h
      obtain ⟨texts, htexts, h⟩ := Option.bind_eq_some_iff.mp h
      cases h
      obtain ⟨t, ht, hdumps⟩ := exists_of_forall₂_left (dumpsItems_eq_some_iff.mp htexts) hv
      rw [List.cons_append]
      exact List.mem_cons_of_mem _ (List.mem_append_left _ (mem_join_of_mem ht (ih hdumps)))
  | key he hmem =>
      rw [dumps] at h
      obtain ⟨texts, htexts, h⟩ := Option.bind_eq_some_iff.mp h
      cases h
      obtain ⟨t, ht, hkey, -⟩ := exists_of_forall₂_left (dumpsFields_eq_some_iff.mp htexts) he
      rw [List.cons_append]
      refine List.mem_cons_of_mem _ (List.mem_append_left _ (mem_join_of_mem
        (List.mem_map_of_mem (mem_orderedFields.mpr ht)) ?_))
      rw [memberText, hstyle]
      refine List.mem_append_left _ (List.mem_append_left _ (mem_stringText_of_mem hhigh ?_))
      rwa [← hkey]
  | value he _ ih =>
      rw [dumps] at h
      obtain ⟨texts, htexts, h⟩ := Option.bind_eq_some_iff.mp h
      cases h
      obtain ⟨t, ht, -, hdumps⟩ := exists_of_forall₂_left (dumpsFields_eq_some_iff.mp htexts) he
      rw [List.cons_append]
      refine List.mem_cons_of_mem _ (List.mem_append_left _ (mem_join_of_mem
        (List.mem_map_of_mem (mem_orderedFields.mpr ht)) ?_))
      rw [memberText]
      exact List.mem_append_right _ (ih hdumps)

end JsonText

end MediaBridge.Foundation
