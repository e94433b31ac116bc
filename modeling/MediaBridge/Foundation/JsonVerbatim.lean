import MediaBridge.Foundation.JsonCharacters
import MediaBridge.Foundation.JsonEncoded
import MediaBridge.Foundation.JsonEqual
import MediaBridge.Foundation.JsonReread
import MediaBridge.Foundation.Lines

/-!
# Texts with their own characters

A value that can be written without ASCII escapes and without constants outside JSON is
read back from its text, floats included, and what is read is equal to it.
-/

namespace MediaBridge.Foundation.JsonText

/-- A value with finite floats, encodable strings and unique keys. -/
inductive Verbatim : Json → Prop
  | null : Verbatim .null
  | bool (b : Bool) : Verbatim (.bool b)
  | int (n : Int) : Verbatim (.int n)
  | float {bits : BitVec 64} : isFinite bits = true → Verbatim (.float bits)
  | str {s : Str} : Str.encodable s = true → Verbatim (.str s)
  | arr {items : List Json} : (∀ v ∈ items, Verbatim v) → Verbatim (.arr items)
  | obj {fields : List (Str × Json)} : (Entries.keys fields).Nodup →
      (∀ e ∈ fields, Str.encodable e.1 = true) → (∀ e ∈ fields, Verbatim e.2) →
      Verbatim (.obj fields)

variable {F : FloatText} {style : Style} {v : Json} {text : Str}

/-- What can be encoded as it is written is such a value. -/
theorem verbatim_of_encoded (hascii : style.ensureAscii = false) (hnan : style.allowNan = false)
    (hwell : v.WellFormed) (h : Encoded F style v) : Verbatim v := by
  induction v using Json.induct with
  | null => exact .null
  | bool b => exact .bool b
  | int n => exact .int n
  | float bits =>
      obtain ⟨text, htext, -⟩ := h
      rw [dumps, hnan] at htext
      by_cases hfinite : isFinite bits = true
      · exact .float hfinite
      · rw [if_neg hfinite, if_neg Bool.false_ne_true] at htext
        cases htext
  | str s => exact .str ((encoded_str_iff hascii).mp h)
  | arr items ih =>
      rw [Json.WellFormed] at hwell
      refine .arr fun v hv => ?_
      exact ih v hv (Json.wellFormedItems_of_mem hwell v hv) (encoded_arr_iff.mp h v hv)
  | obj fields ih =>
      rw [Json.WellFormed] at hwell
      have hfields := (encoded_obj_iff hascii).mp h
      refine .obj hwell.1 (fun e he => (hfields e he).1) fun e he => ?_
      exact ih e he (Json.wellFormedFields_of_mem hwell.2 e he) (hfields e he).2

/-- What is read from a text has unique keys. -/
theorem Readable.wellFormed (h : Readable v) : v.WellFormed := by
  induction v using Json.induct with
  | arr items ih =>
      cases h with
      | arr hitems =>
          rw [Json.WellFormed]
          induction items with
          | nil => trivial
          | cons v rest ihrest =>
              obtain ⟨hv, hrest⟩ := List.forall_mem_cons.mp ih
              obtain ⟨hreadable, hitems⟩ := List.forall_mem_cons.mp hitems
              exact ⟨hv hreadable, ihrest hrest hitems⟩
  | obj fields ih =>
      cases h with
      | obj hnodup hkeys hvalues =>
          rw [Json.WellFormed]
          refine ⟨hnodup, ?_⟩
          clear hnodup hkeys
          induction fields with
          | nil => trivial
          | cons e rest ihrest =>
              obtain ⟨hv, hrest⟩ := List.forall_mem_cons.mp ih
              obtain ⟨hreadable, hvalues⟩ := List.forall_mem_cons.mp hvalues
              exact ⟨hv hreadable, ihrest hrest hvalues⟩
  | _ => trivial

namespace Verbatim

theorem nodup {fields : List (Str × Json)} (h : Verbatim (.obj fields)) :
    (Entries.keys fields).Nodup := by
  cases h with
  | obj hnodup => exact hnodup

theorem opening (hF : F.Faithful) (h : Verbatim v) : Opening F style v := by
  intro text htext
  cases h with
  | null => exact dumps_head .null htext
  | bool b => exact dumps_head (.bool b) htext
  | int n => exact dumps_head (.int n) htext
  | float hfinite => exact opening_finite hF hfinite htext
  | str hs => exact dumps_head (.str hs) htext
  | arr =>
      rw [dumps] at htext
      obtain ⟨texts, -, htext⟩ := Option.bind_eq_some_iff.mp htext
      cases htext
      exact ⟨_, _, rfl, by decide⟩
  | obj =>
      rw [dumps] at htext
      obtain ⟨texts, -, htext⟩ := Option.bind_eq_some_iff.mp htext
      cases htext
      exact ⟨_, _, rfl, by decide⟩

theorem readsBack (hF : F.Faithful) (hstyle : style.Unsorted) (h : Verbatim v) :
    ReadsBack F style v := by
  induction h with
  | null => exact readsBack_constant F rfl (by decide) fun _ => rfl
  | bool b =>
      cases b
      · exact readsBack_constant F rfl (by decide) fun _ => rfl
      · exact readsBack_constant F rfl (by decide) fun _ => rfl
  | int n => exact readsBack_int F style n
  | float hfinite => exact readsBack_finite hF hfinite
  | str hs => exact readsBack_str F style hs
  | arr hitems ih => exact readsBack_arr (fun v hv => (hitems v hv).opening hF) ih
  | obj hnodup hkeys hvalues ih =>
      exact readsBack_obj hstyle hnodup (fun e he => (hvalues e he).opening hF)
        (fun e he => scanString_stringText (hkeys e he)) ih

theorem sorted (h : Verbatim v) : Verbatim v.sorted := by
  induction h with
  | null => simpa using Verbatim.null
  | bool b => simpa using Verbatim.bool b
  | int n => simpa using Verbatim.int n
  | float hfinite => simpa using Verbatim.float hfinite
  | str hs => simpa using Verbatim.str hs
  | arr _ ih =>
      rw [Json.sorted_arr]
      refine .arr fun v hv => ?_
      obtain ⟨w, hw, rfl⟩ := List.mem_map.mp hv
      exact ih w hw
  | @obj fields hnodup hkeys _ ih =>
      rw [Json.sorted_obj]
      have hmem {e : Str × Json} (he : e ∈ Json.sortedEntries fields) :
          ∃ f ∈ fields, (f.1, f.2.sorted) = e :=
        List.mem_map.mp ((Json.sortedEntries_perm fields).mem_iff.mp he)
      refine .obj ((Json.keys_sortedEntries fields).nodup_iff.mpr hnodup) ?_ ?_
      · intro e he
        obtain ⟨f, hf, rfl⟩ := hmem he
        exact hkeys f hf
      · intro e he
        obtain ⟨f, hf, rfl⟩ := hmem he
        exact ih f hf

/-- A line with sorted keys is read as the sorted dictionary. -/
theorem loads_line_sorted (hF : F.Faithful) (hstyle : style.sortKeys = true)
    {fields : List (Str × Json)} (h : Verbatim (.obj fields))
    (htext : dumps F style (.obj fields) = some text) {depth : Nat}
    (hdepth : Json.depth (.obj fields) ≤ depth) :
    loads F depth (text ++ [cp 10]) = .ok (Json.sorted (.obj fields)) := by
  have hsorted := h.sorted
  have hwritten := dumps_sorted hstyle htext
  have hshort := Json.depth_sorted_le hdepth
  rw [Json.sorted_obj] at hsorted hwritten hshort ⊢
  have hopening := hsorted.opening hF hwritten
  cases hsorted with
  | obj hnodup hkeys hvalues =>
      exact loads_line_of (by rfl) hnodup (fun e he => (hvalues e he).opening hF)
        (fun e he => scanString_stringText (hkeys e he))
        (fun e he => (hvalues e he).readsBack hF (by rfl)) hopening hwritten hshort

/-- No character of a text is a control character. -/
theorem le_of_mem_dumps (hF : F.Faithful) (h : Verbatim v) (htext : dumps F style v = some text) :
    ∀ c ∈ text, 32 ≤ c.val := by
  have hconstant {s : Str} (hs : s.all (fun c => decide (32 ≤ c.val)) = true) :
      ∀ c ∈ s, 32 ≤ c.val := by
    intro c hc
    simpa using List.all_eq_true.mp hs c hc
  have hstring (s : Str) : ∀ c ∈ stringText style.ensureAscii s, 32 ≤ c.val := by
    intro c hc
    rcases mem_stringText hc with hprint | ⟨hhigh, -⟩
    · exact hprint.1
    · omega
  have hjoin {texts : List Str} (hall : ∀ t ∈ texts, ∀ c ∈ t, 32 ≤ c.val) (first last : CodePoint)
      (hfirst : 32 ≤ first.val) (hlast : 32 ≤ last.val) :
      ∀ c ∈ first :: Str.join [comma] texts ++ [last], 32 ≤ c.val := by
    intro c hc
    rw [List.cons_append, List.mem_cons, List.mem_append, List.mem_singleton] at hc
    rcases hc with rfl | hc | rfl
    · exact hfirst
    · rcases mem_join hc with rfl | ⟨t, ht, hct⟩
      · decide
      · exact hall t ht c hct
    · exact hlast
  induction h generalizing text with
  | null =>
      cases htext
      exact hconstant (by decide)
  | bool b =>
      cases b
      · cases htext
        exact hconstant (by decide)
      · cases htext
        exact hconstant (by decide)
  | int n =>
      rw [dumps] at htext
      split_ifs at htext
      cases htext
      exact fun c hc => (isPrintable_intText hc).1
  | float hfinite =>
      rw [dumps, if_pos hfinite] at htext
      cases htext
      exact fun c hc => (hF.printable hfinite c hc).1
  | str =>
      cases htext
      exact hstring _
  | arr _ ih =>
      rw [dumps] at htext
      obtain ⟨texts, htexts, htext⟩ := Option.bind_eq_some_iff.mp htext
      cases htext
      apply hjoin _ _ _ (by decide) (by decide)
      intro t ht
      obtain ⟨w, hw, hdumps⟩ := exists_of_forall₂ (dumpsItems_eq_some_iff.mp htexts) ht
      exact ih w hw hdumps
  | obj _ _ _ ih =>
      rw [dumps] at htext
      obtain ⟨texts, htexts, htext⟩ := Option.bind_eq_some_iff.mp htext
      cases htext
      apply hjoin _ _ _ (by decide) (by decide)
      intro t ht c hc
      obtain ⟨e, he, rfl⟩ := List.mem_map.mp ht
      obtain ⟨f, hf, -, hdumps⟩ := exists_of_forall₂ (dumpsFields_eq_some_iff.mp htexts)
        (mem_orderedFields.mp he)
      rw [memberText, List.mem_append, List.mem_append, List.mem_singleton] at hc
      rcases hc with (hc | rfl) | hc
      · exact hstring _ c hc
      · decide
      · exact ih f hf hdumps c hc

/-- Reading in text mode leaves the line as it is. -/
theorem universalNewlines_line (hF : F.Faithful) (h : Verbatim v)
    (htext : dumps F style v = some text) :
    Str.universalNewlines (text ++ [cp 10]) = text ++ [cp 10] := by
  apply Str.universalNewlines_eq_self
  intro c hc
  rcases List.mem_append.mp hc with hc | hc
  · rintro rfl
    have := h.le_of_mem_dumps hF htext _ hc
    revert this
    decide
  · rw [List.mem_singleton.mp hc]
    decide

/-- The order of the keys does not count. -/
theorem equal_sorted (h : Verbatim v) : Json.equal v v.sorted = true := by
  have hreal {bits : BitVec 64} (hfinite : isFinite bits = true) :
      Json.floatValue bits ≠ .nan := by
    have hexponent : bits.toNat / 2 ^ 52 % 2 ^ 11 ≠ 2047 := of_decide_eq_true hfinite
    unfold Json.floatValue
    simp only [if_neg hexponent]
    split
    · nofun
    · nofun
  induction h with
  | null => rfl
  | bool b => simp [Json.equal, Json.number?, Json.numbersEqual]
  | int n => simp [Json.equal, Json.number?, Json.numbersEqual]
  | float hfinite => simp [Json.equal, Json.number?, Json.numbersEqual, hreal hfinite]
  | str => simp [Json.equal, Json.str?]
  | @arr items _ ih =>
      have hsome (some_ : List Json) (hsome : ∀ v ∈ some_, v ∈ items) :
          Json.equalItems some_ (some_.map Json.sorted) = true := by
        induction some_ with
        | nil => rfl
        | cons v rest ihrest =>
            rw [List.map_cons, Json.equalItems, ih v (hsome v List.mem_cons_self), Bool.true_and]
            exact ihrest fun w hw => hsome w (List.mem_cons_of_mem v hw)
      rw [Json.sorted_arr, Json.equal]
      exact hsome items fun v hv => hv
  | @obj fields hnodup _ _ ih =>
      have hlength : (fields.length == (Json.sortedEntries fields).length) = true := by
        rw [beq_iff_eq, (Json.sortedEntries_perm fields).length_eq, List.length_map]
      have hget : ∀ e ∈ fields,
          Entries.get? (Json.sortedEntries fields) e.1 = some e.2.sorted := by
        intro e he
        rw [Json.get?_sortedEntries hnodup, (Entries.get?_eq_some_iff hnodup).mpr he]
        rfl
      have hsome (some_ : List (Str × Json)) (hsome : ∀ e ∈ some_, e ∈ fields) :
          Json.equalFields some_ (Json.sortedEntries fields) = true := by
        induction some_ with
        | nil => rfl
        | cons e rest ihrest =>
            have he := hsome e List.mem_cons_self
            rw [Json.equalFields, hget e he]
            simp only [ih e he, Bool.true_and]
            exact ihrest fun f hf => hsome f (List.mem_cons_of_mem e hf)
      rw [Json.sorted_obj, Json.equal]
      exact Bool.and_eq_true_iff.mpr ⟨hlength, hsome fields fun e he => he⟩

/-- A text with sorted keys is read as the sorted value. -/
theorem loads_dumps_sorted (hF : F.Faithful) (hstyle : style.sortKeys = true) (h : Verbatim v)
    (htext : dumps F style v = some text) {depth : Nat} (hdepth : v.depth ≤ depth) :
    loads F depth text = .ok v.sorted :=
  loads_of_readsBack (h.sorted.opening hF) (h.sorted.readsBack hF (by rfl))
    (dumps_sorted hstyle htext) (Json.depth_sorted_le hdepth)

/-- Values with one text with sorted keys differ only in the order of their keys. -/
theorem sorted_eq_of_dumps (hF : F.Faithful) (hstyle : style.sortKeys = true) {w : Json}
    (hv : Verbatim v) (hw : Verbatim w) (hvtext : dumps F style v = some text)
    (hwtext : dumps F style w = some text) : v.sorted = w.sorted := by
  have hleft := hv.loads_dumps_sorted hF hstyle hvtext (le_max_left v.depth w.depth)
  have hright := hw.loads_dumps_sorted hF hstyle hwtext (le_max_right v.depth w.depth)
  rw [hleft] at hright
  exact Except.ok.inj hright

end Verbatim

/-- The order of the keys does not matter for what can be encoded. -/
theorem Encoded.of_sortKeys {a b n : Bool} (h : Encoded F ⟨false, a, n⟩ v) :
    Encoded F ⟨false, b, n⟩ v := by
  induction v using Json.induct with
  | null => simpa only [Encoded, dumps] using h
  | bool c => cases c <;> simpa only [Encoded, dumps] using h
  | int m => simpa only [Encoded, dumps] using h
  | float bits => simpa only [Encoded, dumps] using h
  | str s => simpa only [Encoded, dumps] using h
  | arr items ih =>
      have hitems := encoded_arr_iff.mp h
      exact encoded_arr_iff.mpr fun v hv => ih v hv (hitems v hv)
  | obj fields ih =>
      have hfields := (encoded_obj_iff rfl).mp h
      exact (encoded_obj_iff rfl).mpr fun e he => ⟨(hfields e he).1, ih e he (hfields e he).2⟩

end MediaBridge.Foundation.JsonText
