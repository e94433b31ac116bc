import MediaBridge.Foundation.JsonReread

/-!
# Copies through JSON

`json.loads(json.dumps(value, allow_nan=False))`: which values come back as themselves. A string in
which a high surrogate stands directly before a low one comes back with one character for the two.
-/

namespace MediaBridge.Foundation

namespace JsonText

section Depth

variable {F : FloatText}

/-- More room for nested containers changes no success. -/
structure Roomy (F : FloatText) (fuel : Nat) : Prop where
  value : ∀ {depth more : Nat} {text : Str} {r : Json × Str}, depth ≤ more →
    scanValue F fuel depth text = .ok r → scanValue F fuel more text = .ok r
  items : ∀ {depth more : Nat} {text : Str} {r : List Json × Str}, depth ≤ more →
    scanItems F fuel depth text = .ok r → scanItems F fuel more text = .ok r
  members : ∀ {depth more : Nat} {sofar : Entries Str Json} {text : Str}
    {r : Entries Str Json × Str}, depth ≤ more →
    scanMembers F fuel depth sofar text = .ok r → scanMembers F fuel more sofar text = .ok r

theorem roomy_value_succ {fuel : Nat} (h : Roomy F fuel) {depth more : Nat} {text : Str}
    {r : Json × Str} (hle : depth ≤ more) (hscan : scanValue F (fuel + 1) depth text = .ok r) :
    scanValue F (fuel + 1) more text = .ok r := by
  cases text with
  | nil =>
      rw [scanValue.eq_def] at hscan
      cases hscan
  | cons c rest =>
      rw [scanValue.eq_def] at hscan ⊢
      simp only at hscan ⊢
      split
      · rename_i hquote
        rw [if_pos hquote] at hscan
        exact hscan
      rename_i hquote
      rw [if_neg hquote] at hscan
      split
      · rename_i hbrace
        rw [if_pos hbrace] at hscan
        cases depth with
        | zero => cases hscan
        | succ depth =>
            obtain ⟨more, rfl⟩ := Nat.exists_eq_add_of_le' (Nat.one_le_of_lt hle)
            simp only at hscan ⊢
            split at hscan
            · cases hscan
            · split at hscan
              · rename_i hclose
                rw [if_pos hclose]
                exact hscan
              · rename_i hclose
                obtain ⟨fields, hfields, rfl⟩ := map_eq_ok_iff.mp hscan
                rw [if_neg hclose, h.members (Nat.le_of_succ_le_succ hle) hfields]
                rfl
      rename_i hbrace
      rw [if_neg hbrace] at hscan
      split
      · rename_i hbracket
        rw [if_pos hbracket] at hscan
        cases depth with
        | zero => cases hscan
        | succ depth =>
            obtain ⟨more, rfl⟩ := Nat.exists_eq_add_of_le' (Nat.one_le_of_lt hle)
            simp only at hscan ⊢
            split at hscan
            · cases hscan
            · split at hscan
              · rename_i hclose
                rw [if_pos hclose]
                exact hscan
              · rename_i hclose
                obtain ⟨items, hitems, rfl⟩ := map_eq_ok_iff.mp hscan
                rw [if_neg hclose, h.items (Nat.le_of_succ_le_succ hle) hitems]
                rfl
      · rename_i hbracket
        rw [if_neg hbracket] at hscan
        exact hscan

theorem roomy_items_succ {fuel : Nat} (h : Roomy F fuel) {depth more : Nat} {text : Str}
    {r : List Json × Str} (hle : depth ≤ more)
    (hscan : scanItems F (fuel + 1) depth text = .ok r) :
    scanItems F (fuel + 1) more text = .ok r := by
  rw [scanItems] at hscan ⊢
  obtain ⟨⟨v, after⟩, hv, hscan⟩ := bind_ok_iff.mp hscan
  refine bind_ok_iff.mpr ⟨(v, after), h.value hle hv, ?_⟩
  simp only at hscan ⊢
  split at hscan
  · cases hscan
  · split at hscan
    · rename_i hclose
      rw [if_pos hclose]
      exact hscan
    · rename_i hclose
      rw [if_neg hclose]
      split at hscan
      · rename_i hcomma
        rw [if_pos hcomma]
        obtain ⟨others, hothers, hscan⟩ := bind_ok_iff.mp hscan
        exact bind_ok_iff.mpr ⟨others, h.items hle hothers, hscan⟩
      · cases hscan

theorem roomy_members_succ {fuel : Nat} (h : Roomy F fuel) {depth more : Nat}
    {sofar : Entries Str Json} {text : Str} {r : Entries Str Json × Str} (hle : depth ≤ more)
    (hscan : scanMembers F (fuel + 1) depth sofar text = .ok r) :
    scanMembers F (fuel + 1) more sofar text = .ok r := by
  cases text with
  | nil =>
      rw [scanMembers] at hscan
      cases hscan
  | cons c rest =>
      rw [scanMembers] at hscan ⊢
      split at hscan
      · rename_i hquote
        rw [if_pos hquote]
        obtain ⟨key, hkey, hscan⟩ := bind_ok_iff.mp hscan
        refine bind_ok_iff.mpr ⟨key, hkey, ?_⟩
        simp only at hscan ⊢
        split at hscan
        · cases hscan
        · split at hscan
          · rename_i hcolon
            rw [if_pos hcolon]
            obtain ⟨v, hv, hscan⟩ := bind_ok_iff.mp hscan
            refine bind_ok_iff.mpr ⟨v, h.value hle hv, ?_⟩
            split at hscan
            · cases hscan
            · split at hscan
              · rename_i hclose
                rw [if_pos hclose]
                exact hscan
              · rename_i hclose
                rw [if_neg hclose]
                split at hscan
                · rename_i hcomma
                  rw [if_pos hcomma]
                  exact h.members hle hscan
                · cases hscan
          · cases hscan
      · cases hscan

theorem roomy (F : FloatText) (fuel : Nat) : Roomy F fuel := by
  induction fuel with
  | zero =>
      constructor
      · intro depth more text r hle hscan
        rw [scanValue.eq_def] at hscan
        cases hscan
      · intro depth more text r hle hscan
        rw [scanItems] at hscan
        cases hscan
      · intro depth more sofar text r hle hscan
        rw [scanMembers] at hscan
        cases hscan
  | succ fuel ih => exact ⟨roomy_value_succ ih, roomy_items_succ ih, roomy_members_succ ih⟩

/-- A text that can be read is read alike with more room. -/
theorem loads_of_le {depth more : Nat} {text : Str} {v : Json} (hle : depth ≤ more)
    (h : loads F depth text = .ok v) : loads F more text = .ok v := by
  rw [loads] at h ⊢
  split at h
  · cases h
  · rename_i hmark
    rw [if_neg hmark]
    obtain ⟨r, hr, h⟩ := bind_ok_iff.mp h
    exact bind_ok_iff.mpr ⟨r, (roomy F _).value hle hr, h⟩

end Depth

/-- No string of the value holds the two halves of a character. -/
inductive Joined : Json → Prop
  | null : Joined .null
  | bool (b : Bool) : Joined (.bool b)
  | int (n : Int) : Joined (.int n)
  | float (bits : BitVec 64) : Joined (.float bits)
  | str {s : Str} : rejoin s = s → Joined (.str s)
  | arr {items : List Json} : (∀ v ∈ items, Joined v) → Joined (.arr items)
  | obj {fields : List (Str × Json)} : (∀ e ∈ fields, rejoin e.1 = e.1) →
      (∀ e ∈ fields, Joined e.2) → Joined (.obj fields)

section Copies

variable {F : FloatText} {style : Style} {v w : Json} {text : Str} {depth : Nat}

/-- What has a strict text can be read back, if its strings are joined. -/
theorem readable_of_joined (hnan : style.allowNan = false) (hwell : v.WellFormed)
    (hjoined : Joined v) (h : dumps F style v = some text) : Readable v := by
  induction v using Json.induct generalizing text with
  | null => exact .null
  | bool b => exact .bool b
  | int n =>
      rw [dumps] at h
      split at h
      · cases h
      · rename_i hlong
        exact .int (Bool.eq_false_iff.mpr hlong)
  | float bits =>
      rw [dumps, hnan] at h
      split at h
      · rename_i hfinite
        exact .float (.inl hfinite)
      · cases h
  | str s =>
      cases hjoined with
      | str hs => exact .str hs
  | arr items ih =>
      cases hjoined with
      | arr hitems =>
          rw [dumps] at h
          obtain ⟨texts, htexts, -⟩ := Option.bind_eq_some_iff.mp h
          rw [Json.WellFormed] at hwell
          refine .arr fun v hv => ?_
          obtain ⟨t, -, ht⟩ := exists_of_forall₂_left (dumpsItems_eq_some_iff.mp htexts) hv
          exact ih v hv (Json.wellFormedItems_of_mem hwell v hv) (hitems v hv) ht
  | obj fields ih =>
      cases hjoined with
      | obj hkeys hvalues =>
          rw [dumps] at h
          obtain ⟨texts, htexts, -⟩ := Option.bind_eq_some_iff.mp h
          rw [Json.WellFormed] at hwell
          refine .obj hwell.1 hkeys fun e he => ?_
          obtain ⟨t, -, -, ht⟩ := exists_of_forall₂_left (dumpsFields_eq_some_iff.mp htexts) he
          exact ih e he (Json.wellFormedFields_of_mem hwell.2 e he) (hvalues e he) ht

/-- A strict text is also the one that may name floats outside JSON. -/
theorem dumps_of_strict (h : dumps F { style with allowNan := false } v = some text) :
    dumps F { style with allowNan := true } v = some text := by
  induction v using Json.induct generalizing text with
  | null => exact h
  | bool b => cases b <;> exact h
  | int n => exact h
  | float bits =>
      rw [dumps] at h ⊢
      split at h
      · rename_i hfinite
        rw [if_pos hfinite]
        exact h
      · cases h
  | str s => exact h
  | arr items ih =>
      rw [dumps] at h ⊢
      obtain ⟨texts, htexts, hjoin⟩ := Option.bind_eq_some_iff.mp h
      refine Option.bind_eq_some_iff.mpr ⟨texts, ?_, hjoin⟩
      rw [dumpsItems_eq_some_iff]
      have hboth := (List.forall₂_and_left _ _).mpr ⟨ih, dumpsItems_eq_some_iff.mp htexts⟩
      exact hboth.imp fun v text hv => hv.1 hv.2
  | obj fields ih =>
      rw [dumps] at h ⊢
      obtain ⟨texts, htexts, hjoin⟩ := Option.bind_eq_some_iff.mp h
      refine Option.bind_eq_some_iff.mpr ⟨texts, ?_, hjoin⟩
      rw [dumpsFields_eq_some_iff]
      have hboth := (List.forall₂_and_left _ _).mpr ⟨ih, dumpsFields_eq_some_iff.mp htexts⟩
      exact hboth.imp fun e text he => ⟨he.2.1, he.1 he.2.2⟩

/-- The copy of a value through its text is the value, if its strings are joined. -/
theorem eq_of_copy (hF : F.Faithful) (hwell : v.WellFormed) (hjoined : Joined v)
    (hdumps : dumps F ⟨true, false, false⟩ v = some text) (hloads : loads F depth text = .ok w) :
    w = v := by
  have hread := readable_of_joined rfl hwell hjoined hdumps
  have hstrict : dumps F { (⟨true, false, false⟩ : Style) with allowNan := false } v = some text :=
    hdumps
  have hunsorted : Style.Unsorted ⟨true, false, true⟩ := rfl
  have hback : loads F (max depth v.depth) text = .ok v :=
    hread.loads_dumps hF hunsorted rfl rfl (dumps_of_strict hstrict) (le_max_right depth v.depth)
  rw [loads_of_le (le_max_left depth v.depth) hloads] at hback
  exact Except.ok.inj hback

end Copies

end JsonText

end MediaBridge.Foundation
