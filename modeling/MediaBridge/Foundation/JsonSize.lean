import MediaBridge.Foundation.JsonWritable
import Mathlib.Algebra.GroupWithZero.Nat

/-!
# How long a JSON text is

`weight` bounds the bytes of the text of a value, without a look at its letters.
-/

namespace MediaBridge.Foundation

namespace Utf8

/-- The bytes of a text. -/
def size (s : Str) : Nat := (s.flatMap encodePoint).length

theorem size_of_encode {s : Str} {data : Bytes} (h : encode s = some data) :
    data.length = size s := by
  unfold encode at h
  split at h
  · cases h
    rfl
  · cases h

@[simp] theorem size_nil : size [] = 0 := rfl

theorem size_append (s t : Str) : size (s ++ t) = size s + size t := by
  rw [size, List.flatMap_append, List.length_append]
  rfl

theorem size_cons (c : CodePoint) (s : Str) : size (c :: s) = size [c] + size s :=
  size_append [c] s

theorem size_singleton_le (c : CodePoint) : size [c] ≤ 4 := by
  rw [size, List.flatMap_singleton, encodePoint]
  split_ifs <;> simp

theorem size_le (s : Str) : size s ≤ 4 * s.length := by
  induction s with
  | nil => exact le_rfl
  | cons c rest ih =>
      have hc := size_singleton_le c
      rw [size_cons, List.length_cons]
      omega

theorem size_singleton_of_ascii {c : CodePoint} (h : c.isAscii = true) : size [c] = 1 := by
  have hlow : c.val < 0x80 := of_decide_eq_true h
  rw [size, List.flatMap_singleton, encodePoint, if_pos hlow]
  rfl

theorem size_of_ascii {s : Str} (h : ∀ c ∈ s, c.isAscii = true) : size s = s.length := by
  induction s with
  | nil => rfl
  | cons c rest ih =>
      obtain ⟨hc, hrest⟩ := List.forall_mem_cons.mp h
      rw [size_cons, size_singleton_of_ascii hc, ih hrest, List.length_cons, Nat.add_comm]

/-- A text that is put together of pieces of a bounded size. -/
theorem size_flatMap_le {α : Type} {items : List α} {text : α → Str} {n : Nat}
    (h : ∀ item, size (text item) ≤ n) : size (items.flatMap text) ≤ n * items.length := by
  induction items with
  | nil => exact Nat.zero_le _
  | cons item rest ih =>
      rw [List.flatMap_cons, size_append, List.length_cons, Nat.mul_succ, Nat.add_comm]
      exact Nat.add_le_add ih (h item)

/-- Joined pieces, each with its separator. -/
theorem size_join_le (sep : CodePoint) (hsep : sep.isAscii = true) (texts : List Str) :
    size (Str.join [sep] texts) ≤ (texts.map fun text => size text + 1).sum := by
  induction texts with
  | nil => exact Nat.zero_le _
  | cons text rest ih =>
      cases rest with
      | nil => exact Nat.le_add_right _ _
      | cons next rest =>
          rw [Str.join_cons_cons, size_append, size_append, size_singleton_of_ascii hsep,
            List.map_cons, List.sum_cons]
          exact Nat.add_le_add_left ih _

end Utf8

namespace JsonText

open Utf8

theorem size_unicodeEscape (v : Nat) : size (unicodeEscape v) = 6 := by
  have hdigits : ∀ d < 16, (hexLetter d).isAscii = true := by decide
  have hletter (n : Nat) := hdigits (n % 16) (Nat.mod_lt _ (by decide))
  apply size_of_ascii
  intro c hc
  simp only [unicodeEscape, List.mem_cons, List.not_mem_nil, or_false] at hc
  rcases hc with rfl | rfl | rfl | rfl | rfl | rfl
  · decide
  · decide
  · exact hletter _
  · exact hletter _
  · exact hletter _
  · exact hletter v

/-- One letter of a literal. -/
theorem size_escapePoint_le (c : CodePoint) : size (escapePoint false c) ≤ 6 := by
  unfold escapePoint
  split
  · next letter _ =>
      have hbackslash : size [backslash] = 1 := by decide
      rw [size_cons, hbackslash]
      have hletter := size_singleton_le letter
      omega
  · rw [Bool.false_and]
    split
    · rw [size_unicodeEscape]
    · exact (size_singleton_le c).trans (by decide)

theorem size_intText_le {n : Int} {k : Nat} (hk : 0 < k) (h : n.natAbs < 10 ^ k) :
    size (intText n) ≤ 4 * (k + 1) := by
  refine (size_le _).trans (Nat.mul_le_mul_left 4 ?_)
  cases n with
  | ofNat n => exact (length_decimalDigits_le hk h).trans (Nat.le_succ k)
  | negSucc n => exact Nat.succ_le_succ (length_decimalDigits_le hk h)

/-- A literal, in terms of the letters of its text. -/
theorem size_stringText_le (s : Str) : size (stringText false s) ≤ 6 * s.length + 2 := by
  rw [stringText, List.cons_append, size_cons, size_append]
  have hquote : size [quote] = 1 := by decide
  rw [hquote, Nat.add_comm 1, Nat.add_assoc]
  exact Nat.add_le_add_right (size_flatMap_le size_escapePoint_le) 2

mutual

/-- A bound on the bytes of a text. -/
def weight (F : FloatText) : Json → Nat
  | .null => 4
  | .bool _ => 5
  | .int n => size (intText n)
  | .float bits => size (F.repr bits) + 9
  | .str s => 6 * s.length + 2
  | .arr items => weightItems F items + 2
  | .obj fields => weightFields F fields + 2

/-- The items of a list, each with a comma. -/
def weightItems (F : FloatText) : List Json → Nat
  | [] => 0
  | v :: rest => weight F v + 1 + weightItems F rest

/-- The members of a dictionary, each with a colon and a comma. -/
def weightFields (F : FloatText) : List (Str × Json) → Nat
  | [] => 0
  | (k, v) :: rest => 6 * k.length + weight F v + 4 + weightFields F rest

end

section Bounds

variable {F : FloatText} {style : Style}

theorem size_nonFiniteText_le (bits : BitVec 64) : size (nonFiniteText bits) ≤ 9 := by
  unfold nonFiniteText
  split_ifs <;> decide

/-- The texts of the items of a list. -/
theorem size_items_le {items : List Json} {texts : List Str}
    (hitems : ∀ v ∈ items, ∀ text, dumps F style v = some text → size text ≤ weight F v)
    (h : dumpsItems F style items = some texts) :
    (texts.map fun text => size text + 1).sum ≤ weightItems F items := by
  induction items generalizing texts with
  | nil =>
      cases h
      exact le_rfl
  | cons v rest ih =>
      obtain ⟨hv, hrest⟩ := List.forall_mem_cons.mp hitems
      rw [dumpsItems] at h
      obtain ⟨text, htext, h⟩ := Option.bind_eq_some_iff.mp h
      obtain ⟨others, hothers, h⟩ := Option.bind_eq_some_iff.mp h
      cases h
      rw [List.map_cons, List.sum_cons, weightItems]
      exact Nat.add_le_add (Nat.add_le_add_right (hv text htext) 1) (ih hrest hothers)

theorem size_memberText_le (key text : Str) :
    size (memberText false (key, text)) + 1 ≤ 6 * key.length + size text + 4 := by
  have hcolon : size [colon] = 1 := by decide
  have hkey := size_stringText_le key
  rw [memberText, size_append, size_append, hcolon]
  simp only
  omega

/-- The members of a dictionary. -/
theorem size_fields_le {fields : List (Str × Json)} {texts : List (Str × Str)}
    (hfields : ∀ e ∈ fields, ∀ text, dumps F style e.2 = some text → size text ≤ weight F e.2)
    (h : dumpsFields F style fields = some texts) :
    ((texts.map (memberText false)).map fun text => size text + 1).sum ≤
      weightFields F fields := by
  induction fields generalizing texts with
  | nil =>
      cases h
      exact le_rfl
  | cons e rest ih =>
      obtain ⟨key, v⟩ := e
      obtain ⟨hv, hrest⟩ := List.forall_mem_cons.mp hfields
      rw [dumpsFields] at h
      obtain ⟨text, htext, h⟩ := Option.bind_eq_some_iff.mp h
      obtain ⟨others, hothers, h⟩ := Option.bind_eq_some_iff.mp h
      cases h
      rw [List.map_cons, List.map_cons, List.sum_cons, weightFields]
      refine Nat.add_le_add ((size_memberText_le key text).trans ?_) (ih hrest hothers)
      exact Nat.add_le_add_right (Nat.add_le_add_left (hv text htext) _) 4

/-- A text with its brackets. -/
theorem size_enclosed_le {opening closing : CodePoint} (hopening : opening.isAscii = true)
    (hclosing : closing.isAscii = true) {texts : List Str} {n : Nat}
    (h : (texts.map fun text => size text + 1).sum ≤ n) :
    size (opening :: Str.join [comma] texts ++ [closing]) ≤ n + 2 := by
  have hjoin := (size_join_le comma (by decide) texts).trans h
  rw [List.cons_append, size_cons, size_append, size_singleton_of_ascii hopening,
    size_singleton_of_ascii hclosing]
  omega

/-- The text of a value is no longer than its weight. -/
theorem size_dumps_le (hascii : style.ensureAscii = false) (hstyle : style.sortKeys = false)
    (v : Json) : ∀ text, dumps F style v = some text → size text ≤ weight F v := by
  induction v using Json.induct with
  | null =>
      intro text h
      cases h
      exact (by decide : size (lit "null") ≤ 4)
  | bool b =>
      intro text h
      cases b
      · cases h
        exact (by decide : size (lit "false") ≤ 5)
      · cases h
        exact (by decide : size (lit "true") ≤ 5)
  | int n =>
      intro text h
      rw [dumps] at h
      split at h
      · cases h
      · cases h
        exact le_rfl
  | float bits =>
      intro text h
      rw [dumps] at h
      split at h
      · cases h
        exact Nat.le_add_right _ _
      · split at h
        · cases h
          exact (size_nonFiniteText_le bits).trans (Nat.le_add_left _ _)
        · cases h
  | str s =>
      intro text h
      cases h
      rw [hascii]
      exact size_stringText_le s
  | arr items ih =>
      intro text h
      rw [dumps] at h
      obtain ⟨texts, htexts, h⟩ := Option.bind_eq_some_iff.mp h
      cases h
      exact size_enclosed_le (by decide) (by decide) (size_items_le ih htexts)
  | obj fields ih =>
      intro text h
      rw [dumps] at h
      obtain ⟨texts, htexts, h⟩ := Option.bind_eq_some_iff.mp h
      cases h
      simp only [orderedFields, hstyle, hascii, Bool.false_eq_true, if_false]
      exact size_enclosed_le (by decide) (by decide) (size_fields_le ih htexts)

end Bounds

end JsonText

end MediaBridge.Foundation
