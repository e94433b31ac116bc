import MediaBridge.Foundation.JsonRoundTrip

/-!
# ASCII JSON text

With `ensure_ascii`, a string literal consists of printable ASCII characters, so that
it can stand in one line of any protocol.
-/

namespace MediaBridge.Foundation.JsonText

/-- Space and the visible ASCII characters. -/
def Printable (s : Str) : Prop := ∀ c ∈ s, 32 ≤ c.val ∧ c.val < 127

theorem Printable.append {s t : Str} (hs : Printable s) (ht : Printable t) :
    Printable (s ++ t) :=
  List.forall_mem_append.mpr ⟨hs, ht⟩

theorem Printable.cons {c : CodePoint} {s : Str} (hc : 32 ≤ c.val ∧ c.val < 127)
    (hs : Printable s) : Printable (c :: s) :=
  List.forall_mem_cons.mpr ⟨hc, hs⟩

theorem printable_nil : Printable [] := nofun

theorem hexLetter_printable (n : Nat) :
    32 ≤ (hexLetter (n % 16)).val ∧ (hexLetter (n % 16)).val < 127 := by
  have hdigits : ∀ d < 16, 32 ≤ (hexLetter d).val ∧ (hexLetter d).val < 127 := by decide
  exact hdigits _ (Nat.mod_lt _ (by decide))

theorem unicodeEscape_printable (v : Nat) : Printable (unicodeEscape v) := by
  refine .cons (by decide) (.cons (by decide) ?_)
  exact .cons (hexLetter_printable _) (.cons (hexLetter_printable _)
    (.cons (hexLetter_printable _) (.cons (hexLetter_printable _) printable_nil)))

theorem shortEscape_printable {c letter : CodePoint} (h : shortEscape c = some letter) :
    32 ≤ letter.val ∧ letter.val < 127 := by
  unfold shortEscape at h
  split at h
  · cases h
    decide
  split at h
  · cases h
    decide
  split at h
  · cases h
    decide
  split at h
  · cases h
    decide
  split at h
  · cases h
    decide
  split at h
  · cases h
    decide
  split at h
  · cases h
    decide
  · cases h

theorem escapePoint_printable (c : CodePoint) : Printable (escapePoint true c) := by
  unfold escapePoint
  cases hshort : shortEscape c with
  | some letter =>
      exact .cons (by decide) (.cons (shortEscape_printable hshort) printable_nil)
  | none =>
      simp only [Bool.true_and, decide_eq_true_eq]
      split
      · exact unicodeEscape_printable _
      · split
        · split
          · exact unicodeEscape_printable _
          · exact (unicodeEscape_printable _).append (unicodeEscape_printable _)
        · exact .cons ⟨by omega, by omega⟩ printable_nil

/-- A string literal with ASCII escapes is printable. -/
theorem stringText_printable (s : Str) : Printable (stringText true s) := by
  refine .cons (by decide) (.append ?_ (.cons (by decide) printable_nil))
  intro c hc
  obtain ⟨d, -, hd⟩ := List.mem_flatMap.mp hc
  exact escapePoint_printable d c hd

theorem Printable.ascii {s : Str} (h : Printable s) : ∀ c ∈ s, c.isAscii = true := by
  intro c hc
  have := h c hc
  simp only [CodePoint.isAscii, decide_eq_true_eq]
  omega

end MediaBridge.Foundation.JsonText
