import MediaBridge.Core.GateBoundary
import MediaBridge.Foundation.Occurrences

/-!
# What an accepted text satisfies after normalization

`sanitize_model_text` normalizes a text before it removes the control
characters from it, and never again. If the removal joins what normalization
would change, the accepted text is not in normal form: a locator can then stand in
its normal form, and sanitizing it once more changes it.

## Implementation notes

Texts in normal form are closed under pieces, and under joining two of them by
one of the two replacement texts; all replacements keep the normal form by that
alone.
-/

namespace MediaBridge.Core.Sanitizer

open Foundation

variable {U : UnicodeData} {order order' : SetOrder} {text sanitized s : Str}
  {locators : List Str} {maxLength : Nat}

/-- What the standard says about NFKC: it is idempotent, pieces of normal texts are
normal, and a bracket composes with nothing on its outer side. -/
structure StandardNfkc (U : UnicodeData) : Prop where
  idempotent : ∀ s, U.nfkc (U.nfkc s) = U.nfkc s
  piece : ∀ s t, t <:+: s → U.nfkc s = s → U.nfkc t = t
  bracketed : ∀ m s t, (∀ c ∈ m, c.isAscii = true) → U.nfkc s = s → U.nfkc t = t →
    U.nfkc (s ++ (lit "[" ++ m ++ lit "]") ++ t) = s ++ (lit "[" ++ m ++ lit "]") ++ t

/-- The text from which locators are removed. -/
def cleaned (U : UnicodeData) (text : Str) : Str :=
  (U.nfkc text).filter fun c => !isControl c

/-- Removing the control characters leaves the text in normal form. -/
def StaysNormal (U : UnicodeData) (text : Str) : Prop := U.nfkc (cleaned U text) = cleaned U text

section Normal

/-- Normal texts can be cut into pieces and joined by a replacement text. -/
theorem spliceable_normal (hU : StandardNfkc U) {m : Str}
    (hm : m ∈ [removedReference, removedBinary]) : Str.Spliceable m fun s => U.nfkc s = s := by
  have hascii : (lit "removed-media-reference").all CodePoint.isAscii = true ∧
      (lit "removed-binary-data").all CodePoint.isAscii = true := by decide +kernel
  refine ⟨hU.piece, ?_⟩
  intro s t hs ht
  rcases List.mem_pair.mp hm with rfl | rfl
  · exact hU.bracketed _ s t (List.all_eq_true.mp hascii.1) hs ht
  · exact hU.bracketed _ s t (List.all_eq_true.mp hascii.2) hs ht

/-- All replacements keep the normal form. -/
theorem nfkc_scrub (hU : StandardNfkc U) (h : StaysNormal U text) :
    U.nfkc (scrub U locators text) = scrub U locators text := by
  have hreference := spliceable_normal hU (m := removedReference) (by simp)
  have hbinary := spliceable_normal hU (m := removedBinary) (by simp)
  have hreplaced := Str.foldl_replaceAll_keeps hreference (longestFirst locators) h
  have hdata := @Str.substitute_keeps dataUrl _ _ _ hbinary hreplaced
  have hblob := @Str.substitute_keeps base64Blob _ _ _ hbinary hdata
  exact hU.piece _ _ (Str.strip_isInfix _) hblob

/-- No control character is left or put in. -/
theorem not_control_of_mem_scrub : ∀ c ∈ scrub U locators text, isControl c = false := by
  have hspliced {m : Str} (hm : m.all (fun c => !isControl c) = true) :
      Str.Spliceable m fun s => ∀ c ∈ s, isControl c = false := by
    refine ⟨fun s t hts hs c hc => hs c (hts.subset hc), ?_⟩
    intro s t hs ht c hc
    simp only [List.mem_append] at hc
    rcases hc with (hc | hc) | hc
    · exact hs c hc
    · simpa using List.all_eq_true.mp hm c hc
    · exact ht c hc
  have hreference : removedReference.all (fun c => !isControl c) = true := by decide +kernel
  have hbinary : removedBinary.all (fun c => !isControl c) = true := by decide +kernel
  have hcleaned : ∀ c ∈ cleaned U text, isControl c = false := by
    intro c hc
    simpa using (List.mem_filter.mp hc).2
  have hreplaced :=
    Str.foldl_replaceAll_keeps (hspliced hreference) (longestFirst locators) hcleaned
  have hdata := @Str.substitute_keeps dataUrl _ _ _ (hspliced hbinary) hreplaced
  have hblob := @Str.substitute_keeps base64Blob _ _ _ (hspliced hbinary) hdata
  intro c hc
  exact hblob c ((Str.strip_isInfix _).subset hc)

/-- Every visible character is one of the text. -/
theorem mem_of_mem_semanticText {c : CodePoint} (h : c ∈ semanticText s) : c ∈ s := by
  have hspliced : Str.Spliceable [] fun t => ∀ c ∈ t, c ∈ s := by
    refine ⟨fun t u hut ht c hc => ht c (hut.subset hc), ?_⟩
    intro t u ht hu c hc
    rw [List.append_nil, List.mem_append] at hc
    exact hc.elim (ht c) (hu c)
  have hfirst := Str.replaceAll_keeps hspliced removedReference fun c hc => hc
  exact Str.replaceAll_keeps hspliced removedBinary hfirst c h

end Normal

section Blobs

/-- A text in which no blob is found has no long run of its characters. -/
theorem run_lt_of_searchFrom (before : Option CodePoint)
    (hbefore : before.any blobChar = true → (s.takeWhile blobChar).length < 128)
    (h : Str.searchFrom base64Blob before s = false) {run : Str} (hrun : run <:+: s)
    (hchars : ∀ c ∈ run, blobChar c = true) : run.length < 128 := by
  induction s generalizing before with
  | nil =>
      rw [List.infix_nil.mp hrun]
      exact Nat.zero_lt_succ _
  | cons c rest ih =>
      rw [Str.searchFrom, Bool.or_eq_false_iff] at h
      have hlead : ((c :: rest).takeWhile blobChar).length < 128 := by
        by_cases hb : before.any blobChar = true
        · exact hbefore hb
        · by_contra hlong
          have hfound : (base64Blob before (c :: rest)).isSome = true := by
            simp only [base64Blob, hb, hlong, Bool.false_eq_true, decide_false, Bool.or_self,
              if_false]
            split <;> rfl
          rw [h.1] at hfound
          cases hfound
      rcases List.infix_cons_iff.mp hrun with hpre | hin
      · obtain ⟨after, hafter⟩ := hpre
        have htake : (c :: rest).takeWhile blobChar = run ++ after.takeWhile blobChar := by
          rw [← hafter, List.takeWhile_append_of_pos hchars]
        rw [htake, List.length_append] at hlead
        omega
      · apply ih (some c) _ h.2 hin
        intro hc
        rw [Option.any_some] at hc
        rw [List.takeWhile_cons_of_pos hc, List.length_cons] at hlead
        omega

end Blobs

section Composition

/-- The letter e and a combining acute accent. -/
def accented : Str := [cp 101, cp 0x301]

theorem not_accented_composeAcute (s : Str) :
    ¬ accented <:+: PreRequestGate.composeAcute s := by
  have hne : accented ≠ [] := by decide
  have hkeep : Str.KeepsOff accented [cp 0xE9] := by
    apply Str.KeepsOff.of_disjoint hne (by decide)
    intro c hc hcomposed
    rw [List.mem_singleton.mp hcomposed] at hc
    exact absurd hc (by decide)
  unfold PreRequestGate.composeAcute
  by_cases hstart : accented <+: s
  · obtain ⟨v, rfl⟩ := hstart
    have hshorter : v.length < (accented ++ v).length := by
      rw [List.length_append]
      exact Nat.lt_add_of_pos_left (by decide)
    have ih := not_accented_composeAcute v
    change ¬ accented <:+: Str.replaceAll (accented ++ v) accented [cp 0xE9]
    rw [Str.replaceAll_append_self hne, List.singleton_append, List.infix_cons_iff, not_or]
    refine ⟨?_, ih⟩
    intro hpre
    exact absurd (List.cons_prefix_cons.mp hpre).1 (by decide)
  · cases s with
    | nil => decide
    | cons c rest =>
        have ih := not_accented_composeAcute rest
        change ¬ accented <:+: Str.replaceAll (c :: rest) accented [cp 0xE9]
        rw [Str.replaceAll_cons_of_not hne hstart, List.infix_cons_iff, not_or]
        refine ⟨?_, ih⟩
        intro hpre
        exact hstart (Str.prefix_of_prefix_replaceAll hne hkeep c hpre)
termination_by s.length

theorem composeAcute_eq_self_iff :
    PreRequestGate.composeAcute s = s ↔ ¬ accented <:+: s := by
  constructor
  · intro h
    rw [← h]
    exact not_accented_composeAcute s
  · intro h
    exact Str.replaceAll_eq_self (by decide) h

/-- An accent and its letter meet only in one of two joined texts if the first does not
end in the letter or the second does not start with the accent. -/
theorem not_accented_append {u v : Str} (hu : ¬ accented <:+: u) (hv : ¬ accented <:+: v)
    (h : u.getLast? ≠ some (cp 101) ∨ v.head? ≠ some (cp 0x301)) : ¬ accented <:+: u ++ v := by
  intro hin
  rcases List.infix_append_iff_ne_nil.mp hin with hin | hin | ⟨l, r, hl, hr, heq, hsuffix, hpre⟩
  · exact hu hin
  · exact hv hin
  · obtain ⟨rfl, rfl⟩ : l = [cp 101] ∧ r = [cp 0x301] := by
      have hlengths : l.length + r.length = 2 := by
        rw [← List.length_append, ← heq]
        rfl
      have hone : l.length = 1 := by
        have := List.length_pos_of_ne_nil hl
        have := List.length_pos_of_ne_nil hr
        omega
      have happend : [cp 101] ++ [cp 0x301] = l ++ r := heq
      have hparts := List.append_inj happend hone.symm
      exact ⟨hparts.1.symm, hparts.2.symm⟩
    obtain ⟨before, rfl⟩ := hsuffix
    obtain ⟨after, rfl⟩ := hpre
    rcases h with h | h
    · exact h (by simp)
    · exact h rfl

/-- Composing one letter with its accent is a normalization as the standard wants it. -/
theorem standard_composeAcute : StandardNfkc (.ascii PreRequestGate.composeAcute) where
  idempotent s := composeAcute_eq_self_iff.mpr (not_accented_composeAcute s)
  piece s t hts hs := by
    apply composeAcute_eq_self_iff.mpr
    intro hin
    exact composeAcute_eq_self_iff.mp hs (hin.trans hts)
  bracketed m s t hm hs ht := by
    have hbracketed : ¬ accented <:+: lit "[" ++ m ++ lit "]" := by
      intro hin
      have hmem : cp 0x301 ∈ lit "[" ++ m ++ lit "]" := hin.subset (by decide)
      rw [List.mem_append, List.mem_append] at hmem
      rcases hmem with (hmem | hmem) | hmem
      · exact absurd hmem (by decide)
      · exact absurd (hm _ hmem) (by decide)
      · exact absurd hmem (by decide)
    have hopen : (lit "[" ++ m ++ lit "]").head? ≠ some (cp 0x301) := by
      change some (cp 91) ≠ _
      decide
    have hclose : (s ++ (lit "[" ++ m ++ lit "]")).getLast? ≠ some (cp 101) := by
      rw [← List.append_assoc, ← List.append_assoc]
      change ((s ++ lit "[" ++ m) ++ [cp 93]).getLast? ≠ _
      rw [List.getLast?_concat]
      decide
    apply composeAcute_eq_self_iff.mpr
    apply not_accented_append _ (composeAcute_eq_self_iff.mp ht) (.inl hclose)
    exact not_accented_append (composeAcute_eq_self_iff.mp hs) hbracketed (.inr hopen)

/-- The set order of the examples. -/
def listOrder : SetOrder := ⟨List.dedup, perm_dedup⟩

/-- A control character stands between the letter and its accent. -/
def separated : Str := [cp 101, cp 0, cp 0x301] ++ lit " ok"

/-- A name with an accent, a locator and a control character. -/
def named : Str := accented ++ lit "t" ++ [cp 7] ++ lit " at a.png"

end Composition

section Postcondition

/-- What is promised of the normal form of an accepted text. -/
structure SafeNormalForm (U : UnicodeData) (locators : List Str) (maxLength : Nat) (text : Str) :
    Prop where
  noLocator : ∀ locator ∈ locators, ¬ U.nfkc locator <:+: U.nfkc text
  noDataUrl : Str.search dataUrl (U.nfkc text) = false
  noBlob : ∀ run, run <:+: U.nfkc text → (∀ c ∈ run, blobChar c = true) → run.length < 128
  alphanumeric : ∃ c ∈ text, U.isAlnum c = true
  length_le : text.length ≤ maxLength

/-- The normal form of an accepted text is safe if the text stays normal without its
control characters and no locator is empty. -/
theorem safeNormalForm_of_ok (hU : StandardNfkc U) (hnormal : StaysNormal U text)
    (hlocators : [] ∉ locators)
    (h : sanitizeModelText U order text locators maxLength = .ok sanitized) :
    SafeNormalForm U locators maxLength sanitized := by
  have hsafe := safe_of_ok h
  have hfixed : U.nfkc sanitized = sanitized := by
    rw [← (sanitizeModelText_eq_ok_iff.mp h).1]
    exact nfkc_scrub hU hnormal
  obtain ⟨c, hc, halnum⟩ := List.any_eq_true.mp hsafe.semantic
  refine ⟨?_, ?_, ?_, ⟨c, mem_of_mem_semanticText hc, halnum⟩, hsafe.length_le⟩
  · intro locator hlocator
    rw [hfixed]
    apply hsafe.noLocator locator hlocator
    rintro rfl
    exact hlocators hlocator
  · rw [hfixed]
    exact hsafe.noDataUrl
  · intro run hrun hchars
    rw [hfixed] at hrun
    exact run_lt_of_searchFrom none (by rintro ⟨⟩) hsafe.noBlob hrun hchars

theorem safeNormalForm_of_ok_sample :
    SafeNormalForm (.ascii PreRequestGate.composeAcute) [lit "a.png"] 100
      ([cp 0xE9] ++ lit "t at [removed-media-reference]") :=
  @safeNormalForm_of_ok _ listOrder named _ _ _ standard_composeAcute
    (by unfold StaysNormal; decide +kernel) (by decide) (by decide +kernel)

/-- The accepted text contains a locator in its normal form. -/
theorem sanitized_contains_locator :
    StandardNfkc (.ascii PreRequestGate.composeAcute) ∧
      sanitizeModelText (.ascii PreRequestGate.composeAcute) listOrder separated
        [[cp 0xE9] ++ lit " ok"] 200000 = .ok (accented ++ lit " ok") ∧
      ¬ SafeNormalForm (.ascii PreRequestGate.composeAcute) [[cp 0xE9] ++ lit " ok"] 200000
        (accented ++ lit " ok") := by
  refine ⟨standard_composeAcute, by decide +kernel, ?_⟩
  intro h
  apply h.noLocator _ (List.mem_singleton.mpr rfl)
  decide +kernel

end Postcondition

section Again

/-- A text without an occurrence of any locator is not rewritten. -/
theorem foldl_replaceAll_eq_self (h : ∀ locator ∈ locators, ¬ locator <:+: s) (m : Str) :
    locators.foldl (fun s locator => Str.replaceAll s locator m) s = s := by
  induction locators with
  | nil => rfl
  | cons locator rest ih =>
      have hne : locator ≠ [] := by
        rintro rfl
        exact h _ List.mem_cons_self List.nil_infix
      rw [List.foldl_cons, Str.replaceAll_eq_self hne (h locator List.mem_cons_self)]
      exact ih fun l hl => h l (List.mem_cons_of_mem locator hl)

/-- A normal, stripped text in which nothing is found is a fixed point. -/
theorem scrub_eq_self (hnormal : U.nfkc s = s) (hcontrol : ∀ c ∈ s, isControl c = false)
    (hlocators : ∀ locator ∈ locators, ¬ locator <:+: s) (hdata : Str.search dataUrl s = false)
    (hblob : Str.search base64Blob s = false) (hstrip : s.strip = s) :
    scrub U locators s = s := by
  have hkept : (s.filter fun c => !isControl c) = s := by
    rw [List.filter_eq_self]
    intro c hc
    rw [hcontrol c hc]
    rfl
  have hsorted : ∀ locator ∈ longestFirst locators, ¬ locator <:+: s := by
    intro locator hlocator
    exact hlocators locator ((List.mem_insertionSort _).mp hlocator)
  unfold scrub
  simp only [hnormal, hkept, foldl_replaceAll_eq_self hsorted]
  rw [Str.substitute_of_not_search _ hdata, Str.substitute_of_not_search _ hblob, hstrip]

/-- An accepted text is accepted again as it is if the first text stays normal without
its control characters. -/
theorem sanitizeModelText_again (hU : StandardNfkc U) (hnormal : StaysNormal U text)
    (h : sanitizeModelText U order text locators maxLength = .ok sanitized) :
    sanitizeModelText U order' sanitized locators maxLength = .ok sanitized := by
  obtain ⟨hscrub, hmax, hlength, hlocators, hreference, hdata, hblob, hsemantic⟩ :=
    sanitizeModelText_eq_ok_iff.mp h
  have hlocators' : ∀ locator ∈ normalizedLocators U order' locators,
      ¬ locator <:+: sanitized := by
    intro locator hlocator
    exact hlocators locator (mem_normalizedLocators.mpr (mem_normalizedLocators.mp hlocator))
  have hfixed : U.nfkc sanitized = sanitized := by
    rw [← hscrub]
    exact nfkc_scrub hU hnormal
  have hcontrol : ∀ c ∈ sanitized, isControl c = false := by
    rw [← hscrub]
    exact not_control_of_mem_scrub
  have hstrip : sanitized.strip = sanitized := by
    rw [← hscrub]
    exact Str.strip_strip _
  apply sanitizeModelText_eq_ok_iff.mpr
  exact ⟨scrub_eq_self hfixed hcontrol hlocators' hdata hblob hstrip, hmax, hlength, hlocators',
    hreference, hdata, hblob, hsemantic⟩

theorem sanitizeModelText_again_sample :
    sanitizeModelText (.ascii PreRequestGate.composeAcute) listOrder
        ([cp 0xE9] ++ lit "t at [removed-media-reference]") [lit "a.png"] 100 =
      .ok ([cp 0xE9] ++ lit "t at [removed-media-reference]") :=
  @sanitizeModelText_again _ listOrder listOrder named _ _ _ standard_composeAcute
    (by unfold StaysNormal; decide +kernel) (by decide +kernel)

/-- The accepted text is changed when it is sanitized again. -/
theorem sanitized_twice_differs :
    StandardNfkc (.ascii PreRequestGate.composeAcute) ∧
      sanitizeModelText (.ascii PreRequestGate.composeAcute) listOrder separated [] 200000 =
        .ok (accented ++ lit " ok") ∧
      sanitizeModelText (.ascii PreRequestGate.composeAcute) listOrder (accented ++ lit " ok") []
        200000 = .ok ([cp 0xE9] ++ lit " ok") := by
  exact ⟨standard_composeAcute, by decide +kernel, by decide +kernel⟩

end Again

end MediaBridge.Core.Sanitizer
