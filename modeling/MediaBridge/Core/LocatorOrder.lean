import MediaBridge.Core.SanitizerLaws

/-!
# The order of the locators

Locators are replaced longest first; locators of one length are replaced as the
set that holds them is iterated. That order shows in the text only where, in one of
the possible orders, two of them that follow one another overlap: with each other, or
one of them with the text that was put in the place of the other.

## Implementation notes

Two possible orders differ by swaps of neighbours with one length. A swap leaves the
text as it is if neither of the two is made, or hidden, by the replacement of the other.
-/

namespace MediaBridge.Core.Sanitizer

open Foundation

variable {U : UnicodeData} {order order' : SetOrder} {text s : Str}
  {locators locators' : List Str} {maxLength : Nat}

/-- An order in which the locators of a collection may be replaced. -/
structure Possible (U : UnicodeData) (locators l : List Str) : Prop where
  perm : l.Perm ((locators.filter fun l => !l.isEmpty).map U.nfkc).dedup
  longestFirst : Str.Ranked List.length l

/-- In every possible order, when two locators of one length follow one another, replacing the
first of them in the text as it is then makes no occurrence of the second, and no occurrence of
the second begins in what is replaced. -/
def Unambiguous (U : UnicodeData) (locators : List Str) (text : Str) : Prop :=
  ∀ done a b rest, Possible U locators (done ++ a :: b :: rest) → a.length = b.length →
    Str.Unmoved a b removedReference
      (done.foldl (fun s locator => Str.replaceAll s locator removedReference) (cleaned U text))

section Order

/-- Two iterations of the locators of one collection have the same members once each. -/
theorem normalizedLocators_perm (h : ∀ l, l ∈ locators ↔ l ∈ locators') :
    (normalizedLocators U order locators).Perm (normalizedLocators U order' locators') := by
  have hnodup : ∀ (order : SetOrder) (l : List Str), (order.arrange l).Nodup :=
    fun order l => (order.arrange_perm l).nodup_iff.mpr (List.nodup_dedup l)
  apply (List.perm_ext_iff_of_nodup (hnodup _ _) (hnodup _ _)).mpr
  intro locator
  change locator ∈ normalizedLocators U order locators ↔
    locator ∈ normalizedLocators U order' locators'
  simp only [mem_normalizedLocators, List.mem_map, List.mem_filter, h]

theorem pairwise_longestFirst (l : List Str) :
    (longestFirst l).Pairwise fun a b => b.length ≤ a.length := by
  have : Std.Total fun a b : Str => b.length ≤ a.length := ⟨fun a b => Nat.le_total _ _⟩
  have : IsTrans Str fun a b : Str => b.length ≤ a.length := ⟨fun a b c h h' => h'.trans h⟩
  exact List.pairwise_insertionSort _ l

theorem possible_longestFirst (order : SetOrder) (locators : List Str) :
    Possible U locators (longestFirst (normalizedLocators U order locators)) where
  perm := (List.perm_insertionSort _ _).trans (order.arrange_perm _)
  longestFirst := pairwise_longestFirst _

theorem ne_nil_of_rival {a b : Str} (hne : a ≠ b) (hlength : a.length = b.length) : a ≠ [] := by
  rintro rfl
  exact hne (List.eq_nil_of_length_eq_zero hlength.symm).symm

/-- The replacements of two orders give one text. -/
theorem foldl_replaceAll_of_perm (h : Unambiguous U locators text) {l l' : List Str}
    (hl : Possible U locators l) (hl' : Possible U locators l') :
    l.foldl (fun s a => Str.replaceAll s a removedReference) (cleaned U text) =
      l'.foldl (fun s a => Str.replaceAll s a removedReference) (cleaned U text) := by
  apply Str.foldl_eq_of_ranked (hl.perm.trans hl'.perm.symm) hl.longestFirst hl'.longestFirst
  intro done a b rest hperm hranked hlength
  have hpossible : Possible U locators (done ++ a :: b :: rest) := ⟨hperm.trans hl.perm, hranked⟩
  -- the neighbours have one length, so that they may also come in the other order
  have hswapped : Possible U locators (done ++ b :: a :: rest) := by
    refine ⟨((List.Perm.swap a b rest).append_left done).trans hpossible.perm, ?_⟩
    obtain ⟨hdone, htail, hcross⟩ := List.pairwise_append.mp hranked
    obtain ⟨hfirst, htail⟩ := List.pairwise_cons.mp htail
    obtain ⟨hsecond, hrest⟩ := List.pairwise_cons.mp htail
    refine List.pairwise_append.mpr ⟨hdone, ?_, fun u hu z hz => hcross u hu z ?_⟩
    · refine List.pairwise_cons.mpr ⟨List.forall_mem_cons.mpr ⟨hlength.le, hsecond⟩, ?_⟩
      exact List.pairwise_cons.mpr ⟨fun z hz => hfirst z (List.mem_cons_of_mem b hz), hrest⟩
    · simp only [List.mem_cons] at hz ⊢
      tauto
  have hne : a ≠ b := by
    have hnodup := hpossible.perm.nodup_iff.mpr (List.nodup_dedup _)
    have hpair := (List.nodup_append.mp hnodup).2.1
    rintro rfl
    exact (List.nodup_cons.mp hpair).1 List.mem_cons_self
  exact Str.replaceAll_comm (ne_nil_of_rival hne hlength)
    (ne_nil_of_rival hne.symm hlength.symm) _ (h done a b rest hpossible hlength)
    (h done b a rest hswapped hlength.symm)

/-- Collections with the same members have the same possible orders. -/
theorem Possible.of_same (hsame : ∀ l, l ∈ locators ↔ l ∈ locators') {l : List Str}
    (h : Possible U locators' l) : Possible U locators l := by
  refine ⟨h.perm.trans ?_, h.longestFirst⟩
  apply (List.perm_ext_iff_of_nodup (List.nodup_dedup _) (List.nodup_dedup _)).mpr
  intro locator
  simp only [List.mem_dedup, List.mem_map, List.mem_filter, hsame]

/-- The same collection of locators, in any order, gives the same result, unless two of
them with one length come to overlap. -/
theorem sanitizeModelText_order (hsame : ∀ l, l ∈ locators ↔ l ∈ locators')
    (h : Unambiguous U locators text) :
    sanitizeModelText U order text locators maxLength =
      sanitizeModelText U order' text locators' maxLength := by
  have hperm : (normalizedLocators U order locators).Perm
      (normalizedLocators U order' locators') := normalizedLocators_perm hsame
  have hscrub : scrub U (normalizedLocators U order locators) text =
      scrub U (normalizedLocators U order' locators') text := by
    have hfold := foldl_replaceAll_of_perm h (possible_longestFirst order locators)
      ((possible_longestFirst order' locators').of_same hsame)
    unfold cleaned at hfold
    simp only [scrub, hfold]
  have hany : ∀ p : Str → Bool, (normalizedLocators U order locators).any p =
      (normalizedLocators U order' locators').any p := by
    intro p
    rw [Bool.eq_iff_iff, List.any_eq_true, List.any_eq_true]
    simp only [hperm.mem_iff]
  simp only [sanitizeModelText, hscrub, hany]

/-- Two locators can come in two orders. -/
theorem unambiguous_pair {a b : Str} (h : ((locators.filter fun l => !l.isEmpty).map U.nfkc).dedup =
    [a, b]) (hab : Str.Unmoved a b removedReference (cleaned U text))
    (hba : Str.Unmoved b a removedReference (cleaned U text)) : Unambiguous U locators text := by
  intro done x y rest hpossible _
  have hperm := hpossible.perm
  rw [h] at hperm
  have hlength := hperm.length_eq
  obtain ⟨rfl, rfl⟩ : done = [] ∧ rest = [] := by
    simp only [List.length_append, List.length_cons, List.length_nil] at hlength
    exact ⟨List.eq_nil_of_length_eq_zero (by omega), List.eq_nil_of_length_eq_zero (by omega)⟩
  rcases List.mem_pair.mp (hperm.subset (List.mem_cons_self : x ∈ [x, y])) with rfl | rfl
  · obtain rfl := List.singleton_perm_singleton.mp (hperm.cons_inv)
    exact hab
  · obtain rfl := List.singleton_perm_singleton.mp
      ((hperm.trans (List.Perm.swap x a [])).cons_inv)
    exact hba

/-- Two locators of one length without a common digit. -/
theorem unambiguous_digits :
    Unambiguous (.ascii PreRequestGate.composeAcute) [lit "123", lit "456"]
      (lit "from 123456 to 123") := by
  have hapart (a b : Str) (h : a.all (fun c => decide (c ∉ b)) = true) (ha : a ≠ [])
      (hb : b ≠ []) : Str.KeepsOff a b := by
    apply Str.KeepsOff.of_disjoint ha hb
    intro c hc
    simpa using List.all_eq_true.mp h c hc
  refine unambiguous_pair (a := lit "123") (b := lit "456") (by decide +kernel) ?_ ?_
  · exact .of_keepsOff (by decide) (by decide)
      (hapart _ _ (by decide +kernel) (by decide) (by decide)) _
      (hapart _ _ (by decide +kernel) (by decide) (by decide) _)
  · exact .of_keepsOff (by decide) (by decide)
      (hapart _ _ (by decide +kernel) (by decide) (by decide)) _
      (hapart _ _ (by decide +kernel) (by decide) (by decide) _)

/-- Locators that are in the text put in their place, but not in the text itself. -/
theorem unambiguous_letters :
    Unambiguous (.ascii PreRequestGate.composeAcute) [lit "e", lit "x"] (lit "abc") := by
  refine unambiguous_pair (a := lit "e") (b := lit "x") (by decide +kernel) ?_ ?_
  · exact Str.Unmoved.of_not_infix (by decide) (by decide +kernel)
  · exact Str.Unmoved.of_not_infix (by decide) (by decide +kernel)

theorem sanitizeModelText_order_sample :
    sanitizeModelText (.ascii PreRequestGate.composeAcute) listOrder (lit "from 123456 to 123")
        [lit "123", lit "456"] 200 =
      sanitizeModelText (.ascii PreRequestGate.composeAcute) listOrder (lit "from 123456 to 123")
        [lit "456", lit "123"] 200 ∧
    sanitizeModelText (.ascii PreRequestGate.composeAcute) listOrder (lit "abc")
        [lit "e", lit "x"] 200 =
      sanitizeModelText (.ascii PreRequestGate.composeAcute) listOrder (lit "abc")
        [lit "x", lit "e"] 200 :=
  ⟨sanitizeModelText_order (fun l => by simp only [List.mem_pair, or_comm]) unambiguous_digits,
    sanitizeModelText_order (fun l => by simp only [List.mem_pair, or_comm]) unambiguous_letters⟩

/-- Two overlapping locators of one length leave different texts in the two orders. -/
theorem order_shows_in_text :
    sanitizeModelText (.ascii PreRequestGate.composeAcute) listOrder (lit "abc x")
        [lit "ab", lit "bc"] 200 = .ok (lit "[removed-media-reference]c x") ∧
      sanitizeModelText (.ascii PreRequestGate.composeAcute) listOrder (lit "abc x")
        [lit "bc", lit "ab"] 200 = .ok (lit "a[removed-media-reference] x") := by
  decide +kernel

end Order

end MediaBridge.Core.Sanitizer
