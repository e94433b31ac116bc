import MediaBridge.Foundation.Text

/-!
# Where texts occur in a text

Two texts are apart in a third one if no occurrence of the one shares a position
with an occurrence of the other. Replacing texts that are apart does not depend
on which of them is replaced first.

## Implementation notes

An occurrence is a position: `a <+: text.drop i`. A replaced text is read as an
untouched piece, then the new text, then a replaced rest; whatever holds of
pieces and of what is put together from them therefore holds of the result.
-/

namespace MediaBridge.Foundation.Str

variable {found : Option CodePoint → Str → Option Nat} {a b m s t u v text : Str}

/-- White space at the end does not count. -/
theorem strip_append_of_forall_isSpace (s : Str) {blanks : Str}
    (h : ∀ c ∈ blanks, c.isSpace = true) : (s ++ blanks).strip = s.strip := by
  have hend (t : Str) : List.rdropWhile CodePoint.isSpace (t ++ blanks) =
      List.rdropWhile CodePoint.isSpace t := by
    have hrev : ∀ c ∈ blanks.reverse, c.isSpace = true := fun c hc =>
      h c (List.mem_reverse.mp hc)
    rw [List.rdropWhile, List.reverse_append, List.dropWhile_append_of_pos hrev]
    rfl
  rw [strip, strip, List.dropWhile_append]
  split
  · rename_i hempty
    rw [List.isEmpty_iff.mp hempty, ← List.append_nil blanks, List.dropWhile_append_of_pos h]
    rfl
  · exact hend _

/-- Nothing is left to strip. -/
theorem strip_strip (s : Str) : s.strip.strip = s.strip := by
  have hdrop : s.strip.dropWhile CodePoint.isSpace = s.strip := by
    rw [List.dropWhile_eq_self_iff]
    intro hlength
    have hstart := List.rdropWhile_prefix CodePoint.isSpace (s.dropWhile CodePoint.isSpace)
    have hpos : 0 < (s.dropWhile CodePoint.isSpace).length := hlength.trans_le hstart.length_le
    have hhead := hstart.getElem hlength
    change s.strip[0] = _ at hhead
    rw [hhead]
    exact List.dropWhile_get_zero_not _ _ hpos
  calc
    s.strip.strip = List.rdropWhile CodePoint.isSpace s.strip := by rw [strip, hdrop]
    _ = s.strip := List.rdropWhile_idempotent _ _

section Splicing

/-- A property of texts that their pieces have, and that is kept when two texts
are joined by a given one. -/
structure Spliceable (m : Str) (P : Str → Prop) : Prop where
  piece : ∀ s t, t <:+: s → P s → P t
  splice : ∀ s t, P s → P t → P (s ++ m ++ t)

variable {P : Str → Prop}

/-- What a substitution leaves: an untouched start and, after the first match,
the new text and a rest. -/
theorem substituteFrom_split (hP : Spliceable m P) (before : Option CodePoint) (skip : Nat)
    (hs : P s) :
    ∃ p q, substituteFrom found m before skip s = p ++ q ∧ p <+: s.drop skip ∧
      (q = [] ∨ ∃ t, P t ∧ q = m ++ t) := by
  have hnil : P [] := hP.piece s [] (List.nil_infix) hs
  induction s generalizing before skip with
  | nil => exact ⟨[], [], by rw [substituteFrom, List.append_nil], List.nil_prefix, .inl rfl⟩
  | cons c rest ih =>
      have hrest : P rest := hP.piece _ _ (List.suffix_cons c rest).isInfix hs
      cases skip with
      | succ skip => exact ih (some c) skip hrest
      | zero =>
          rw [substituteFrom]
          split
          · next n _ =>
              obtain ⟨p, q, heq, hp, hq⟩ := ih (some c) n hrest
              refine ⟨[], _, rfl, List.nil_prefix, .inr ⟨_, ?_, rfl⟩⟩
              have hpiece : P p :=
                hP.piece _ _ (hp.isInfix.trans (List.drop_suffix n rest).isInfix) hrest
              rw [heq]
              rcases hq with rfl | ⟨t, ht, rfl⟩
              · rwa [List.append_nil]
              · rw [← List.append_assoc]
                exact hP.splice p t hpiece ht
          · obtain ⟨p, q, heq, hp, hq⟩ := ih (some c) 0 hrest
            refine ⟨c :: p, q, congrArg (c :: ·) heq, ?_, hq⟩
            exact List.cons_prefix_cons.mpr ⟨rfl, hp⟩

/-- A substitution keeps such a property. -/
theorem substitute_keeps (hP : Spliceable m P) (hs : P s) : P (substitute found m s) := by
  obtain ⟨p, q, heq, hp, hq⟩ := substituteFrom_split hP none 0 hs
  rw [List.drop_zero] at hp
  have hpiece : P p := hP.piece _ _ hp.isInfix hs
  rw [substitute, heq]
  rcases hq with rfl | ⟨t, ht, rfl⟩
  · rwa [List.append_nil]
  · rw [← List.append_assoc]
    exact hP.splice p t hpiece ht

private theorem keeps_between (hP : Spliceable m P) (hs : P s) :
    P (m ++ s.flatMap fun c => c :: m) := by
  have hnil : P [] := hP.piece s [] List.nil_infix hs
  induction s with
  | nil => simpa using hP.splice [] [] hnil hnil
  | cons c rest ih =>
      have hrest : P rest := hP.piece _ _ (List.suffix_cons c rest).isInfix hs
      have hc : P [c] := hP.piece _ _ (List.prefix_append [c] rest).isInfix hs
      have hfirst : P ([] ++ m ++ ([c] ++ (m ++ rest.flatMap fun c => c :: m))) := by
        rw [← List.append_assoc [c]]
        apply hP.splice [] _ hnil
        cases rest with
        | nil => simpa using hP.splice [c] [] hc hnil
        | cons d more =>
            have htail : P (d :: (m ++ more.flatMap fun c => c :: m)) := by
              apply hP.piece _ _ _ (ih hrest)
              exact ⟨m, [], by simp⟩
            simpa using hP.splice [c] _ hc htail
      simpa using hfirst

/-- So does `replace`. -/
theorem replaceAll_keeps (hP : Spliceable m P) (a : Str) (hs : P s) : P (s.replaceAll a m) := by
  unfold replaceAll
  split
  · exact keeps_between hP hs
  · exact substitute_keeps hP hs

/-- So do several replacements in a row. -/
theorem foldl_replaceAll_keeps (hP : Spliceable m P) (olds : List Str) (hs : P s) :
    P (olds.foldl (fun s a => s.replaceAll a m) s) := by
  induction olds generalizing s with
  | nil => exact hs
  | cons a olds ih => exact ih (replaceAll_keeps hP a hs)

end Splicing

section Replacing

theorem replaceAll_eq_substitute (ha : a ≠ []) (s m : Str) :
    s.replaceAll a m =
      substitute (fun _ text => if a <+: text then some a.length else none) m s :=
  if_neg ha

@[simp] theorem replaceAll_nil_left (ha : a ≠ []) (m : Str) : replaceAll [] a m = [] := by
  rw [replaceAll_eq_substitute ha]
  rfl

/-- An occurrence at the start is replaced. -/
theorem replaceAll_append_self (ha : a ≠ []) (v m : Str) :
    (a ++ v).replaceAll a m = m ++ v.replaceAll a m := by
  rw [replaceAll_eq_substitute ha, replaceAll_eq_substitute ha]
  have hlen : 0 < a.length := List.length_pos_of_ne_nil ha
  apply substitute_of_found (fun _ _ => rfl) (List.suffix_append a v)
  · rw [List.length_append]
    omega
  · rw [if_pos (List.prefix_append a v), List.length_append, Nat.add_sub_cancel]

theorem replaceAll_cons_of_not (ha : a ≠ []) {c : CodePoint} (h : ¬ a <+: c :: s) :
    replaceAll (c :: s) a m = c :: s.replaceAll a m := by
  rw [replaceAll_eq_substitute ha, replaceAll_eq_substitute ha, substitute_cons (fun _ _ => rfl),
    if_neg h]

/-- A start in which no occurrence begins stays. -/
theorem replaceAll_append_of_not (ha : a ≠ [])
    (h : ∀ i < u.length, ¬ a <+: (u ++ v).drop i) :
    (u ++ v).replaceAll a m = u ++ v.replaceAll a m := by
  induction u with
  | nil => rfl
  | cons c u ih =>
      have hhead : ¬ a <+: c :: (u ++ v) := h 0 (Nat.succ_pos _)
      rw [List.cons_append, replaceAll_cons_of_not ha hhead, ih, List.cons_append]
      intro i hi
      exact h (i + 1) (Nat.succ_lt_succ hi)

/-- A text that does not occur is not replaced. -/
theorem replaceAll_eq_self (ha : a ≠ []) (h : ¬ a <:+: s) : s.replaceAll a m = s := by
  rw [replaceAll_eq_substitute ha]
  apply substitute_eq_self
  intro before text htext
  rw [if_neg]
  intro hpre
  exact h (hpre.isInfix.trans htext.isInfix)

/-- What is not found is not substituted. -/
theorem substituteFrom_of_not_searchFrom (m : Str) {before : Option CodePoint}
    (h : searchFrom found before s = false) : substituteFrom found m before 0 s = s := by
  induction s generalizing before with
  | nil => rfl
  | cons c rest ih =>
      rw [searchFrom, Bool.or_eq_false_iff, Option.isSome_eq_false_iff, Option.isNone_iff_eq_none]
        at h
      rw [substituteFrom, h.1]
      exact congrArg (c :: ·) (ih h.2)

theorem substitute_of_not_search (m : Str) (h : search found s = false) :
    substitute found m s = s :=
  substituteFrom_of_not_searchFrom m h

end Replacing

/-- No occurrence of the one text shares a position with one of the other. -/
def Apart (a b text : Str) : Prop :=
  ∀ i j, a <+: text.drop i → b <+: text.drop j → i + a.length ≤ j ∨ j + b.length ≤ i

/-- In no text does an occurrence of the one share a position with one of the other. -/
def KeepsOff (a m : Str) : Prop := ∀ text, Apart a m text

theorem Apart.symm (h : Apart a b text) : Apart b a text :=
  fun i j hb ha => (h j i ha hb).symm

private theorem prefix_drop_append (u : Str) (i : Nat) (h : a <+: s.drop i) (hi : i ≤ s.length) :
    a <+: (u ++ s ++ v).drop (u.length + i) := by
  rw [List.append_assoc, List.drop_length_add_append, List.drop_append_of_le_length hi]
  exact h.trans (List.prefix_append _ _)

/-- A text that is not empty begins before the end. -/
theorem le_length_of_prefix_drop (ha : a ≠ []) {i : Nat} (h : a <+: s.drop i) :
    i + a.length ≤ s.length := by
  have hlen : a.length ≤ (s.drop i).length := h.length_le
  have hpos : 0 < a.length := List.length_pos_of_ne_nil ha
  rw [List.length_drop] at hlen
  omega

theorem Apart.piece (ha : a ≠ []) (hb : b ≠ []) (h : Apart a b text) (hs : s <:+: text) :
    Apart a b s := by
  obtain ⟨before, after, rfl⟩ := hs
  intro i j hi hj
  have hilen := le_length_of_prefix_drop ha hi
  have hjlen := le_length_of_prefix_drop hb hj
  have := h _ _ (prefix_drop_append before i hi (by omega))
    (prefix_drop_append before j hj (by omega))
  omega

/-- Texts without a common character with the inserted one keep off it. -/
theorem KeepsOff.of_disjoint (ha : a ≠ []) (hm : m ≠ []) (h : ∀ c ∈ a, c ∉ m) :
    KeepsOff a m := by
  intro text i j hi hj
  by_contra hshared
  rw [not_or, Nat.not_le, Nat.not_le] at hshared
  obtain ⟨hj', hi'⟩ := hshared
  have hpos : 0 < a.length := List.length_pos_of_ne_nil ha
  have hpos' : 0 < m.length := List.length_pos_of_ne_nil hm
  -- The later of the two beginnings lies in both occurrences.
  obtain ⟨k, hik, hjk, hka, hkm⟩ :
      ∃ k, i ≤ k ∧ j ≤ k ∧ k - i < a.length ∧ k - j < m.length := by
    rcases Nat.le_total i j with hle | hle
    · exact ⟨j, by omega, by omega, by omega, by omega⟩
    · exact ⟨i, by omega, by omega, by omega, by omega⟩
  have hchar : a[k - i] = m[k - j] := by
    have hleft := hi.getElem hka
    have hright := hj.getElem hkm
    rw [List.getElem_drop] at hleft hright
    rw [hleft, hright]
    congr 1
    omega
  apply h a[k - i] (List.getElem_mem hka)
  rw [hchar]
  exact List.getElem_mem hkm

section Commuting

/-- A text at the start of a replaced text stood there before. -/
theorem prefix_of_prefix_replaceAll (ha : a ≠ []) (hkeep : KeepsOff b m) (c : CodePoint)
    (h : b <+: c :: s.replaceAll a m) : b <+: c :: s := by
  have hanything : Spliceable m fun _ => True := ⟨fun _ _ _ _ => trivial, fun _ _ _ _ => trivial⟩
  obtain ⟨p, q, heq, hp, hq⟩ :=
    substituteFrom_split (s := s) hanything none 0 trivial
  rw [replaceAll_eq_substitute ha, substitute, heq] at h
  rw [List.drop_zero] at hp
  have hstart : c :: p <+: c :: s := List.cons_prefix_cons.mpr ⟨rfl, hp⟩
  rcases hq with rfl | ⟨t, -, rfl⟩
  · rw [List.append_nil] at h
    exact h.trans hstart
  · change b <+: (c :: p) ++ (m ++ t) at h
    have hm : m <+: ((c :: p) ++ (m ++ t)).drop (c :: p).length := by
      rw [List.drop_left]
      exact List.prefix_append m t
    rcases hkeep _ 0 (c :: p).length h hm with hle | hge
    · apply List.IsPrefix.trans _ hstart
      apply List.prefix_of_prefix_length_le h (List.prefix_append _ _)
      omega
    · simp at hge

/-- Replacing `a` by `m` makes no occurrence of `b`, and none begins where `a` is replaced. -/
inductive Unmoved (a b m : Str) : Str → Prop
  | nil : Unmoved a b m []
  | found {v : Str} : (∀ i < a.length, ¬ b <+: (a ++ v).drop i) →
      (∀ i < m.length, ¬ b <+: (m ++ v.replaceAll a m).drop i) → Unmoved a b m v →
      Unmoved a b m (a ++ v)
  | skip {c : CodePoint} {rest : Str} : ¬ a <+: c :: rest →
      (b <+: c :: rest.replaceAll a m → b <+: c :: rest) → Unmoved a b m rest →
      Unmoved a b m (c :: rest)

/-- A text that does not occur is not replaced. -/
theorem Unmoved.of_not_infix (ha : a ≠ []) (h : ¬ a <:+: s) : Unmoved a b m s := by
  induction s with
  | nil => exact .nil
  | cons c rest ih =>
      rw [List.infix_cons_iff, not_or] at h
      refine .skip h.1 (fun hpre => ?_) (ih h.2)
      rwa [replaceAll_eq_self ha h.2] at hpre

/-- Nothing is made of a text that keeps off what is put in the place of another one. -/
theorem Unmoved.of_keepsOff (ha : a ≠ []) (hb : b ≠ []) (hkeep : KeepsOff b m) (s : Str)
    (h : Apart a b s) : Unmoved a b m s := by
  have hpos : 0 < a.length := List.length_pos_of_ne_nil ha
  have hpos' : 0 < b.length := List.length_pos_of_ne_nil hb
  by_cases hstart : a <+: s
  · obtain ⟨v, rfl⟩ := hstart
    have hshorter : v.length < (a ++ v).length := by
      rw [List.length_append]
      omega
    refine .found (fun i hi hpre => ?_) (fun i hi hpre => ?_)
      (of_keepsOff ha hb hkeep v (h.piece ha hb (List.suffix_append a v).isInfix))
    · have := h 0 i (List.prefix_append a v) hpre
      omega
    · have := hkeep _ i 0 hpre (List.prefix_append m _)
      omega
  · cases s with
    | nil => exact .nil
    | cons c rest =>
        exact .skip hstart (prefix_of_prefix_replaceAll ha hkeep c)
          (of_keepsOff ha hb hkeep rest (h.piece ha hb (List.suffix_cons c rest).isInfix))
termination_by s.length

theorem Unmoved.of_append (ha : a ≠ []) (h : Unmoved a b m (a ++ v)) :
    (∀ i < a.length, ¬ b <+: (a ++ v).drop i) ∧
      (∀ i < m.length, ¬ b <+: (m ++ v.replaceAll a m).drop i) ∧ Unmoved a b m v := by
  generalize hs : a ++ v = s at h
  cases h with
  | nil => exact absurd (List.append_eq_nil_iff.mp hs).1 ha
  | @found v' hstart hmarker hrest =>
      obtain rfl := List.append_cancel_left hs
      exact ⟨hs ▸ hstart, hmarker, hrest⟩
  | skip hnot => exact absurd ⟨v, hs⟩ hnot

theorem Unmoved.of_cons {c : CodePoint} {rest : Str} (h : Unmoved a b m (c :: rest))
    (hnot : ¬ a <+: c :: rest) :
    (b <+: c :: rest.replaceAll a m → b <+: c :: rest) ∧ Unmoved a b m rest := by
  generalize hs : c :: rest = s at h hnot
  cases h with
  | nil => cases hs
  | found => exact absurd (List.prefix_append _ _) hnot
  | skip _ hmade hrest =>
      cases hs
      exact ⟨hmade, hrest⟩

/-- What follows a start in which no occurrence begins. -/
theorem Unmoved.of_append_of_not (h : Unmoved a b m (u ++ v))
    (hnot : ∀ i < u.length, ¬ a <+: (u ++ v).drop i) : Unmoved a b m v := by
  induction u with
  | nil => exact h
  | cons c u ih =>
      obtain ⟨-, hrest⟩ := h.of_cons (hnot 0 (Nat.succ_pos _))
      exact ih hrest fun i hi => hnot (i + 1) (Nat.succ_lt_succ hi)

/-- The first of two texts is at the start. -/
private theorem comm_of_start (ha : a ≠ []) (hb : b ≠ [])
    (hstart : ∀ i < a.length, ¬ b <+: (a ++ v).drop i)
    (hmarker : ∀ i < m.length, ¬ b <+: (m ++ v.replaceAll a m).drop i)
    (ih : (v.replaceAll a m).replaceAll b m = (v.replaceAll b m).replaceAll a m) :
    ((a ++ v).replaceAll a m).replaceAll b m = ((a ++ v).replaceAll b m).replaceAll a m := by
  calc
    ((a ++ v).replaceAll a m).replaceAll b m = m ++ (v.replaceAll a m).replaceAll b m := by
      rw [replaceAll_append_self ha, replaceAll_append_of_not hb hmarker]
    _ = m ++ (v.replaceAll b m).replaceAll a m := by rw [ih]
    _ = ((a ++ v).replaceAll b m).replaceAll a m := by
      rw [replaceAll_append_of_not hb hstart, replaceAll_append_self ha]

/-- Two texts of which neither is made by replacing the other can be replaced in either order. -/
theorem replaceAll_comm (ha : a ≠ []) (hb : b ≠ []) (s : Str) (hab : Unmoved a b m s)
    (hba : Unmoved b a m s) :
    (s.replaceAll a m).replaceAll b m = (s.replaceAll b m).replaceAll a m := by
  by_cases hstart : a <+: s
  · obtain ⟨v, rfl⟩ := hstart
    have hshorter : v.length < (a ++ v).length := by
      rw [List.length_append]
      have := List.length_pos_of_ne_nil ha
      omega
    obtain ⟨hbegins, hmarker, hrest⟩ := hab.of_append ha
    exact comm_of_start ha hb hbegins hmarker
      (replaceAll_comm ha hb v hrest (hba.of_append_of_not hbegins))
  · by_cases hstart' : b <+: s
    · obtain ⟨v, rfl⟩ := hstart'
      have hshorter : v.length < (b ++ v).length := by
        rw [List.length_append]
        have := List.length_pos_of_ne_nil hb
        omega
      obtain ⟨hbegins, hmarker, hrest⟩ := hba.of_append hb
      have hcomm := replaceAll_comm ha hb v (hab.of_append_of_not hbegins) hrest
      exact (comm_of_start hb ha hbegins hmarker hcomm.symm).symm
    · cases s with
      | nil => rw [replaceAll_nil_left ha, replaceAll_nil_left hb, replaceAll_nil_left ha]
      | cons c rest =>
          obtain ⟨hmade, hrest⟩ := hab.of_cons hstart
          obtain ⟨hmade', hrest'⟩ := hba.of_cons hstart'
          have ih := replaceAll_comm ha hb rest hrest hrest'
          have hnot : ¬ b <+: c :: replaceAll rest a m := fun hpre => hstart' (hmade hpre)
          have hnot' : ¬ a <+: c :: replaceAll rest b m := fun hpre => hstart (hmade' hpre)
          calc
            replaceAll (replaceAll (c :: rest) a m) b m =
                c :: replaceAll (replaceAll rest a m) b m := by
              rw [replaceAll_cons_of_not ha hstart, replaceAll_cons_of_not hb hnot]
            _ = c :: replaceAll (replaceAll rest b m) a m := by rw [ih]
            _ = replaceAll (replaceAll (c :: rest) b m) a m := by
              rw [replaceAll_cons_of_not hb hstart', replaceAll_cons_of_not ha hnot']
termination_by s.length

end Commuting

section Ranked

variable {α σ : Type} {f : σ → α → σ} {rank : α → Nat}

/-- Items with the greatest rank first. -/
def Ranked (rank : α → Nat) (l : List α) : Prop := l.Pairwise fun a b => rank b ≤ rank a

/-- An item goes past others of its rank, if it can change places with each of them there. -/
theorem foldl_to_front {x : α} {before : List α} {after : List α} {s : σ}
    (hrank : ∀ y ∈ before, rank y = rank x) (hsorted : Ranked rank (before ++ x :: after))
    (hswap : ∀ done y rest, (done ++ y :: x :: rest).Perm (before ++ x :: after) →
      Ranked rank (done ++ y :: x :: rest) → rank y = rank x →
      f (f (done.foldl f s) y) x = f (f (done.foldl f s) x) y) :
    (before ++ x :: after).foldl f s = (x :: (before ++ after)).foldl f s := by
  induction before using List.reverseRecOn generalizing after with
  | nil => rfl
  | append_singleton init y ih =>
      have hy : rank y = rank x := hrank y (by simp)
      have hperm : (init ++ x :: y :: after).Perm (init ++ [y] ++ x :: after) := by
        rw [List.append_assoc]
        exact (List.Perm.swap y x after).append_left init
      rw [Ranked, List.append_assoc] at hsorted
      have hsorted' : Ranked rank (init ++ x :: y :: after) := by
        obtain ⟨hinit, htail, hcross⟩ := List.pairwise_append.mp hsorted
        change List.Pairwise _ (y :: x :: after) at htail
        obtain ⟨hfirst, htail⟩ := List.pairwise_cons.mp htail
        obtain ⟨hsecond, hafter⟩ := List.pairwise_cons.mp htail
        refine List.pairwise_append.mpr ⟨hinit, ?_, ?_⟩
        · refine List.pairwise_cons.mpr ⟨List.forall_mem_cons.mpr ⟨hy.le, hsecond⟩, ?_⟩
          exact List.pairwise_cons.mpr
            ⟨fun z hz => hfirst z (List.mem_cons_of_mem x hz), hafter⟩
        · intro u hu z hz
          refine hcross u hu z ?_
          simp only [List.mem_cons, List.singleton_append] at hz ⊢
          tauto
      have hstep := hswap init y after (by rw [List.append_assoc]; rfl) hsorted hy
      have hfront := @ih (y :: after) (fun z hz => hrank z (List.mem_append_left _ hz))
        hsorted' fun done z rest hp => hswap done z rest (hp.trans hperm)
      calc
        (init ++ [y] ++ x :: after).foldl f s = after.foldl f (f (f (init.foldl f s) y) x) := by
          simp only [List.append_assoc, List.foldl_append, List.singleton_append, List.foldl_cons]
        _ = (init ++ x :: y :: after).foldl f s := by
          rw [hstep, List.foldl_append, List.foldl_cons, List.foldl_cons]
        _ = (x :: (init ++ y :: after)).foldl f s := hfront
        _ = (x :: (init ++ [y] ++ after)).foldl f s := by
          rw [List.append_assoc, List.singleton_append]

/-- Two lists of the same items, each with the greatest rank first, have the same effect if
neighbours of one rank can change places in every such list. -/
theorem foldl_eq_of_ranked {l l' : List α} (hperm : l.Perm l') (hl : Ranked rank l)
    (hl' : Ranked rank l') (s : σ)
    (hswap : ∀ done x y rest, (done ++ x :: y :: rest).Perm l →
      Ranked rank (done ++ x :: y :: rest) → rank x = rank y →
        f (f (done.foldl f s) x) y = f (f (done.foldl f s) y) x) :
    l.foldl f s = l'.foldl f s := by
  induction l generalizing l' s with
  | nil => rw [hperm.nil_eq]
  | cons x rest ih =>
      obtain ⟨before, after, rfl⟩ := List.append_of_mem (hperm.mem_iff.mp List.mem_cons_self)
      have hrest : rest.Perm (before ++ after) := (hperm.trans List.perm_middle).cons_inv
      have hrank (y : α) (hy : y ∈ before) : rank y = rank x := by
        have hle : rank x ≤ rank y :=
          (List.pairwise_append.mp hl').2.2 y hy x List.mem_cons_self
        rcases List.mem_cons.mp (hperm.mem_iff.mpr (List.mem_append_left _ hy)) with rfl | hin
        · rfl
        · exact Nat.le_antisymm ((List.pairwise_cons.mp hl).1 y hin) hle
      have hsorted : Ranked rank (before ++ after) :=
        List.Pairwise.sublist (List.Sublist.append_left (List.sublist_cons_self x after) before) hl'
      rw [foldl_to_front hrank hl' fun done y more hp hr hy =>
        hswap done y x more (hp.trans hperm.symm) hr hy, List.foldl_cons, List.foldl_cons]
      refine ih hrest (List.pairwise_cons.mp hl).2 hsorted (f s x) fun done y z more hp hr hyz => ?_
      refine hswap (x :: done) y z more (hp.cons x)
        (List.pairwise_cons.mpr ⟨fun u hu => ?_, hr⟩) hyz
      exact (List.pairwise_cons.mp hl).1 u (hp.mem_iff.mp hu)

end Ranked

end MediaBridge.Foundation.Str
