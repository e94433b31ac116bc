import MediaBridge.Foundation.MarkedBlocks

/-!
# Blocks in two alphabets

A text may be written in another alphabet: each letter is spelled by some letters of the other one.
If the letters of the markers are spelled by one letter each, and no other letter is spelled with
one of these, then blocks are found, stripped and shortened alike in both.

## Implementation notes

The alphabets are those of a decoded text and of its bytes; the plain letters are ASCII.
-/

namespace MediaBridge.Foundation

namespace Blocks

variable {α β : Type*}

/-- A spelling in which the plain letters are letters of their own. -/
structure Spelling (α β : Type*) where
  spell : α → List β
  plain : α → Prop
  letter : α → β
  spell_plain : ∀ c, plain c → spell c = [letter c]
  apart : ∀ c, ¬ plain c → ∀ b ∈ spell c, ∀ d, plain d → b ≠ letter d
  ne_nil : ∀ c, spell c ≠ []
  letter_injective : ∀ c d, plain c → plain d → letter c = letter d → c = d

namespace Spelling

variable (S : Spelling α β)

/-- A text in the other alphabet. -/
def text (s : List α) : List β := s.flatMap S.spell

@[simp] theorem text_nil : S.text [] = [] := rfl

theorem text_cons (c : α) (s : List α) : S.text (c :: s) = S.spell c ++ S.text s := rfl

theorem text_append (s t : List α) : S.text (s ++ t) = S.text s ++ S.text t :=
  List.flatMap_append

/-- A text of plain letters. -/
theorem text_plain {s : List α} (h : ∀ c ∈ s, S.plain c) : S.text s = s.map S.letter := by
  induction s with
  | nil => rfl
  | cons c s ih =>
      rw [text_cons, S.spell_plain c (h c List.mem_cons_self),
        ih fun d hd => h d (List.mem_cons_of_mem c hd)]
      rfl

variable {S} {needle s : List α}

/-- A plain text starts a spelled text exactly if it starts the text. -/
theorem prefix_text_iff (hneedle : ∀ c ∈ needle, S.plain c) :
    needle.map S.letter <+: S.text s ↔ needle <+: s := by
  induction needle generalizing s with
  | nil => simp
  | cons n needle ih =>
      obtain ⟨hn, hneedle⟩ := List.forall_mem_cons.mp hneedle
      cases s with
      | nil => simp
      | cons c s =>
          by_cases hc : S.plain c
          · rw [text_cons, S.spell_plain c hc, List.map_cons, List.singleton_append,
              List.cons_prefix_cons, List.cons_prefix_cons, ih hneedle]
            exact and_congr_left' ⟨S.letter_injective n c hn hc, congrArg S.letter⟩
          · obtain ⟨b, rest, hspell⟩ := List.exists_cons_of_ne_nil (S.ne_nil c)
            have hb : b ≠ S.letter n :=
              S.apart c hc b (by rw [hspell]; exact List.mem_cons_self) n hn
            rw [text_cons, hspell, List.map_cons, List.cons_append, List.cons_prefix_cons,
              List.cons_prefix_cons]
            exact iff_of_false (fun h => hb h.1.symm) fun h => hc (h.1 ▸ hn)

variable [DecidableEq α] [DecidableEq β]

omit [DecidableEq α] in
/-- A text in which no occurrence can begin is passed. -/
theorem cut_append_of_apart {u : List β} {b : β} (rest : List β)
    (h : ∀ c ∈ u, c ≠ b) (t : List β) :
    cut (b :: rest) (u ++ t) = (cut (b :: rest) t).map fun r => (u ++ r.1, r.2) := by
  induction u with
  | nil => simp
  | cons c u ih =>
      obtain ⟨hc, hu⟩ := List.forall_mem_cons.mp h
      have hnot : ¬ b :: rest <+: c :: (u ++ t) := fun hpre =>
        hc (List.cons_prefix_cons.mp hpre).1.symm
      rw [List.cons_append, cut_cons hnot, ih hu, Option.map_map]
      rfl

/-- A plain text is found where it is in the text. -/
theorem cut_text (hneedle : ∀ c ∈ needle, S.plain c) (hne : needle ≠ []) (s : List α) :
    cut (needle.map S.letter) (S.text s) =
      (cut needle s).map fun r => (S.text r.1, S.text r.2) := by
  induction s with
  | nil =>
      rw [text_nil, cut, cut, if_neg hne, if_neg (by simpa using hne)]
      rfl
  | cons c s ih =>
      by_cases hstart : needle <+: c :: s
      · obtain ⟨after, hafter⟩ := hstart
        rw [← hafter, text_append, S.text_plain hneedle, cut_append_self hne,
          cut_append_self (by simpa using hne)]
        rfl
      · have hstart' : ¬ needle.map S.letter <+: S.text (c :: s) :=
          fun h => hstart ((prefix_text_iff hneedle).mp h)
        rw [cut_cons hstart, Option.map_map]
        by_cases hc : S.plain c
        · rw [text_cons, S.spell_plain c hc, List.singleton_append] at hstart' ⊢
          rw [cut_cons hstart', ih, Option.map_map]
          congr 1
          funext r
          simp [text_cons, S.spell_plain c hc]
        · obtain ⟨n, rest, rfl⟩ := List.exists_cons_of_ne_nil hne
          have hn : S.plain n := hneedle n List.mem_cons_self
          rw [text_cons, List.map_cons,
            cut_append_of_apart _ (fun b hb => S.apart c hc b hb n hn),
            ← List.map_cons, ih, Option.map_map]
          rfl

theorem infix_text_iff (hneedle : ∀ c ∈ needle, S.plain c) (hne : needle ≠ []) :
    needle.map S.letter <:+: S.text s ↔ needle <:+: s := by
  rw [← not_iff_not, ← cut_eq_none_iff, ← cut_eq_none_iff, cut_text hneedle hne,
    Option.map_eq_none_iff]

section Marked

variable (M : Markers α) (N : Markers β)

/-- The markers in the other alphabet. -/
structure Spells (S : Spelling α β) (M : Markers α) (N : Markers β) : Prop where
  sep_plain : S.plain M.sep
  opening_plain : ∀ c ∈ M.opening, S.plain c
  closing_plain : ∀ c ∈ M.closing, S.plain c
  sep : N.sep = S.letter M.sep
  opening : N.opening = M.opening.map S.letter
  closing : N.closing = M.closing.map S.letter

variable {M N}

theorem Spells.firstBlock (h : Spells S M N) (s : List α) : N.firstBlock (S.text s) =
    (M.firstBlock s).map fun r => (S.text r.1, S.text r.2.1, S.text r.2.2) := by
  unfold Markers.firstBlock
  rw [h.opening, h.closing, cut_text h.opening_plain M.opening_ne_nil]
  cases cut M.opening s with
  | none => rfl
  | some r =>
      simp only [Option.map_some, Option.bind_some,
        cut_text h.closing_plain M.closing_ne_nil, Option.map_map]
      rfl

omit [DecidableEq α] [DecidableEq β] in
/-- A letter is the separator exactly if it is spelled by it. -/
theorem Spells.eq_sep_iff (h : Spells S M N) {c : α} (hc : S.plain c) :
    S.letter c = N.sep ↔ c = M.sep := by
  rw [h.sep]
  exact ⟨S.letter_injective c _ hc h.sep_plain, congrArg S.letter⟩

omit [DecidableEq α] [DecidableEq β] in
theorem Spells.ne_sep (h : Spells S M N) {c : α} (hc : ¬ S.plain c) :
    ∀ b ∈ S.spell c, b ≠ N.sep := by
  intro b hb
  rw [h.sep]
  exact S.apart c hc b hb _ h.sep_plain

theorem Spells.dropHead (h : Spells S M N) (s : List α) :
    Blocks.dropHead N.sep (S.text s) = S.text (Blocks.dropHead M.sep s) := by
  cases s with
  | nil => rfl
  | cons c s =>
      by_cases hc : S.plain c
      · rw [text_cons, S.spell_plain c hc, List.singleton_append, Blocks.dropHead, Blocks.dropHead]
        simp only [h.eq_sep_iff hc]
        split
        · rfl
        · rw [text_cons, S.spell_plain c hc]
          rfl
      · obtain ⟨b, rest, hspell⟩ := List.exists_cons_of_ne_nil (S.ne_nil c)
        have hb : b ≠ N.sep := h.ne_sep hc b (by rw [hspell]; exact List.mem_cons_self)
        have hsep : c ≠ M.sep := fun heq => hc (heq ▸ h.sep_plain)
        rw [Blocks.dropHead, if_neg hsep, text_cons, hspell, List.cons_append, Blocks.dropHead,
          if_neg hb]

theorem Spells.dropLast (h : Spells S M N) (s : List α) :
    Blocks.dropLast N.sep (S.text s) = S.text (Blocks.dropLast M.sep s) := by
  rcases List.eq_nil_or_concat s with rfl | ⟨init, c, rfl⟩
  · rfl
  · rw [List.concat_eq_append, text_append, Blocks.dropLast, Blocks.dropLast]
    by_cases hc : S.plain c
    · have hspell : S.text [c] = [S.letter c] := by
        rw [text_cons, S.spell_plain c hc]
        rfl
      rw [hspell, List.getLast?_concat, List.getLast?_concat, List.dropLast_concat,
        List.dropLast_concat]
      simp only [Option.some.injEq, h.eq_sep_iff hc]
      split
      · rfl
      · rw [text_append, hspell]
    · have hsep : c ≠ M.sep := fun heq => hc (heq ▸ h.sep_plain)
      have hlast : (S.text init ++ S.text [c]).getLast? ≠ some N.sep := by
        have hspell : S.text [c] = S.spell c := List.append_nil _
        rw [hspell, List.getLast?_append_of_ne_nil _ (S.ne_nil c)]
        intro hsome
        exact h.ne_sep hc _ (List.mem_of_getLast? hsome) rfl
      rw [if_neg hlast, List.getLast?_concat, if_neg fun hsome => hsep (Option.some.inj hsome),
        text_append]

/-- Stripping a spelled text. -/
theorem Spells.strip (h : Spells S M N) (s : List α) :
    Blocks.strip N (S.text s) = S.text (Blocks.strip M s) := by
  induction s using Markers.blocks_induct (M := M) with
  | none s hnone => rw [strip_of_none hnone, strip_of_none (by rw [h.firstBlock, hnone]; rfl)]
  | some s before inner after hsome ih =>
      have hspelled : N.firstBlock (S.text s) =
          Option.some (S.text before, S.text inner, S.text after) := by
        rw [h.firstBlock, hsome]
        rfl
      rw [strip_of_some hsome, strip_of_some hspelled, h.dropLast, h.dropHead,
        ih _ (length_dropHead_le _ _), text_append, text_cons, S.spell_plain _ h.sep_plain, h.sep]
      rfl

omit [DecidableEq α] in
theorem squeeze_append_of_ne {sep : β} {u : List β} (hu : ∀ b ∈ u, b ≠ sep) (t : List β) :
    squeeze sep (u ++ t) = u ++ squeeze sep t := by
  induction u with
  | nil => rfl
  | cons b u ih =>
      obtain ⟨hb, hu⟩ := List.forall_mem_cons.mp hu
      rw [List.cons_append, squeeze_cons_of_ne hb, ih hu]
      rfl

/-- Shortening the runs of a spelled text. -/
theorem Spells.squeeze (h : Spells S M N) (s : List α) :
    Blocks.squeeze N.sep (S.text s) = S.text (Blocks.squeeze M.sep s) := by
  induction s with
  | nil => rfl
  | cons c s ih =>
      by_cases hc : S.plain c
      · have hplain : ∀ c ∈ [M.sep, M.sep], S.plain c := by simp [h.sep_plain]
        have hrun : [N.sep, N.sep] <+: S.text s ↔ [M.sep, M.sep] <+: s := by
          rw [h.sep]
          exact prefix_text_iff hplain
        rw [text_cons, S.spell_plain c hc, List.singleton_append, Blocks.squeeze, Blocks.squeeze]
        simp only [h.eq_sep_iff hc, hrun, ih]
        split
        · rfl
        · rw [text_cons, S.spell_plain c hc]
          rfl
      · have hsep : c ≠ M.sep := fun heq => hc (heq ▸ h.sep_plain)
        rw [text_cons, squeeze_append_of_ne (h.ne_sep hc), ih, squeeze_cons_of_ne hsep, text_cons]

end Marked

end Spelling

end Blocks

end MediaBridge.Foundation
