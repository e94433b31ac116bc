import Mathlib.Data.List.DropRight
import Mathlib.Data.List.Infix
import Mathlib.Data.List.TakeWhile

/-!
# Texts with marked blocks

A block starts with an opening text and ends with the first closing text after it. This file has
the pieces outside the blocks of a text, what it means that a text keeps these pieces up to
separators next to the blocks, and the operation that shortens long runs of separators.

## Implementation notes

`squeeze` leaves two separators of a longer run. A text keeps the pieces under it exactly if no
piece has a long run inside.
-/

namespace MediaBridge.Foundation

namespace Blocks

variable {α : Type*} [DecidableEq α]

section Cut

/-- The text before and after the first occurrence of a text. -/
def cut (needle : List α) : List α → Option (List α × List α)
  | [] => if needle = [] then some ([], []) else none
  | c :: rest =>
      if needle <+: c :: rest then some ([], (c :: rest).drop needle.length)
      else (cut needle rest).map fun r => (c :: r.1, r.2)

variable {needle text before after : List α}

theorem eq_of_cut (h : cut needle text = some (before, after)) :
    text = before ++ needle ++ after := by
  induction text generalizing before with
  | nil =>
      rw [cut] at h
      split at h
      · next hempty =>
          cases h
          rw [hempty]
          rfl
      · cases h
  | cons c rest ih =>
      rw [cut] at h
      split at h
      · next hstart =>
          cases h
          obtain ⟨more, hmore⟩ := hstart
          rw [← hmore, List.drop_left, List.nil_append]
      · obtain ⟨⟨found, tail⟩, hfound, heq⟩ := Option.map_eq_some_iff.mp h
        cases heq
        rw [ih hfound]
        simp only [List.cons_append]

theorem cut_eq_none_iff : cut needle text = none ↔ ¬ needle <:+: text := by
  induction text with
  | nil => simp [cut]
  | cons c rest ih =>
      rw [cut, List.infix_cons_iff, not_or, ← ih]
      split
      · next hstart => simp [hstart]
      · next hstart => simp [hstart]

/-- A needle right at the start is found there. -/
theorem cut_append_self (hne : needle ≠ []) (after : List α) :
    cut needle (needle ++ after) = some ([], after) := by
  obtain ⟨c, rest, rfl⟩ := List.exists_cons_of_ne_nil hne
  rw [List.cons_append, cut, if_pos ⟨after, rfl⟩, ← List.cons_append, List.drop_left]

/-- What follows some occurrence is at the end of what follows the first one. -/
theorem suffix_of_cut {rest : List α} (hne : needle ≠ [])
    (h : cut needle (before ++ needle ++ after) = some (text, rest)) : after <:+ rest := by
  induction before generalizing text with
  | nil =>
      rw [List.nil_append, cut_append_self hne] at h
      cases h
      exact List.suffix_refl _
  | cons c more ih =>
      rw [List.cons_append, List.cons_append, cut] at h
      split at h
      · cases h
        have hle : needle.length ≤ (c :: more ++ needle).length := by
          rw [List.length_append]
          exact Nat.le_add_left _ _
        rw [← List.cons_append, ← List.cons_append, List.drop_append_of_le_length hle]
        exact List.suffix_append _ _
      · obtain ⟨⟨found, tail⟩, hfound, heq⟩ := Option.map_eq_some_iff.mp h
        cases heq
        exact ih hfound

theorem eq_of_cut_prefix (h : cut needle text = some (before, after)) (hstart : needle <+: text)
    (hne : needle ≠ []) : before = [] := by
  obtain ⟨rest, rfl⟩ := hstart
  rw [cut_append_self hne] at h
  cases h
  rfl

/-- A letter that the needle does not start with is before its first occurrence. -/
theorem cut_cons {c : α} (h : ¬ needle <+: c :: text) :
    cut needle (c :: text) = (cut needle text).map fun r => (c :: r.1, r.2) := by
  rw [cut, if_neg h]

omit [DecidableEq α] in
/-- A needle without a separator is on one side of it. -/
theorem prefix_append_cons {sep : α} (hsep : sep ∉ needle) :
    needle <+: before ++ sep :: after ↔ needle <+: before := by
  refine ⟨?_, fun h => h.trans (List.prefix_append _ _)⟩
  intro h
  rcases List.prefix_or_prefix_of_prefix h (List.prefix_append before _) with hshort | hlong
  · exact hshort
  · obtain ⟨more, rfl⟩ := hlong
    cases more with
    | nil =>
        rw [List.append_nil]
    | cons d more =>
        rw [List.prefix_append_right_inj, List.cons_prefix_cons] at h
        rw [h.1] at hsep
        exact absurd (List.mem_append_right _ List.mem_cons_self) hsep

omit [DecidableEq α] in
theorem not_prefix_cons {sep : α} (hsep : sep ∉ needle) (hne : needle ≠ []) :
    ¬ needle <+: sep :: text := by
  intro h
  obtain ⟨c, rest, rfl⟩ := List.exists_cons_of_ne_nil hne
  rw [List.cons_prefix_cons] at h
  exact hsep (h.1 ▸ List.mem_cons_self)

/-- A text without the needle and a separator come before its first occurrence. -/
theorem cut_append_of_absent {sep : α} (hsep : sep ∉ needle) (h : ¬ needle <:+: before) :
    cut needle (before ++ sep :: text) =
      (cut needle (sep :: text)).map fun r => (before ++ r.1, r.2) := by
  induction before with
  | nil => simp
  | cons c rest ih =>
      rw [List.infix_cons_iff, not_or] at h
      have hnot : ¬ needle <+: c :: (rest ++ sep :: text) := by
        rw [← List.cons_append, prefix_append_cons hsep]
        exact h.1
      rw [List.cons_append, cut_cons hnot, ih h.2, Option.map_map]
      rfl

end Cut

section Outside

/-- A separator and the texts that mark a block. -/
structure Markers (α : Type*) where
  sep : α
  opening : List α
  closing : List α
  opening_ne_nil : opening ≠ []
  closing_ne_nil : closing ≠ []
  sep_opening : sep ∉ opening
  sep_closing : sep ∉ closing

namespace Markers

variable (M : Markers α)

/-- The first block of a text: what is before it, inside and after it. -/
def firstBlock (text : List α) : Option (List α × List α × List α) :=
  (cut M.opening text).bind fun (before, rest) =>
    (cut M.closing rest).map fun (inner, after) => (before, inner, after)

variable {M} {text before inner after : List α}

theorem eq_of_firstBlock (h : M.firstBlock text = some (before, inner, after)) :
    text = before ++ M.opening ++ (inner ++ M.closing ++ after) := by
  obtain ⟨⟨found, rest⟩, hopening, h⟩ := Option.bind_eq_some_iff.mp h
  obtain ⟨⟨found', rest'⟩, hclosing, h⟩ := Option.map_eq_some_iff.mp h
  cases h
  rw [eq_of_cut hopening, eq_of_cut hclosing]

/-- Markers in their order make a block. -/
theorem exists_firstBlock (M : Markers α) (before inner after : List α) :
    ∃ found, M.firstBlock (before ++ M.opening ++ (inner ++ M.closing ++ after)) = some found := by
  cases hopening : cut M.opening (before ++ M.opening ++ (inner ++ M.closing ++ after)) with
  | none =>
      rw [cut_eq_none_iff] at hopening
      exact absurd ⟨before, _, rfl⟩ hopening
  | some first =>
      obtain ⟨lead, rest⟩ := first
      have hrest := suffix_of_cut M.opening_ne_nil hopening
      cases hclosing : cut M.closing rest with
      | none =>
          rw [cut_eq_none_iff] at hclosing
          have hinner : M.closing <:+: inner ++ M.closing ++ after := ⟨inner, after, rfl⟩
          exact absurd (hinner.trans hrest.isInfix) hclosing
      | some last =>
          refine ⟨(lead, last), ?_⟩
          rw [firstBlock, hopening]
          exact congrArg (Option.map _) hclosing

theorem length_of_firstBlock (h : M.firstBlock text = some (before, inner, after)) :
    after.length < text.length := by
  have hlength := congrArg List.length (eq_of_firstBlock h)
  have hpos := List.length_pos_of_ne_nil M.opening_ne_nil
  simp only [List.length_append] at hlength
  omega

variable (M)

/-- The pieces of a text outside its blocks. -/
def outside (text : List α) : List (List α) :=
  match _h : M.firstBlock text with
  | none => [text]
  | some (before, _, after) => before :: outside after
termination_by text.length
decreasing_by exact length_of_firstBlock _h

variable {M}

theorem outside_of_none (h : M.firstBlock text = none) : M.outside text = [text] := by
  rw [outside]
  split
  · rfl
  · next hsome =>
      rw [h] at hsome
      cases hsome

theorem outside_of_some (h : M.firstBlock text = some (before, inner, after)) :
    M.outside text = before :: M.outside after := by
  rw [outside]
  split
  · next hnone =>
      rw [h] at hnone
      cases hnone
  · next hsome =>
      rw [h] at hsome
      cases hsome
      rfl

/-- Induction over the blocks of a text. -/
theorem blocks_induct {P : List α → Prop} (none : ∀ text, M.firstBlock text = none → P text)
    (some : ∀ text before inner after, M.firstBlock text = some (before, inner, after) →
      (∀ t : List α, t.length ≤ after.length → P t) → P text) (text : List α) : P text := by
  induction hn : text.length using Nat.strong_induction_on generalizing text with
  | _ n ih =>
      cases hblock : M.firstBlock text with
      | none => exact none text hblock
      | some found =>
          obtain ⟨before, inner, after⟩ := found
          apply some text before inner after hblock
          intro t ht
          exact ih t.length (hn ▸ Nat.lt_of_le_of_lt ht (length_of_firstBlock hblock)) t rfl

/-- What has no opening marker is in front of the first block. -/
theorem firstBlock_append (h : ¬ M.opening <:+: before) :
    M.firstBlock (before ++ M.sep :: text) =
      (M.firstBlock (M.sep :: text)).map fun r => (before ++ r.1, r.2) := by
  unfold firstBlock
  rw [cut_append_of_absent M.sep_opening h, Option.bind_map, Option.map_bind]
  congr 1
  funext ⟨found, rest⟩
  simp only [Function.comp_apply, Option.map_map]
  rfl

/-- A text without an opening marker is in front of the first piece. -/
theorem outside_append (h : ¬ M.opening <:+: before) :
    M.outside (before ++ M.sep :: text) =
      (M.outside (M.sep :: text)).modifyHead (before ++ ·) := by
  cases hblock : M.firstBlock (M.sep :: text) with
  | none =>
      rw [outside_of_none hblock, outside_of_none (by rw [firstBlock_append h, hblock]; rfl)]
      rfl
  | some found =>
      obtain ⟨start, inner, after⟩ := found
      rw [outside_of_some hblock, outside_of_some (by rw [firstBlock_append h, hblock]; rfl)]
      rfl

theorem firstBlock_cons_sep : M.firstBlock (M.sep :: text) =
    (M.firstBlock text).map fun r => (M.sep :: r.1, r.2) := by
  unfold firstBlock
  rw [cut_cons (not_prefix_cons M.sep_opening M.opening_ne_nil), Option.bind_map, Option.map_bind]
  congr 1
  funext ⟨found, rest⟩
  simp only [Function.comp_apply, Option.map_map]
  rfl

/-- A separator in front of a text is in front of its first piece. -/
theorem outside_cons_sep : M.outside (M.sep :: text) =
    (M.outside text).modifyHead (M.sep :: ·) := by
  cases h : M.firstBlock text with
  | none =>
      rw [outside_of_none h, outside_of_none (by rw [firstBlock_cons_sep, h]; rfl)]
      rfl
  | some found =>
      obtain ⟨before, inner, after⟩ := found
      rw [outside_of_some h, outside_of_some (by rw [firstBlock_cons_sep, h]; rfl)]
      rfl

end Markers

end Outside

section Woven

variable {sep : α}

/-- Pieces of a text with nothing but separators between them. -/
inductive Woven (sep : α) : List (List α) → List α → Prop
  | last (piece : List α) : Woven sep [piece] piece
  | cons {piece next gap text : List α} {rest : List (List α)} : (∀ c ∈ gap, c = sep) →
      Woven sep (next :: rest) text → Woven sep (piece :: next :: rest) (piece ++ (gap ++ text))

/-- A text without the separators at its start. -/
def trimStart (sep : α) (text : List α) : List α := text.dropWhile (· = sep)

/-- A text without the separators at its end. -/
def trimEnd (sep : α) (text : List α) : List α := text.rdropWhile (· = sep)

/-- Pieces that follow a block, without the separators next to blocks. -/
def trimAfter (sep : α) : List (List α) → List (List α)
  | [] => []
  | [piece] => [trimStart sep piece]
  | piece :: next :: rest =>
      trimEnd sep (trimStart sep piece) :: trimAfter sep (next :: rest)

/-- The pieces of a text without the separators next to blocks. -/
def cores (sep : α) : List (List α) → List (List α)
  | [] => []
  | [piece] => [piece]
  | piece :: next :: rest => trimEnd sep piece :: trimAfter sep (next :: rest)

theorem exists_trimStart (sep : α) (text : List α) :
    ∃ gap, (∀ c ∈ gap, c = sep) ∧ text = gap ++ trimStart sep text := by
  refine ⟨text.takeWhile (· = sep), ?_, (List.takeWhile_append_dropWhile ..).symm⟩
  intro c hc
  simpa using List.mem_takeWhile_imp hc

theorem exists_trimEnd (sep : α) (text : List α) :
    ∃ gap, (∀ c ∈ gap, c = sep) ∧ text = trimEnd sep text ++ gap := by
  refine ⟨text.rtakeWhile (· = sep), ?_, (List.rdropWhile_append_rtakeWhile ..).symm⟩
  intro c hc
  simpa using List.mem_rtakeWhile_imp hc

theorem trimStart_cons_self (sep : α) (text : List α) :
    trimStart sep (sep :: text) = trimStart sep text := by
  rw [trimStart, List.dropWhile_cons_of_pos (by simp), trimStart]

theorem trimEnd_concat_self (sep : α) (text : List α) :
    trimEnd sep (text ++ [sep]) = trimEnd sep text :=
  List.rdropWhile_concat_pos _ _ _ (decide_eq_true rfl)

theorem trimEnd_trimStart_concat (sep : α) (text : List α) :
    trimEnd sep (trimStart sep (text ++ [sep])) = trimEnd sep (trimStart sep text) := by
  rw [trimStart, List.dropWhile_append, trimStart]
  split
  · next hempty =>
      rw [List.isEmpty_iff.mp hempty, List.dropWhile_cons_of_pos (by simp), List.dropWhile_nil]
  · exact trimEnd_concat_self sep _

theorem trimAfter_modifyHead (pieces : List (List α)) :
    trimAfter sep (pieces.modifyHead (sep :: ·)) = trimAfter sep pieces := by
  cases pieces with
  | nil => rfl
  | cons piece rest =>
      cases rest with
      | nil => exact congrArg (fun p => [p]) (trimStart_cons_self sep piece)
      | cons next rest => exact congrArg (trimEnd sep · :: _) (trimStart_cons_self sep piece)

end Woven

section Strip

variable (M : Markers α)

/-- A text without one separator at its start. -/
def dropHead (sep : α) : List α → List α
  | [] => []
  | c :: rest => if c = sep then rest else c :: rest

/-- A text without one separator at its end. -/
def dropLast (sep : α) (text : List α) : List α :=
  if text.getLast? = some sep then text.dropLast else text

theorem dropHead_suffix (sep : α) (text : List α) : dropHead sep text <:+ text := by
  unfold dropHead
  split
  · exact List.suffix_refl _
  · split
    · exact List.suffix_cons _ _
    · exact List.suffix_refl _

theorem length_dropHead_le (sep : α) (text : List α) :
    (dropHead sep text).length ≤ text.length :=
  (dropHead_suffix sep text).length_le

theorem dropLast_cons {sep c : α} {text : List α} (h : ¬ (c = sep ∧ text = [])) :
    dropLast sep (c :: text) = c :: dropLast sep text := by
  cases text with
  | nil =>
      have hc : c ≠ sep := fun heq => h ⟨heq, rfl⟩
      simp [dropLast, hc]
  | cons d rest =>
      rw [dropLast, dropLast, List.getLast?_cons_cons]
      split
      · rfl
      · rfl

/-- A text with each block and a separator on each side of it replaced by one separator. -/
def strip (text : List α) : List α :=
  match _h : M.firstBlock text with
  | none => text
  | some (before, _, after) =>
      dropLast M.sep before ++ M.sep :: strip (dropHead M.sep after)
termination_by text.length
decreasing_by exact Nat.lt_of_le_of_lt (length_dropHead_le _ _) (Markers.length_of_firstBlock _h)

variable {M} {text before inner after : List α}

theorem strip_of_none (h : M.firstBlock text = none) : strip M text = text := by
  rw [strip]
  split
  · rfl
  · next hsome =>
      rw [h] at hsome
      cases hsome

theorem strip_of_some (h : M.firstBlock text = some (before, inner, after)) :
    strip M text = dropLast M.sep before ++ M.sep :: strip M (dropHead M.sep after) := by
  rw [strip]
  split
  · next hnone =>
      rw [h] at hnone
      cases hnone
  · next hsome =>
      rw [h] at hsome
      cases hsome
      rfl

theorem trimEnd_dropLast (sep : α) (text : List α) :
    trimEnd sep (dropLast sep text) = trimEnd sep text := by
  unfold dropLast
  split
  · next h =>
      obtain ⟨front, rfl⟩ := List.getLast?_eq_some_iff.mp h
      rw [List.dropLast_concat, trimEnd_concat_self]
  · rfl

theorem trimEnd_trimStart_dropLast (sep : α) (text : List α) :
    trimEnd sep (trimStart sep (dropLast sep text)) = trimEnd sep (trimStart sep text) := by
  unfold dropLast
  split
  · next h =>
      obtain ⟨front, rfl⟩ := List.getLast?_eq_some_iff.mp h
      rw [List.dropLast_concat, trimEnd_trimStart_concat]
  · rfl

theorem trimAfter_dropHead (M : Markers α) (text : List α) :
    trimAfter M.sep (M.outside (dropHead M.sep text)) = trimAfter M.sep (M.outside text) := by
  cases text with
  | nil => rfl
  | cons c rest =>
      by_cases hc : c = M.sep
      · rw [dropHead, if_pos hc, hc, Markers.outside_cons_sep, trimAfter_modifyHead]
      · rw [dropHead, if_neg hc]

omit [DecidableEq α] in
/-- A separator between a piece with separators behind it and the pieces that follow. -/
theorem Woven.cons_sep {sep : α} {piece tail gap rest : List α} {pieces : List (List α)}
    (hne : pieces ≠ []) (htail : ∀ c ∈ tail, c = sep) (hgap : ∀ c ∈ gap, c = sep)
    (hrest : Woven sep pieces rest) :
    Woven sep (piece :: pieces) ((piece ++ tail) ++ sep :: (gap ++ rest)) := by
  obtain ⟨next, more, rfl⟩ := List.exists_cons_of_ne_nil hne
  have heq : (piece ++ tail) ++ sep :: (gap ++ rest) = piece ++ ((tail ++ sep :: gap) ++ rest) := by
    simp only [List.append_assoc, List.cons_append]
  rw [heq]
  refine .cons ?_ hrest
  intro c hc
  rcases List.mem_append.mp hc with h | h
  · exact htail c h
  · rcases List.mem_cons.mp h with h | h
    · exact h
    · exact hgap c h

theorem trimAfter_cons {sep : α} {piece : List α} {pieces : List (List α)} (hne : pieces ≠ []) :
    trimAfter sep (piece :: pieces) = trimEnd sep (trimStart sep piece) :: trimAfter sep pieces := by
  obtain ⟨next, rest, rfl⟩ := List.exists_cons_of_ne_nil hne
  rfl

theorem cores_cons {sep : α} {piece : List α} {pieces : List (List α)} (hne : pieces ≠ []) :
    cores sep (piece :: pieces) = trimEnd sep piece :: trimAfter sep pieces := by
  obtain ⟨next, rest, rfl⟩ := List.exists_cons_of_ne_nil hne
  rfl

theorem trimAfter_ne_nil {sep : α} {pieces : List (List α)} (hne : pieces ≠ []) :
    trimAfter sep pieces ≠ [] := by
  obtain ⟨piece, rest, rfl⟩ := List.exists_cons_of_ne_nil hne
  cases rest <;> exact List.cons_ne_nil _ _

theorem outside_ne_nil (M : Markers α) (text : List α) : M.outside text ≠ [] := by
  cases h : M.firstBlock text with
  | none =>
      rw [Markers.outside_of_none h]
      exact List.cons_ne_nil _ _
  | some found =>
      rw [Markers.outside_of_some h]
      exact List.cons_ne_nil _ _

/-- What is left after a first block, up to separators at its start. -/
theorem woven_strip_after (M : Markers α) (text : List α) :
    ∃ gap rest, (∀ c ∈ gap, c = M.sep) ∧ strip M text = gap ++ rest ∧
      Woven M.sep (trimAfter M.sep (M.outside text)) rest := by
  induction text using Markers.blocks_induct (M := M) with
  | none text h =>
      obtain ⟨gap, hgap, htext⟩ := exists_trimStart M.sep text
      rw [strip_of_none h, Markers.outside_of_none h]
      exact ⟨gap, _, hgap, htext, .last _⟩
  | some text before inner after h ih =>
      obtain ⟨gap, rest, hgap, hstrip, hwoven⟩ := ih _ (length_dropHead_le M.sep after)
      obtain ⟨lead, hlead, hbefore⟩ := exists_trimStart M.sep (dropLast M.sep before)
      obtain ⟨tail, htail, hcore⟩ :=
        exists_trimEnd M.sep (trimStart M.sep (dropLast M.sep before))
      rw [trimEnd_trimStart_dropLast] at hcore
      rw [trimAfter_dropHead] at hwoven
      refine ⟨lead, (trimEnd M.sep (trimStart M.sep before) ++ tail) ++ M.sep :: (gap ++ rest),
        hlead, ?_, ?_⟩
      · rw [strip_of_some h, hstrip, hbefore, hcore, List.append_assoc]
      · rw [Markers.outside_of_some h, trimAfter_cons (outside_ne_nil M after)]
        exact .cons_sep (trimAfter_ne_nil (outside_ne_nil M after)) htail hgap hwoven

/-- Stripping keeps the pieces outside the blocks. -/
theorem woven_strip (M : Markers α) (text : List α) :
    Woven M.sep (cores M.sep (M.outside text)) (strip M text) := by
  cases h : M.firstBlock text with
  | none =>
      rw [strip_of_none h, Markers.outside_of_none h]
      exact .last text
  | some found =>
      obtain ⟨before, inner, after⟩ := found
      obtain ⟨gap, rest, hgap, hstrip, hwoven⟩ := woven_strip_after M (dropHead M.sep after)
      obtain ⟨tail, htail, hcore⟩ := exists_trimEnd M.sep (dropLast M.sep before)
      rw [trimEnd_dropLast] at hcore
      rw [trimAfter_dropHead] at hwoven
      rw [strip_of_some h, hstrip, hcore, Markers.outside_of_some h,
        cores_cons (outside_ne_nil M after)]
      exact .cons_sep (trimAfter_ne_nil (outside_ne_nil M after)) htail hgap hwoven

end Strip

section Squeeze

variable {sep d : α} {text piece gap : List α}

/-- A text with two separators for each longer run. -/
def squeeze (sep : α) : List α → List α
  | [] => []
  | c :: rest =>
      if c = sep ∧ [sep, sep] <+: rest then squeeze sep rest else c :: squeeze sep rest

/-- A run of three separators. -/
def longRun (sep : α) : List α := [sep, sep, sep]

theorem squeeze_cons_of_ne (hd : d ≠ sep) (text : List α) :
    squeeze sep (d :: text) = d :: squeeze sep text := by
  rw [squeeze, if_neg fun h => hd h.1]

theorem squeeze_append_cons (hd : d ≠ sep) (piece text : List α) :
    squeeze sep (piece ++ d :: text) = squeeze sep piece ++ d :: squeeze sep text := by
  induction piece with
  | nil => exact squeeze_cons_of_ne hd text
  | cons c rest ih =>
      have hnot : d ∉ [sep, sep] := by simpa using hd
      rw [List.cons_append, squeeze, squeeze, ih]
      simp only [prefix_append_cons hnot]
      split
      · rfl
      · rfl

/-- A text without a long run stays as it is. -/
theorem squeeze_of_short (h : ¬ longRun sep <:+: text) : squeeze sep text = text := by
  induction text with
  | nil => rfl
  | cons c rest ih =>
      rw [List.infix_cons_iff, not_or, longRun, List.cons_prefix_cons] at h
      rw [squeeze, if_neg fun hboth => h.1 ⟨hboth.1.symm, hboth.2⟩, ih h.2]

omit [DecidableEq α] in
theorem not_prefix_of_head? (h : text.head? ≠ some sep) : ¬ [sep, sep] <+: text := by
  rintro ⟨rest, rfl⟩
  exact h rfl

/-- A single separator stays. -/
theorem squeeze_single (h : text.head? ≠ some sep) :
    squeeze sep (sep :: text) = sep :: squeeze sep text := by
  rw [squeeze, if_neg fun hboth => not_prefix_of_head? h hboth.2]

/-- A long run is shortened to two separators. -/
theorem squeeze_run (h : text.head? ≠ some sep) (n : Nat) :
    squeeze sep (List.replicate (n + 2) sep ++ text) = sep :: sep :: squeeze sep text := by
  induction n with
  | zero =>
      have hnot : ¬ [sep, sep] <+: sep :: text := by
        rintro ⟨rest, heq⟩
        cases heq
        exact h rfl
      change squeeze sep (sep :: sep :: text) = _
      rw [squeeze, if_neg fun hboth => hnot hboth.2, squeeze_single h]
  | succ n ih =>
      have hstart : [sep, sep] <+: List.replicate (n + 2) sep ++ text :=
        ⟨List.replicate n sep ++ text, rfl⟩
      rw [List.replicate_succ, List.cons_append, squeeze, if_pos ⟨rfl, hstart⟩, ih]

theorem head?_squeeze (sep : α) (text : List α) : (squeeze sep text).head? = text.head? := by
  induction text with
  | nil => rfl
  | cons c rest ih =>
      rw [squeeze]
      split
      · next h =>
          obtain ⟨more, hmore⟩ := h.2
          rw [ih, ← hmore, h.1]
          rfl
      · rfl

/-- Two separators at the start were there before. -/
theorem prefix_of_squeeze (h : [sep, sep] <+: squeeze sep text) : [sep, sep] <+: text := by
  cases text with
  | nil => exact h
  | cons c rest =>
      have hstart : ∀ t : List α, [sep] <+: t ↔ t.head? = some sep := by
        intro t
        cases t with
        | nil => simp
        | cons e t => simp [List.cons_prefix_cons, eq_comm]
      rw [squeeze] at h
      rw [List.cons_prefix_cons]
      split at h
      · next hlong => exact ⟨hlong.1.symm, (List.prefix_append [sep] [sep]).trans hlong.2⟩
      · rw [List.cons_prefix_cons, hstart, head?_squeeze, ← hstart] at h
        exact h

theorem not_infix_squeeze (sep : α) (text : List α) : ¬ longRun sep <:+: squeeze sep text := by
  induction text with
  | nil => exact fun h => absurd (List.infix_nil.mp h) (List.cons_ne_nil _ _)
  | cons c rest ih =>
      rw [squeeze]
      split
      · exact ih
      · next hboth =>
          rw [List.infix_cons_iff, not_or, longRun, List.cons_prefix_cons]
          refine ⟨?_, ih⟩
          rintro ⟨hc, hstart⟩
          exact hboth ⟨hc.symm, prefix_of_squeeze hstart⟩

theorem squeeze_subset : squeeze sep text ⊆ text := by
  induction text with
  | nil => exact List.Subset.refl _
  | cons c rest ih =>
      rw [squeeze]
      split
      · exact List.subset_cons_of_subset c ih
      · exact List.cons_subset_cons c ih

/-- Pieces without separators at their inner ends. -/
def TrimmedAfter (sep : α) : List (List α) → Prop
  | [] => True
  | [piece] => piece.head? ≠ some sep
  | piece :: next :: rest =>
      (piece.head? ≠ some sep ∧ piece.getLast? ≠ some sep) ∧ TrimmedAfter sep (next :: rest)

/-- Pieces without separators at their ends next to other pieces. -/
def Trimmed (sep : α) : List (List α) → Prop
  | [] => True
  | [_] => True
  | piece :: next :: rest => piece.getLast? ≠ some sep ∧ TrimmedAfter sep (next :: rest)

theorem squeeze_append (hlast : piece.getLast? ≠ some sep) (hshort : ¬ longRun sep <:+: piece)
    (text : List α) : squeeze sep (piece ++ text) = piece ++ squeeze sep text := by
  cases piece using List.reverseRecOn with
  | nil => rfl
  | append_singleton front d =>
      have hd : d ≠ sep := by
        rintro rfl
        exact hlast List.getLast?_concat
      have hfront : ¬ longRun sep <:+: front :=
        fun h => hshort (h.trans (List.prefix_append _ _).isInfix)
      rw [List.append_assoc, List.singleton_append, squeeze_append_cons hd,
        squeeze_of_short hfront, List.append_assoc, List.singleton_append]

/-- Behind a run of separators, shortened runs keep trimmed pieces. -/
theorem Woven.squeeze_after {pieces : List (List α)} (h : Woven sep pieces text)
    (htrimmed : TrimmedAfter sep pieces) (hshort : ∀ p ∈ pieces, ¬ longRun sep <:+: p)
    (hgap : ∀ c ∈ gap, c = sep) :
    ∃ gap' text', (∀ c ∈ gap', c = sep) ∧ squeeze sep (gap ++ text) = gap' ++ text' ∧
      Woven sep pieces text' := by
  have hsqueezed : ∀ {gap : List α}, (∀ c ∈ gap, c = sep) → ∀ c ∈ squeeze sep gap, c = sep :=
    fun hgap c hc => hgap c (squeeze_subset hc)
  induction h generalizing gap with
  | last piece =>
      cases piece with
      | nil =>
          rw [List.append_nil]
          exact ⟨_, [], hsqueezed hgap, (List.append_nil _).symm, .last []⟩
      | cons d rest =>
          have hd : d ≠ sep := fun heq => htrimmed (congrArg some heq)
          refine ⟨_, d :: rest, hsqueezed hgap, ?_, .last _⟩
          rw [squeeze_append_cons hd, ← squeeze_cons_of_ne hd,
            squeeze_of_short (hshort _ (List.mem_singleton_self _))]
  | @cons piece next between text rest hbetween hrest ih =>
      obtain ⟨⟨hhead, hlast⟩, hafter⟩ := htrimmed
      obtain ⟨hpiece, hothers⟩ := List.forall_mem_cons.mp hshort
      cases piece with
      | nil =>
          have hboth : ∀ c ∈ gap ++ between, c = sep :=
            fun c hc => (List.mem_append.mp hc).elim (hgap c) (hbetween c)
          obtain ⟨gap', text', hgap', heq, hwoven⟩ := ih hafter hothers hboth
          refine ⟨gap', _, hgap', ?_, .cons (fun c hc => absurd hc List.not_mem_nil) hwoven⟩
          rw [List.nil_append, ← List.append_assoc, heq]
          rfl
      | cons d more =>
          obtain ⟨gap', text', hgap', heq, hwoven⟩ := ih hafter hothers hbetween
          have hd : d ≠ sep := fun heq => hhead (congrArg some heq)
          refine ⟨_, _, hsqueezed hgap, ?_, .cons hgap' hwoven⟩
          rw [List.cons_append, squeeze_append_cons hd, ← squeeze_cons_of_ne hd,
            ← List.cons_append, squeeze_append hlast hpiece, heq]

/-- Shortened runs keep trimmed pieces without long runs. -/
theorem Woven.squeeze {pieces : List (List α)} (h : Woven sep pieces text)
    (htrimmed : Trimmed sep pieces) (hshort : ∀ p ∈ pieces, ¬ longRun sep <:+: p) :
    Woven sep pieces (Blocks.squeeze sep text) := by
  cases h with
  | last =>
      rw [squeeze_of_short (hshort _ (List.mem_singleton_self _))]
      exact .last text
  | cons hgap hrest =>
      obtain ⟨hpiece, hothers⟩ := List.forall_mem_cons.mp hshort
      obtain ⟨gap', text', hgap', heq, hwoven⟩ := hrest.squeeze_after htrimmed.2 hothers hgap
      rw [squeeze_append htrimmed.1 hpiece, heq]
      exact .cons hgap' hwoven

omit [DecidableEq α] in
/-- Each piece is somewhere in the text. -/
theorem Woven.within {pieces : List (List α)} (h : Woven sep pieces text) {p : List α}
    (hp : p ∈ pieces) : p <:+: text := by
  induction h with
  | last piece =>
      rw [List.mem_singleton.mp hp]
  | @cons piece next gap text rest hgap hrest ih =>
      rcases List.mem_cons.mp hp with rfl | hmore
      · exact (List.prefix_append _ _).isInfix
      · exact (ih hmore).trans
          ((List.suffix_append gap text).trans (List.suffix_append piece _)).isInfix

theorem head?_trimStart (sep : α) (text : List α) : (trimStart sep text).head? ≠ some sep := by
  intro h
  have hhead := List.head?_dropWhile_not (fun c => decide (c = sep)) text
  rw [← trimStart, h] at hhead
  simp at hhead

theorem getLast?_trimEnd (sep : α) (text : List α) : (trimEnd sep text).getLast? ≠ some sep := by
  intro h
  rw [trimEnd, List.rdropWhile, List.getLast?_reverse] at h
  exact head?_trimStart sep _ h

theorem trimEnd_of_getLast? (h : text.getLast? ≠ some sep) : trimEnd sep text = text := by
  apply List.rdropWhile_eq_self_iff.mpr
  intro hne hlast
  apply h
  rw [List.getLast?_eq_some_getLast hne]
  exact congrArg some (of_decide_eq_true hlast)

/-- Taking separators off the end brings none to the start. -/
theorem head?_trimEnd (h : text.head? ≠ some sep) : (trimEnd sep text).head? ≠ some sep := by
  obtain ⟨gap, -, heq⟩ := exists_trimEnd sep text
  cases htrim : trimEnd sep text with
  | nil => rintro ⟨⟩
  | cons d rest =>
      rw [htrim] at heq
      rw [heq] at h
      exact h

theorem trimmedAfter_trimAfter (sep : α) (pieces : List (List α)) :
    TrimmedAfter sep (trimAfter sep pieces) := by
  induction pieces with
  | nil => trivial
  | cons piece pieces ih =>
      cases pieces with
      | nil => exact head?_trimStart sep piece
      | cons next rest =>
          have hends : (trimEnd sep (trimStart sep piece)).head? ≠ some sep ∧
              (trimEnd sep (trimStart sep piece)).getLast? ≠ some sep :=
            ⟨head?_trimEnd (head?_trimStart sep piece), getLast?_trimEnd sep _⟩
          rw [trimAfter]
          revert ih
          cases hafter : trimAfter sep (next :: rest) with
          | nil => exact absurd hafter (trimAfter_ne_nil (List.cons_ne_nil _ _))
          | cons core more => exact fun ih => ⟨hends, ih⟩

theorem trimmed_cores (sep : α) (pieces : List (List α)) : Trimmed sep (cores sep pieces) := by
  cases pieces with
  | nil => trivial
  | cons piece pieces =>
      cases pieces with
      | nil => trivial
      | cons next rest =>
          rw [cores]
          have hafter := trimmedAfter_trimAfter sep (next :: rest)
          revert hafter
          cases heq : trimAfter sep (next :: rest) with
          | nil => exact absurd heq (trimAfter_ne_nil (List.cons_ne_nil _ _))
          | cons core more => exact fun hafter => ⟨getLast?_trimEnd sep piece, hafter⟩

/-- Stripping a text and then shortening its runs keeps the pieces outside the blocks exactly if no
piece has a long run. -/
theorem woven_squeeze_strip_iff (M : Markers α) (text : List α) :
    Woven M.sep (cores M.sep (M.outside text)) (Blocks.squeeze M.sep (strip M text)) ↔
      ∀ p ∈ cores M.sep (M.outside text), ¬ longRun M.sep <:+: p := by
  constructor
  · intro h p hp hlong
    exact not_infix_squeeze M.sep _ (hlong.trans (h.within hp))
  · exact fun h => (woven_strip M text).squeeze (trimmed_cores _ _) h

end Squeeze

section Solid

variable {sep : α} {text piece gap : List α} {pieces : List (List α)}

/-- A text without its separators. -/
def solid (sep : α) (text : List α) : List α := text.filter (· ≠ sep)

theorem solid_append (sep : α) (text more : List α) :
    solid sep (text ++ more) = solid sep text ++ solid sep more :=
  List.filter_append ..

theorem solid_eq_nil_iff : solid sep text = [] ↔ ∀ c ∈ text, c = sep := by
  simp [solid, List.filter_eq_nil_iff]

theorem solid_squeeze (sep : α) (text : List α) : solid sep (squeeze sep text) = solid sep text := by
  induction text with
  | nil => rfl
  | cons c rest ih =>
      rw [squeeze]
      split
      · next h => rw [ih, h.1, solid, solid, List.filter_cons_of_neg (by simp)]
      · rw [solid, solid, List.filter_cons, List.filter_cons]
        split
        · exact congrArg (c :: ·) ih
        · exact ih

theorem solid_trimStart (sep : α) (text : List α) :
    solid sep (trimStart sep text) = solid sep text := by
  obtain ⟨gap, hgap, htext⟩ := exists_trimStart sep text
  have hsolid := congrArg (solid sep) htext
  rw [solid_append, solid_eq_nil_iff.mpr hgap, List.nil_append] at hsolid
  exact hsolid.symm

theorem solid_trimEnd (sep : α) (text : List α) :
    solid sep (trimEnd sep text) = solid sep text := by
  obtain ⟨gap, hgap, htext⟩ := exists_trimEnd sep text
  have hsolid := congrArg (solid sep) htext
  rw [solid_append, solid_eq_nil_iff.mpr hgap, List.append_nil] at hsolid
  exact hsolid.symm

/-- Separators behind a text are all taken off with it. -/
theorem trimEnd_append (hgap : ∀ c ∈ gap, c = sep) (text : List α) :
    trimEnd sep (text ++ gap) = trimEnd sep text := by
  induction gap using List.reverseRecOn with
  | nil => rw [List.append_nil]
  | append_singleton front d ih =>
      obtain rfl : d = sep := hgap d (List.mem_append_right _ List.mem_cons_self)
      rw [← List.append_assoc, trimEnd_concat_self,
        ih fun c hc => hgap c (List.mem_append_left _ hc)]

/-- Trimming takes separators only. -/
theorem map_solid_trimAfter (sep : α) (pieces : List (List α)) :
    (trimAfter sep pieces).map (solid sep) = pieces.map (solid sep) := by
  induction pieces with
  | nil => rfl
  | cons piece pieces ih =>
      cases pieces with
      | nil => exact congrArg (fun p => [p]) (solid_trimStart sep piece)
      | cons next rest =>
          rw [trimAfter, List.map_cons, ih, solid_trimEnd, solid_trimStart]
          rfl

theorem map_solid_cores (sep : α) (pieces : List (List α)) :
    (cores sep pieces).map (solid sep) = pieces.map (solid sep) := by
  cases pieces with
  | nil => rfl
  | cons piece pieces =>
      cases pieces with
      | nil => rfl
      | cons next rest =>
          rw [cores, List.map_cons, map_solid_trimAfter, solid_trimEnd]
          rfl

/-- Nothing is left of pieces that are separators only. -/
theorem eq_nil_of_mem_trimAfter (h : ∀ p ∈ pieces, ∀ c ∈ p, c = sep) :
    ∀ p ∈ trimAfter sep pieces, p = [] := by
  have hstart : ∀ p ∈ pieces, trimStart sep p = [] := by
    intro p hp
    exact List.dropWhile_eq_nil_iff.mpr fun c hc => decide_eq_true (h p hp c hc)
  induction pieces with
  | nil => exact List.forall_mem_nil _
  | cons piece pieces ih =>
      obtain ⟨hpiece, hrest⟩ := List.forall_mem_cons.mp hstart
      cases pieces with
      | nil => exact List.forall_mem_singleton.mpr hpiece
      | cons next rest =>
          rw [trimAfter, hpiece]
          exact List.forall_mem_cons.mpr
            ⟨rfl, ih (List.forall_mem_cons.mp h).2 hrest⟩

/-- A text with woven pieces has nothing else but separators. -/
theorem Woven.solid_eq (h : Woven sep pieces text) :
    solid sep text = (pieces.map (solid sep)).flatten := by
  induction h with
  | last piece => simp
  | cons hgap _ ih =>
      rw [solid_append, solid_append, solid_eq_nil_iff.mpr hgap, ih]
      rfl

/-- A first piece with nothing but separators behind it. -/
theorem Woven.exists_gap (h : Woven sep (piece :: pieces) text) (hnil : ∀ p ∈ pieces, p = []) :
    ∃ gap, (∀ c ∈ gap, c = sep) ∧ text = piece ++ gap := by
  cases h with
  | last => exact ⟨[], List.forall_mem_nil _, (List.append_nil _).symm⟩
  | @cons _ next gap more rest hgap hmore =>
      refine ⟨gap ++ more, ?_, rfl⟩
      apply solid_eq_nil_iff.mp
      rw [solid_append, solid_eq_nil_iff.mpr hgap, hmore.solid_eq, List.nil_append,
        List.flatten_eq_nil_iff]
      intro t ht
      obtain ⟨p, hp, rfl⟩ := List.mem_map.mp ht
      rw [hnil p hp]
      rfl

/-- What stripping and shortening keep of a text. -/
theorem solid_squeeze_strip (M : Markers α) (text : List α) :
    solid M.sep (squeeze M.sep (strip M text)) = ((M.outside text).map (solid M.sep)).flatten := by
  rw [solid_squeeze, (woven_strip M text).solid_eq, map_solid_cores]

end Solid

end Blocks

end MediaBridge.Foundation
