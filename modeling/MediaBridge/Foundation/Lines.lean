import MediaBridge.Foundation.Text

/-!
# Lines and blocks of a text

`str.splitlines`, universal newlines, and the blocks that blank lines end. What is left
after the last complete block is all that a reader of chunks has to keep.
-/

namespace MediaBridge.Foundation

namespace Str

def lineFeed : CodePoint := cp 10

def carriageReturn : CodePoint := cp 13

/-- The line boundaries of `str.splitlines`. -/
def isLineBreak (c : CodePoint) : Bool :=
  (10 ≤ c.val && c.val ≤ 13) || (0x1C ≤ c.val && c.val ≤ 0x1E) || c.val == 0x85 ||
    c.val == 0x2028 || c.val == 0x2029

/-- Add a character to the first line. -/
def consLine (c : CodePoint) : List Str → List Str
  | [] => [[c]]
  | line :: lines => (c :: line) :: lines

/-- `s.splitlines()`. -/
def splitlines : Str → List Str
  | [] => []
  | [c] => if isLineBreak c then [[]] else [[c]]
  | c :: d :: rest =>
      if c = carriageReturn ∧ d = lineFeed then [] :: splitlines rest
      else if isLineBreak c then [] :: splitlines (d :: rest)
      else consLine c (splitlines (d :: rest))

/-- Universal newlines: what reading in text mode makes of line ends. -/
def universalNewlines : Str → Str
  | [] => []
  | c :: rest =>
      if c = carriageReturn then
        if rest.head? = some lineFeed then universalNewlines rest
        else lineFeed :: universalNewlines rest
      else c :: universalNewlines rest

theorem splitlines_singleton (c : CodePoint) :
    splitlines [c] = if isLineBreak c then [[]] else [[c]] := rfl

theorem splitlines_cons_cons (c d : CodePoint) (rest : Str) :
    splitlines (c :: d :: rest) =
      if c = carriageReturn ∧ d = lineFeed then [] :: splitlines rest
      else if isLineBreak c then [] :: splitlines (d :: rest)
      else consLine c (splitlines (d :: rest)) := rfl

theorem universalNewlines_cons (c : CodePoint) (rest : Str) :
    universalNewlines (c :: rest) =
      if c = carriageReturn then
        if rest.head? = some lineFeed then universalNewlines rest
        else lineFeed :: universalNewlines rest
      else c :: universalNewlines rest := rfl

theorem encodable_universalNewlines {text : Str} (h : encodable text = true) :
    encodable (universalNewlines text) = true := by
  induction text with
  | nil => rfl
  | cons c rest ih =>
      rw [encodable, List.all_cons, Bool.and_eq_true] at h
      have hrest := ih h.2
      rw [universalNewlines_cons]
      split_ifs
      · exact hrest
      · exact (List.all_cons ..).trans (Bool.and_eq_true_iff.mpr ⟨by decide, hrest⟩)
      · exact (List.all_cons ..).trans (Bool.and_eq_true_iff.mpr ⟨h.1, hrest⟩)

/-- Text without carriage returns stays as it is. -/
theorem universalNewlines_eq_self {text : Str} (h : ∀ c ∈ text, c ≠ carriageReturn) :
    universalNewlines text = text := by
  induction text with
  | nil => rfl
  | cons c rest ih =>
      obtain ⟨hc, hrest⟩ := List.forall_mem_cons.mp h
      rw [universalNewlines_cons, if_neg hc, ih hrest]

/-- Add a character to the first block, or to what is left. -/
def consBlock (c : CodePoint) : List Str × Str → List Str × Str
  | ([], left) => ([], c :: left)
  | (block :: blocks, left) => ((c :: block) :: blocks, left)

/-- The loop `while "\n\n" in s: block, s = s.split("\n\n", 1)`: the blocks and what
is left of the text. -/
def splitBlocks : Str → List Str × Str
  | [] => ([], [])
  | [c] => ([], [c])
  | c :: d :: rest =>
      if c = lineFeed ∧ d = lineFeed then
        let r := splitBlocks rest
        ([] :: r.1, r.2)
      else consBlock c (splitBlocks (d :: rest))

theorem splitBlocks_cons_cons (c d : CodePoint) (rest : Str) :
    splitBlocks (c :: d :: rest) =
      if c = lineFeed ∧ d = lineFeed then ([] :: (splitBlocks rest).1, (splitBlocks rest).2)
      else consBlock c (splitBlocks (d :: rest)) := rfl

theorem splitBlocks_break (rest : Str) :
    splitBlocks (lineFeed :: lineFeed :: rest) =
      ([] :: (splitBlocks rest).1, (splitBlocks rest).2) := by
  rw [splitBlocks_cons_cons, if_pos ⟨rfl, rfl⟩]

/-- A line ends at the first boundary, other than a carriage return. -/
theorem splitlines_append_cons {s : Str} (hs : ∀ d ∈ s, isLineBreak d = false) {c : CodePoint}
    (hc : isLineBreak c = true) (hreturn : c ≠ carriageReturn) (rest : Str) :
    splitlines (s ++ c :: rest) = s :: splitlines rest := by
  have hnot (d : CodePoint) (hd : isLineBreak d = false) (e : CodePoint) :
      ¬ (d = carriageReturn ∧ e = lineFeed) := by
    rintro ⟨rfl, -⟩
    cases hd
  induction s with
  | nil =>
      cases rest with
      | nil =>
          change (if isLineBreak c then [[]] else [[c]]) = [[]]
          exact if_pos hc
      | cons e rest =>
          rw [List.nil_append, splitlines_cons_cons, if_neg fun h => hreturn h.1, if_pos hc]
  | cons d s ih =>
      obtain ⟨hd, hs⟩ := List.forall_mem_cons.mp hs
      have htail := ih hs
      obtain ⟨e, more, hmore⟩ : ∃ e more, s ++ c :: rest = e :: more := by
        cases s with
        | nil => exact ⟨c, rest, rfl⟩
        | cons e s => exact ⟨e, s ++ c :: rest, rfl⟩
      rw [hmore] at htail
      rw [List.cons_append, hmore, splitlines_cons_cons, if_neg (hnot d hd e),
        if_neg (Bool.eq_false_iff.mp hd), htail]
      rfl

/-- A text without boundaries is one line. -/
theorem splitlines_of_forall {s : Str} (hne : s ≠ []) (hs : ∀ d ∈ s, isLineBreak d = false) :
    splitlines s = [s] := by
  induction s with
  | nil => exact absurd rfl hne
  | cons d s ih =>
      obtain ⟨hd, hs⟩ := List.forall_mem_cons.mp hs
      cases s with
      | nil => rw [splitlines_singleton, if_neg (Bool.eq_false_iff.mp hd)]
      | cons e s =>
          have hnot : ¬ (d = carriageReturn ∧ e = lineFeed) := by
            rintro ⟨rfl, -⟩
            cases hd
          rw [splitlines_cons_cons, if_neg hnot, if_neg (Bool.eq_false_iff.mp hd), ih (by simp) hs]
          rfl

/-- A new line starts after the text. -/
def EndsLine (s : Str) : Prop := s = [] ∨ ∃ c, s.getLast? = some c ∧ isLineBreak c = true

theorem EndsLine.tail {c d : CodePoint} {s : Str} (h : EndsLine (c :: d :: s)) :
    EndsLine (d :: s) := by
  obtain h | ⟨e, he, hbreak⟩ := h
  · cases h
  · exact .inr ⟨e, he, hbreak⟩

theorem EndsLine.tail_tail {c d : CodePoint} {s : Str} (h : EndsLine (c :: d :: s)) :
    EndsLine s := by
  cases s with
  | nil => exact .inl rfl
  | cons e s => exact h.tail.tail

/-- The first line of a text that goes on. -/
theorem splitlines_cons {c d : CodePoint} (rest : Str)
    (h : ¬ (c = carriageReturn ∧ d = lineFeed)) :
    splitlines (c :: d :: rest) =
      if isLineBreak c then [] :: splitlines (d :: rest)
      else consLine c (splitlines (d :: rest)) := by
  rw [splitlines_cons_cons, if_neg h]

theorem splitlines_crlf (rest : Str) :
    splitlines (carriageReturn :: lineFeed :: rest) = [] :: splitlines rest := by
  rw [splitlines_cons_cons, if_pos ⟨rfl, rfl⟩]

theorem splitlines_ne_nil (c : CodePoint) (rest : Str) : splitlines (c :: rest) ≠ [] := by
  cases rest with
  | nil =>
      rw [splitlines_singleton]
      split <;> exact List.cons_ne_nil _ _
  | cons d rest =>
      rw [splitlines_cons_cons]
      split
      · exact List.cons_ne_nil _ _
      · split
        · exact List.cons_ne_nil _ _
        · cases splitlines (d :: rest) <;> exact List.cons_ne_nil _ _

/-- Complete lines stay as they are when the text goes on. -/
theorem splitlines_append_of_endsLine {s : Str} (hs : EndsLine s) (t : Str) :
    ∃ more, splitlines (s ++ t) = splitlines s ++ more ∧
      (t.head? ≠ some lineFeed → more = splitlines t) := by
  induction s using splitlines.induct with
  | case1 => exact ⟨splitlines t, rfl, fun _ => rfl⟩
  | case2 c hc =>
      have hline : splitlines [c] = [[]] := by rw [splitlines_singleton, if_pos hc]
      cases t with
      | nil => exact ⟨[], by rw [List.append_nil, List.append_nil], fun _ => rfl⟩
      | cons d t =>
          rw [hline]
          by_cases hcrlf : c = carriageReturn ∧ d = lineFeed
          · obtain ⟨rfl, rfl⟩ := hcrlf
            exact ⟨splitlines t, splitlines_crlf t, fun h => absurd rfl h⟩
          · refine ⟨splitlines (d :: t), ?_, fun _ => rfl⟩
            exact (splitlines_cons t hcrlf).trans (if_pos hc)
  | case3 c hc =>
      obtain h | ⟨d, hd, hbreak⟩ := hs
      · cases h
      · cases hd
        exact absurd hbreak hc
  | case4 c d rest hcrlf ih =>
      obtain ⟨rfl, rfl⟩ := hcrlf
      obtain ⟨more, hmore, heq⟩ := ih hs.tail_tail
      refine ⟨more, ?_, heq⟩
      rw [List.cons_append, List.cons_append, splitlines_crlf, splitlines_crlf, hmore]
      rfl
  | case5 c d rest hcrlf hc ih =>
      obtain ⟨more, hmore, heq⟩ := ih hs.tail
      rw [List.cons_append] at hmore
      refine ⟨more, ?_, heq⟩
      rw [List.cons_append, List.cons_append, splitlines_cons _ hcrlf, splitlines_cons _ hcrlf,
        if_pos hc, if_pos hc, hmore]
      rfl
  | case6 c d rest hcrlf hc ih =>
      obtain ⟨more, hmore, heq⟩ := ih hs.tail
      rw [List.cons_append] at hmore
      refine ⟨more, ?_, heq⟩
      rw [List.cons_append, List.cons_append, splitlines_cons _ hcrlf, splitlines_cons _ hcrlf,
        if_neg hc, if_neg hc, hmore]
      obtain ⟨line, lines, hlines⟩ := List.exists_cons_of_ne_nil (splitlines_ne_nil d rest)
      rw [hlines]
      rfl

/-- Only the last line of a text changes when the text goes on. -/
theorem splitlines_append_exists {s : Str} (hs : s ≠ []) (t : Str) :
    ∃ init line line' rest, splitlines s = init ++ [line] ∧
      splitlines (s ++ t) = init ++ line' :: rest := by
  induction s using splitlines.induct with
  | case1 => exact absurd rfl hs
  | case2 c hc =>
      obtain ⟨line, lines, hlines⟩ := List.exists_cons_of_ne_nil (splitlines_ne_nil c t)
      exact ⟨[], [], line, lines, by rw [splitlines_singleton, if_pos hc]; rfl, hlines⟩
  | case3 c hc =>
      obtain ⟨line, lines, hlines⟩ := List.exists_cons_of_ne_nil (splitlines_ne_nil c t)
      exact ⟨[], [c], line, lines, by rw [splitlines_singleton, if_neg hc]; rfl, hlines⟩
  | case4 c d rest hcrlf ih =>
      obtain ⟨rfl, rfl⟩ := hcrlf
      rw [List.cons_append, List.cons_append, splitlines_crlf, splitlines_crlf]
      by_cases hrest : rest = []
      · subst hrest
        exact ⟨[], [], [], splitlines t, rfl, rfl⟩
      · obtain ⟨init, line, line', more, hline, hmore⟩ := ih hrest
        exact ⟨[] :: init, line, line', more, by rw [hline]; rfl, by rw [hmore]; rfl⟩
  | case5 c d rest hcrlf hc ih =>
      obtain ⟨init, line, line', more, hline, hmore⟩ := ih (List.cons_ne_nil _ _)
      rw [List.cons_append] at hmore
      rw [List.cons_append, List.cons_append, splitlines_cons _ hcrlf, splitlines_cons _ hcrlf,
        if_pos hc, if_pos hc]
      exact ⟨[] :: init, line, line', more, by rw [hline]; rfl, by rw [hmore]; rfl⟩
  | case6 c d rest hcrlf hc ih =>
      obtain ⟨init, line, line', more, hline, hmore⟩ := ih (List.cons_ne_nil _ _)
      rw [List.cons_append] at hmore
      rw [List.cons_append, List.cons_append, splitlines_cons _ hcrlf, splitlines_cons _ hcrlf,
        if_neg hc, if_neg hc, hline, hmore]
      cases init with
      | nil => exact ⟨[], c :: line, c :: line', more, rfl, rfl⟩
      | cons first init => exact ⟨(c :: first) :: init, line, line', more, rfl, rfl⟩

/-- A line and the boundary that ends it. -/
theorem splitlines_append_break {s : Str} (hs : ∀ d ∈ s, isLineBreak d = false) {c : CodePoint}
    (hc : isLineBreak c = true) : splitlines (s ++ [c]) = [s] := by
  induction s with
  | nil => exact if_pos hc
  | cons d s ih =>
      obtain ⟨hd, hs⟩ := List.forall_mem_cons.mp hs
      have hnot (e : CodePoint) : ¬ (d = carriageReturn ∧ e = lineFeed) := by
        rintro ⟨rfl, -⟩
        cases hd
      have htail := ih hs
      cases s with
      | nil =>
          rw [List.nil_append] at htail
          rw [List.cons_append, List.nil_append, splitlines_cons _ (hnot c),
            if_neg (Bool.eq_false_iff.mp hd), htail]
          rfl
      | cons e s =>
          rw [List.cons_append] at htail
          rw [List.cons_append, List.cons_append, splitlines_cons _ (hnot e),
            if_neg (Bool.eq_false_iff.mp hd), htail]
          rfl

/-- The first character of a text that does not start with a blank line belongs to its
first block, or to what is left. -/
theorem splitBlocks_cons {c d : CodePoint} (rest : Str)
    (h : ¬ (c = lineFeed ∧ d = lineFeed)) :
    splitBlocks (c :: d :: rest) = consBlock c (splitBlocks (d :: rest)) := by
  rw [splitBlocks_cons_cons, if_neg h]

/-- What stands before the first line feed belongs to the first block. -/
theorem splitBlocks_append_line {s text block left : Str} {blocks : List Str}
    (hs : lineFeed ∉ s) (h : splitBlocks text = (block :: blocks, left)) :
    splitBlocks (s ++ text) = ((s ++ block) :: blocks, left) := by
  induction s with
  | nil => exact h
  | cons c s ih =>
      rw [List.mem_cons, not_or] at hs
      have htail := ih hs.2
      obtain ⟨d, more, hmore⟩ : ∃ d more, s ++ text = d :: more := by
        cases hcases : s ++ text with
        | nil =>
            rw [hcases] at htail
            cases htail
        | cons d more => exact ⟨d, more, rfl⟩
      rw [hmore] at htail
      rw [List.cons_append, hmore, splitBlocks_cons more fun h => hs.1 h.1.symm, htail]
      rfl

/-- Two lines and a blank line make a block. -/
theorem splitBlocks_two_lines {s t : Str} (hs : lineFeed ∉ s) (ht : lineFeed ∉ t) (hne : t ≠ [])
    (rest : Str) :
    splitBlocks (s ++ lineFeed :: (t ++ lineFeed :: lineFeed :: rest)) =
      ((s ++ lineFeed :: t) :: (splitBlocks rest).1, (splitBlocks rest).2) := by
  have hsecond : splitBlocks (t ++ lineFeed :: lineFeed :: rest) =
      ((t ++ []) :: (splitBlocks rest).1, (splitBlocks rest).2) :=
    splitBlocks_append_line ht (splitBlocks_break rest)
  obtain ⟨c, t, rfl⟩ := List.exists_cons_of_ne_nil hne
  have hboth : splitBlocks (lineFeed :: (c :: t ++ lineFeed :: lineFeed :: rest)) =
      ((lineFeed :: c :: t) :: (splitBlocks rest).1, (splitBlocks rest).2) := by
    rw [List.cons_append] at hsecond ⊢
    rw [splitBlocks_cons _ fun h => ht (h.2 ▸ List.mem_cons_self), hsecond, List.append_nil]
    rfl
  exact splitBlocks_append_line hs hboth

/-- Without a complete block, all of the text is left. -/
theorem splitBlocks_left {s : Str} (h : (splitBlocks s).1 = []) : splitBlocks s = ([], s) := by
  induction s using splitBlocks.induct with
  | case1 => rfl
  | case2 c => rfl
  | case3 c d rest hbreak ih =>
      obtain ⟨rfl, rfl⟩ := hbreak
      rw [splitBlocks_break] at h
      cases h
  | case4 c d rest hbreak ih =>
      rw [splitBlocks_cons rest hbreak] at h ⊢
      cases hsplit : splitBlocks (d :: rest) with
      | mk blocks left =>
          rw [hsplit] at h ih
          cases blocks with
          | nil =>
              obtain ⟨-, rfl⟩ := Prod.mk.inj (ih rfl)
              rfl
          | cons block blocks => cases h

/-- Reading a text in two pieces gives the blocks of the whole: the second piece is
read after what the first one left. -/
theorem splitBlocks_append (s t : Str) :
    splitBlocks (s ++ t) =
      ((splitBlocks s).1 ++ (splitBlocks ((splitBlocks s).2 ++ t)).1,
        (splitBlocks ((splitBlocks s).2 ++ t)).2) := by
  induction s using splitBlocks.induct with
  | case1 => rfl
  | case2 c => rfl
  | case3 c d rest hbreak ih =>
      obtain ⟨rfl, rfl⟩ := hbreak
      rw [List.cons_append, List.cons_append, splitBlocks_break, splitBlocks_break, ih]
      rfl
  | case4 c d rest hbreak ih =>
      rw [List.cons_append] at ih
      rw [List.cons_append, List.cons_append, splitBlocks_cons _ hbreak,
        splitBlocks_cons _ hbreak, ih]
      cases hsplit : splitBlocks (d :: rest) with
      | mk blocks left =>
          cases blocks with
          | cons block blocks => rfl
          | nil =>
              obtain ⟨-, rfl⟩ := Prod.mk.inj (hsplit.symm.trans (splitBlocks_left (by rw [hsplit])))
              simp only [consBlock, List.nil_append, List.cons_append]
              rw [splitBlocks_cons _ hbreak]
              rfl

end Str

end MediaBridge.Foundation
