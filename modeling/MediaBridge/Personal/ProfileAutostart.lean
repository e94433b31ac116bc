import MediaBridge.Foundation.SpelledBlocks
import MediaBridge.Foundation.Utf8Lossy

/-!
# Autostart from the shell profile

`installProfileAutostart` and `removeProfileAutostart` of `packaging/npm/bin/mb.cjs`: what the block
with the autostart line does to the file of the user.

## Implementation notes

A profile is the bytes of its file, or `none` where there is no file. They are decoded, replaced in
and encoded again, and no step fails on bytes that are no UTF-8. All patterns have ASCII letters
only, so that code points stand for UTF-16 units, and the lens is stated of the bytes.
-/

namespace MediaBridge.Personal

open Foundation

section Profile

def newline : CodePoint := cp 10

/-- `# >>> media-bridge autostart >>>`. -/
def startMarker : Str := lit "# >>> media-bridge autostart >>>"

/-- `# <<< media-bridge autostart <<<`. -/
def endMarker : Str := lit "# <<< media-bridge autostart <<<"

/-- `shellQuote`. -/
def shellQuote (value : Str) : Str :=
  lit "'" ++ Str.replaceAll value (lit "'") (lit "'\\''") ++ lit "'"

/-- The line that starts the service. -/
def autostartLine (cliPath : Str) : Str :=
  lit "if command -v node >/dev/null 2>&1; then nohup node " ++ shellQuote cliPath ++
    lit " service start >/dev/null 2>&1 & fi"

/-- `profileBlock`. -/
def profileBlock (cliPath : Str) : Str :=
  Str.join [newline] [startMarker, autostartLine cliPath, endMarker]

section EscapedEnd

variable {α : Type*} [DecidableEq α] (backslash s : α)

/-- A backslash and letters `s` up to the end: what `/\\s*$/` matches. -/
def endsEscaped : List α → Bool
  | [] => false
  | c :: rest => c == backslash && rest.all fun d => d == s

/-- `existing.replace(/\\s*$/, '')`. -/
def withoutEscapedEnd : List α → List α
  | [] => []
  | c :: rest => if endsEscaped backslash s (c :: rest) then [] else c :: withoutEscapedEnd rest

end EscapedEnd

/-- `installProfileAutostart`. -/
def installProfileAutostart (cliPath : Str) (profile : Option Bytes) : Option Bytes :=
  let existing := Utf8.decodeLossy (profile.getD [])
  if Str.contains existing startMarker then profile
  else
    some (Utf8.encodeLossy (withoutEscapedEnd (cp 92) (cp 115) existing ++ [newline, newline] ++
      profileBlock cliPath ++ [newline]))

/-- `/\n?# >>> ...[\s\S]*?# <<< ...\n?/`. -/
def autostartBlock (_before : Option CodePoint) (text : Str) : Option Nat :=
  if startMarker <+: Blocks.dropHead newline text then
    (Blocks.cut endMarker ((Blocks.dropHead newline text).drop startMarker.length)).map
      fun (_, after) => text.length - (Blocks.dropHead newline after).length
  else none

/-- `/\n{3,}/`. -/
def newlineRun (_before : Option CodePoint) (text : Str) : Option Nat :=
  let run := (text.takeWhile (· = newline)).length
  if 3 ≤ run then some run else none

/-- `removeProfileAutostart`. -/
def removeProfileAutostart (profile : Option Bytes) : Option Bytes :=
  profile.map fun data =>
    Utf8.encodeLossy (Str.substitute newlineRun [newline, newline]
      (Str.substitute autostartBlock [newline] (Utf8.decodeLossy data)))

end Profile

section Patterns

/-- The markers of the block, with line ends between the lines of the user. -/
def markers : Blocks.Markers CodePoint where
  sep := newline
  opening := startMarker
  closing := endMarker
  opening_ne_nil := by decide
  closing_ne_nil := by decide
  sep_opening := by decide
  sep_closing := by decide

variable {text before inner after : Str}

/-- The run at the start of a text, if it is long. -/
theorem newlineRun_replicate (h : text.head? ≠ some newline) (n : Nat) :
    newlineRun none (List.replicate n newline ++ text) = if 3 ≤ n then some n else none := by
  have hrest : text.takeWhile (· = newline) = [] := by
    cases text with
    | nil => rfl
    | cons d rest =>
        have hd : ¬ d = newline := fun heq => h (congrArg some heq)
        exact List.takeWhile_cons_of_neg (by simpa using hd)
  have hrun : (List.replicate n newline ++ text).takeWhile (· = newline) =
      List.replicate n newline := by
    rw [List.takeWhile_append_of_pos, hrest, List.append_nil]
    intro c hc
    simpa using List.eq_of_mem_replicate hc
  rw [newlineRun, hrun, List.length_replicate]

/-- Long runs of line ends are shortened to two. -/
theorem substitute_newlineRun (text : Str) :
    Str.substitute newlineRun [newline, newline] text = Blocks.squeeze newline text := by
  induction hn : text.length using Nat.strong_induction_on generalizing text with
  | _ _ ih =>
      obtain ⟨gap, hgap, htext⟩ := Blocks.exists_trimStart newline text
      have hhead := Blocks.head?_trimStart newline text
      rw [List.eq_replicate_of_mem hgap] at htext
      generalize Blocks.trimStart newline text = rest at htext hhead
      generalize gap.length = n at htext
      subst htext
      have hrun := newlineRun_replicate hhead n
      have hshorter : ∀ t : Str, t.length < (List.replicate n newline ++ rest).length →
          Str.substitute newlineRun [newline, newline] t = Blocks.squeeze newline t :=
        fun t ht => ih _ (hn ▸ ht) t rfl
      match n with
      | 0 =>
          cases rest with
          | nil => rfl
          | cons d rest =>
              have hd : d ≠ newline := fun heq => hhead (congrArg some heq)
              rw [List.replicate_zero, List.nil_append] at hrun ⊢
              rw [Str.substitute_cons fun _ _ => rfl, hrun, Blocks.squeeze_cons_of_ne hd]
              exact congrArg (d :: ·) (hshorter rest (by simp))
      | 1 =>
          have hnone : newlineRun none (newline :: rest) = none := hrun
          change Str.substitute _ _ (newline :: rest) = Blocks.squeeze newline (newline :: rest)
          rw [Str.substitute_cons fun _ _ => rfl, hnone, Blocks.squeeze_single hhead]
          exact congrArg (newline :: ·) (hshorter rest (by simp))
      | 2 =>
          have hnone : newlineRun none (newline :: newline :: rest) = none := hrun
          have hsingle := hshorter (newline :: rest) (by simp)
          rw [Blocks.squeeze_run hhead 0]
          change Str.substitute _ _ (newline :: newline :: rest) = _
          rw [Str.substitute_cons fun _ _ => rfl, hnone]
          simp only [hsingle, Blocks.squeeze_single hhead]
      | k + 3 =>
          rw [if_pos (Nat.le_add_left 3 k)] at hrun
          rw [Blocks.squeeze_run hhead (k + 1)]
          rw [List.replicate_succ, List.cons_append] at hrun ⊢
          rw [Str.substitute_cons fun _ _ => rfl, hrun]
          have hdrop : (List.replicate (k + 2) newline ++ rest).drop (k + 2) = rest :=
            List.drop_left' (List.length_replicate ..)
          simp only [hdrop, hshorter rest (by simp)]
          rfl

/-- What the pattern finds is a block right at the start of a text. -/
theorem exists_block_of_found {found : Nat} (h : autostartBlock none text = some found) :
    ∃ lead inner after, text = lead ++ startMarker ++ (inner ++ endMarker ++ after) := by
  unfold autostartBlock at h
  split at h
  · next hprefix =>
      obtain ⟨⟨inner, after⟩, hcut, -⟩ := Option.map_eq_some_iff.mp h
      obtain ⟨rest, hrest⟩ := hprefix
      rw [← hrest, List.drop_left] at hcut
      obtain ⟨lead, hlead⟩ := Blocks.dropHead_suffix newline text
      refine ⟨lead, inner, after, ?_⟩
      rw [← Blocks.eq_of_cut hcut, List.append_assoc, hrest, hlead]
  · cases h

/-- A text without a block has nothing that the pattern finds. -/
theorem substitute_of_no_block (h : markers.firstBlock text = none) :
    Str.substitute autostartBlock [newline] text = text := by
  apply Str.substitute_eq_self
  intro _ t ht
  cases hfound : autostartBlock none t with
  | none => exact hfound
  | some found =>
      obtain ⟨front, rfl⟩ := ht
      obtain ⟨lead, inner, after, rfl⟩ := exists_block_of_found hfound
      obtain ⟨found, hblock⟩ := Blocks.Markers.exists_firstBlock markers (front ++ lead) inner after
      have heq : front ++ (lead ++ startMarker ++ (inner ++ endMarker ++ after)) =
          front ++ lead ++ markers.opening ++ (inner ++ markers.closing ++ after) := by
        simp only [List.append_assoc]
        rfl
      rw [heq, hblock] at h
      cases h

/-- A block is found right behind the start of its line. -/
theorem autostartBlock_of_cut {rest : Str}
    (hopening : Blocks.dropHead newline text = startMarker ++ rest)
    (hclosing : Blocks.cut endMarker rest = some (inner, after)) :
    Str.substitute autostartBlock [newline] text =
      newline :: Str.substitute autostartBlock [newline] (Blocks.dropHead newline after) := by
  have hafter : after <:+ rest := by
    rw [Blocks.eq_of_cut hclosing]
    exact List.suffix_append _ _
  have htext : startMarker ++ rest <:+ text := hopening ▸ Blocks.dropHead_suffix newline text
  have hsuffix : Blocks.dropHead newline after <:+ text :=
    (Blocks.dropHead_suffix newline after).trans
      (hafter.trans ((List.suffix_append startMarker rest).trans htext))
  have hlength : (Blocks.dropHead newline after).length < text.length := by
    have hle := (Blocks.dropHead_suffix newline after).length_le
    have hle' := hafter.length_le
    have hle'' := htext.length_le
    have hpos : 0 < startMarker.length := by decide
    rw [List.length_append] at hle''
    omega
  apply Str.substitute_of_found (fun _ _ => rfl) hsuffix hlength
  rw [autostartBlock, hopening, if_pos (List.prefix_append _ _), List.drop_left, hclosing]
  rfl

/-- The pattern takes out the first block. -/
theorem substitute_of_cut {rest : Str} (hopening : Blocks.cut startMarker text = some (before, rest))
    (hclosing : Blocks.cut endMarker rest = some (inner, after)) :
    Str.substitute autostartBlock [newline] text = Blocks.dropLast newline before ++
      newline :: Str.substitute autostartBlock [newline] (Blocks.dropHead newline after) := by
  induction text generalizing before with
  | nil => cases hopening
  | cons c more ih =>
      by_cases hprefix : startMarker <+: c :: more
      · have hc : c ≠ newline := by
          rintro rfl
          exact Blocks.not_prefix_cons markers.sep_opening markers.opening_ne_nil hprefix
        obtain rfl := Blocks.eq_of_cut_prefix hopening hprefix (by decide)
        have hmarked : Blocks.dropHead newline (c :: more) = startMarker ++ rest := by
          rw [Blocks.dropHead, if_neg hc]
          exact Blocks.eq_of_cut hopening
        exact autostartBlock_of_cut hmarked hclosing
      · rw [Blocks.cut_cons hprefix] at hopening
        obtain ⟨⟨found, tail⟩, hfound, heq⟩ := Option.map_eq_some_iff.mp hopening
        cases heq
        by_cases hline : c = newline ∧ found = []
        · obtain ⟨rfl, rfl⟩ := hline
          have hmarked : Blocks.dropHead newline (newline :: more) = startMarker ++ tail := by
            rw [Blocks.dropHead, if_pos rfl]
            exact Blocks.eq_of_cut hfound
          exact autostartBlock_of_cut hmarked hclosing
        · have hnone : autostartBlock none (c :: more) = none := by
            apply if_neg
            intro hmarked
            rw [Blocks.dropHead] at hmarked
            split at hmarked
            · next hc => exact hline ⟨hc, Blocks.eq_of_cut_prefix hfound hmarked (by decide)⟩
            · exact hprefix hmarked
          rw [Str.substitute_cons fun _ _ => rfl, hnone, Blocks.dropLast_cons hline]
          exact congrArg (c :: ·) (ih hfound)

theorem substitute_autostartBlock (text : Str) :
    Str.substitute autostartBlock [newline] text = Blocks.strip markers text := by
  induction text using Blocks.Markers.blocks_induct (M := markers) with
  | none text h => rw [substitute_of_no_block h, Blocks.strip_of_none h]
  | some text before inner after h ih =>
      have hstrip := Blocks.strip_of_some h
      obtain ⟨⟨found, rest⟩, hopening, hrest⟩ := Option.bind_eq_some_iff.mp h
      obtain ⟨⟨found', rest'⟩, hclosing, heq⟩ := Option.map_eq_some_iff.mp hrest
      cases heq
      rw [hstrip, substitute_of_cut hopening hclosing]
      exact congrArg (_ ++ newline :: ·) (ih _ (Blocks.length_dropHead_le _ _))

end Patterns

section EscapedEnd

variable {α β : Type*} [DecidableEq α] [DecidableEq β] {S : Blocks.Spelling α β} {backslash s : α}

theorem letter_beq {c d : α} (hc : S.plain c) (hd : S.plain d) :
    (S.letter c == S.letter d) = (c == d) := by
  by_cases h : c = d
  · rw [h, beq_self_eq_true, beq_self_eq_true]
  · rw [beq_false_of_ne h, beq_false_of_ne fun heq => h (S.letter_injective c d hc hd heq)]

theorem all_text (hs : S.plain s) (text : List α) :
    ((S.text text).all fun b => b == S.letter s) = text.all fun c => c == s := by
  induction text with
  | nil => rfl
  | cons c text ih =>
      by_cases hc : S.plain c
      · rw [S.text_cons, S.spell_plain c hc, List.singleton_append, List.all_cons, List.all_cons,
          letter_beq hc hs, ih]
      · obtain ⟨b, rest, hspell⟩ := List.exists_cons_of_ne_nil (S.ne_nil c)
        have hb : b ≠ S.letter s := S.apart c hc b (by rw [hspell]; exact List.mem_cons_self) s hs
        have hne : c ≠ s := fun heq => hc (heq ▸ hs)
        rw [S.text_cons, hspell, List.cons_append, List.all_cons, List.all_cons,
          beq_false_of_ne hb, beq_false_of_ne hne, Bool.false_and, Bool.false_and]

/-- Only a backslash begins an escaped end. -/
theorem withoutEscapedEnd_append {u : List α} (hu : ∀ c ∈ u, c ≠ backslash) (t : List α) :
    withoutEscapedEnd backslash s (u ++ t) = u ++ withoutEscapedEnd backslash s t := by
  induction u with
  | nil => rfl
  | cons c u ih =>
      obtain ⟨hc, hu⟩ := List.forall_mem_cons.mp hu
      have hnot : endsEscaped backslash s (c :: (u ++ t)) = false := by
        rw [endsEscaped, beq_false_of_ne hc, Bool.false_and]
      rw [List.cons_append, withoutEscapedEnd, hnot, if_neg Bool.false_ne_true, ih hu]
      rfl

/-- Escaped ends are found alike in both alphabets. -/
theorem withoutEscapedEnd_text (hbackslash : S.plain backslash) (hs : S.plain s) (text : List α) :
    withoutEscapedEnd (S.letter backslash) (S.letter s) (S.text text) =
      S.text (withoutEscapedEnd backslash s text) := by
  induction text with
  | nil => rfl
  | cons c text ih =>
      by_cases hc : S.plain c
      · have hends : endsEscaped (S.letter backslash) (S.letter s) (S.letter c :: S.text text) =
            endsEscaped backslash s (c :: text) := by
          rw [endsEscaped, endsEscaped, letter_beq hc hbackslash, all_text hs]
        rw [S.text_cons, S.spell_plain c hc, List.singleton_append, withoutEscapedEnd,
          withoutEscapedEnd, hends, ih]
        split
        · rfl
        · rw [S.text_cons, S.spell_plain c hc]
          rfl
      · have hne : c ≠ backslash := fun heq => hc (heq ▸ hbackslash)
        have hpass : withoutEscapedEnd backslash s ([c] ++ text) = _ :=
          withoutEscapedEnd_append (by simpa using hne) text
        rw [List.singleton_append] at hpass
        rw [hpass, S.text_cons, withoutEscapedEnd_append fun b hb => S.apart c hc b hb _ hbackslash,
          ih]
        rfl

end EscapedEnd

section Files

/-- Text in UTF-8; its ASCII letters are bytes of their own. -/
def utf8Spelling : Blocks.Spelling CodePoint Byte where
  spell c := Utf8.encodePoint (Utf8.written c)
  plain c := c.val < 0x80
  letter c := Utf8.byte c.val
  spell_plain := Utf8.encodePoint_written_ascii
  apart c hc b hb d hd := by
    rintro rfl
    have hletter := Utf8.le_of_mem_encodePoint_written (not_lt.mp hc) _ hb
    rw [Utf8.val_byte_of_lt (hd.trans (by decide))] at hletter
    exact absurd hd (not_lt.mpr hletter)
  ne_nil c := Utf8.encodePoint_ne_nil _
  letter_injective c d hc hd h := by
    have hval := congrArg Fin.val h
    rw [Utf8.val_byte_of_lt (hc.trans (by decide)),
      Utf8.val_byte_of_lt (hd.trans (by decide))] at hval
    exact Fin.ext hval

theorem text_utf8Spelling (text : Str) : utf8Spelling.text text = Utf8.encodeLossy text :=
  (List.flatMap_map Utf8.written Utf8.encodePoint text).symm

def lineEnd : Byte := Utf8.byte 10

/-- The markers of the block in the file. -/
def fileMarkers : Blocks.Markers Byte where
  sep := lineEnd
  opening := startMarker.map utf8Spelling.letter
  closing := endMarker.map utf8Spelling.letter
  opening_ne_nil := by decide
  closing_ne_nil := by decide
  sep_opening := by decide
  sep_closing := by decide

theorem startMarker_ascii : (startMarker.all fun c => c.val < 0x80) = true := by decide

theorem endMarker_ascii : (endMarker.all fun c => c.val < 0x80) = true := by decide

theorem spells_fileMarkers : Blocks.Spelling.Spells utf8Spelling markers fileMarkers where
  sep_plain := by
    change newline.val < 0x80
    decide
  opening_plain c hc := by
    change c.val < 0x80
    exact of_decide_eq_true (List.all_eq_true.mp startMarker_ascii c hc)
  closing_plain c hc := by
    change c.val < 0x80
    exact of_decide_eq_true (List.all_eq_true.mp endMarker_ascii c hc)
  sep := rfl
  opening := rfl
  closing := rfl

/-- `profileBlock` in the file. -/
def blockBytes (cliPath : Str) : Bytes := Utf8.encodeLossy (profileBlock cliPath)

/-- What is left of the bytes of a file that is read and written. -/
def rewritten (data : Bytes) : Bytes := Utf8.encodeLossy (Utf8.decodeLossy data)

/-- The bytes are UTF-8. -/
def WellFormed (data : Bytes) : Prop := ∃ text, Utf8.decode data = some text

variable {cliPath : Str} {data : Bytes}

theorem rewritten_of_wellFormed (h : WellFormed data) : rewritten data = data :=
  Utf8.encodeLossy_decodeLossy h.choose_spec

theorem wellFormed_encodeLossy (text : Str) : WellFormed (Utf8.encodeLossy text) :=
  ⟨_, Utf8.decode_encodeLossy text⟩

/-- Removing takes out the blocks, and shortens all long runs of line ends. -/
theorem removeProfileAutostart_some (data : Bytes) : removeProfileAutostart (some data) =
    some (Blocks.squeeze lineEnd (Blocks.strip fileMarkers (rewritten data))) := by
  have hspells := spells_fileMarkers
  rw [removeProfileAutostart, Option.map_some, substitute_autostartBlock, substitute_newlineRun,
    rewritten, ← text_utf8Spelling, ← text_utf8Spelling, hspells.strip]
  exact congrArg some (hspells.squeeze _).symm

theorem contains_startMarker_iff (data : Bytes) :
    Str.contains (Utf8.decodeLossy data) startMarker = true ↔
      fileMarkers.opening <:+: rewritten data := by
  rw [Str.contains_iff, rewritten, ← text_utf8Spelling]
  exact (Blocks.Spelling.infix_text_iff spells_fileMarkers.opening_plain
    markers.opening_ne_nil).symm

end Files

section Lens

variable {cliPath : Str} {data : Bytes}

/-- Only line ends are next to the block that is written. -/
def BlockRemovedWhole (cliPath : Str) : Prop :=
  ∀ piece ∈ fileMarkers.outside (blockBytes cliPath ++ [lineEnd]), ∀ b ∈ piece, b = lineEnd

/-- A backslash and letters `s` are at the end of the file. -/
def EndsEscaped (data : Bytes) : Prop :=
  ∃ t, t <:+ data ∧ endsEscaped (Utf8.byte 92) (Utf8.byte 115) t = true

/-- Installing keeps the file, once is enough, and removing gives the file back. -/
structure InstallKeeps (cliPath : Str) (data : Bytes) : Prop where
  kept : ∃ gap tail, (∀ b ∈ gap ++ tail, b = lineEnd) ∧
    installProfileAutostart cliPath (some data) =
      some (Blocks.trimEnd lineEnd data ++ gap ++ blockBytes cliPath ++ tail)
  again : installProfileAutostart cliPath (installProfileAutostart cliPath (some data)) =
    installProfileAutostart cliPath (some data)
  removed : ∃ rest,
    removeProfileAutostart (installProfileAutostart cliPath (some data)) = some rest ∧
      Blocks.trimEnd lineEnd rest = Blocks.trimEnd lineEnd data

/-- Removing keeps the pieces outside the blocks, up to line ends next to blocks. -/
def RemoveKeeps (data : Bytes) : Prop :=
  ∃ rest, removeProfileAutostart (some data) = some rest ∧
    Blocks.Woven lineEnd (Blocks.cores lineEnd (fileMarkers.outside data)) rest

/-- The two operations on a profile. -/
structure ProfileLens (cliPath : Str) (data : Bytes) : Prop where
  install : ¬ fileMarkers.opening <:+: data → InstallKeeps cliPath data
  remove : RemoveKeeps data

theorem removeKeeps_iff (hformed : WellFormed data) : RemoveKeeps data ↔
    ∀ piece ∈ Blocks.cores lineEnd (fileMarkers.outside data),
      ¬ Blocks.longRun lineEnd <:+: piece := by
  refine Iff.trans ?_ (Blocks.woven_squeeze_strip_iff fileMarkers data)
  rw [RemoveKeeps, removeProfileAutostart_some, rewritten_of_wellFormed hformed]
  constructor
  · rintro ⟨rest, heq, hwoven⟩
    cases heq
    exact hwoven
  · exact fun h => ⟨_, rfl, h⟩

/-- What removing writes is UTF-8, so a file without a block that is none is changed. -/
theorem not_removeKeeps (hformed : ¬ WellFormed data) (h : fileMarkers.firstBlock data = none) :
    ¬ RemoveKeeps data := by
  rintro ⟨rest, hrest, hwoven⟩
  rw [Blocks.Markers.outside_of_none h, Blocks.cores] at hwoven
  cases hwoven
  exact hformed (Option.some.inj hrest ▸ wellFormed_encodeLossy _)

theorem withoutEscapedEnd_cases (data : Bytes) :
    withoutEscapedEnd (Utf8.byte 92) (Utf8.byte 115) data = data ∨ EndsEscaped data ∧
      ∃ rest, data = withoutEscapedEnd (Utf8.byte 92) (Utf8.byte 115) data ++
        Utf8.byte 92 :: rest ∧ lineEnd ∉ rest := by
  induction data with
  | nil => exact .inl rfl
  | cons c rest ih =>
      rw [withoutEscapedEnd]
      split
      · next h =>
          refine .inr ⟨⟨_, List.suffix_refl _, h⟩, rest, ?_, ?_⟩
          · simp only [endsEscaped, Bool.and_eq_true, beq_iff_eq] at h
            rw [h.1]
            rfl
          · simp only [endsEscaped, Bool.and_eq_true, List.all_eq_true, beq_iff_eq] at h
            exact fun hmem => absurd (h.2 _ hmem) (by decide)
      · rcases ih with hsame | ⟨⟨t, ht, hends⟩, more, hsplit, hmore⟩
        · exact .inl (by rw [hsame])
        · refine .inr ⟨⟨t, ht.trans (List.suffix_cons c rest), hends⟩, more, ?_, hmore⟩
          rw [List.cons_append, ← hsplit]

theorem withoutEscapedEnd_of_endsEscaped (h : EndsEscaped data) :
    withoutEscapedEnd (Utf8.byte 92) (Utf8.byte 115) data ≠ data := by
  obtain ⟨t, ⟨front, rfl⟩, hends⟩ := h
  intro hsame
  induction front with
  | nil =>
      cases t with
      | nil => cases hends
      | cons c rest =>
          rw [List.nil_append, withoutEscapedEnd, if_pos hends] at hsame
          cases hsame
  | cons c front ih =>
      rw [List.cons_append, withoutEscapedEnd] at hsame
      split at hsame
      · cases hsame
      · exact ih (List.cons.inj hsame).2

theorem withoutEscapedEnd_eq_self_iff :
    withoutEscapedEnd (Utf8.byte 92) (Utf8.byte 115) data = data ↔ ¬ EndsEscaped data := by
  constructor
  · exact fun hsame hends => withoutEscapedEnd_of_endsEscaped hends hsame
  · intro h
    rcases withoutEscapedEnd_cases data with hsame | ⟨hends, -⟩
    · exact hsame
    · exact absurd hends h

theorem not_contains (hformed : WellFormed data) (h : ¬ fileMarkers.opening <:+: data) :
    Str.contains (Utf8.decodeLossy data) startMarker = false := by
  rw [Bool.eq_false_iff, ne_eq, contains_startMarker_iff, rewritten_of_wellFormed hformed]
  exact h

/-- What installing writes into a profile without a marker. -/
theorem install_of_absent (hformed : WellFormed data) (h : ¬ fileMarkers.opening <:+: data) :
    installProfileAutostart cliPath (some data) =
      some (withoutEscapedEnd (Utf8.byte 92) (Utf8.byte 115) data ++
        lineEnd :: lineEnd :: (blockBytes cliPath ++ [lineEnd])) := by
  have hbackslash : utf8Spelling.plain (cp 92) := by
    change (cp 92).val < 0x80
    decide
  have hletter : utf8Spelling.plain (cp 115) := by
    change (cp 115).val < 0x80
    decide
  have hescaped := withoutEscapedEnd_text hbackslash hletter (Utf8.decodeLossy data)
  rw [text_utf8Spelling, text_utf8Spelling] at hescaped
  change withoutEscapedEnd (Utf8.byte 92) (Utf8.byte 115) (rewritten data) = _ at hescaped
  rw [rewritten_of_wellFormed hformed] at hescaped
  rw [installProfileAutostart, Option.getD_some, not_contains hformed h, hescaped]
  simp only [Bool.false_eq_true, if_false, Utf8.encodeLossy_append, List.append_assoc]
  rfl

/-- The block in the file, line by line. -/
theorem blockBytes_eq (cliPath : Str) : ∃ inner, blockBytes cliPath =
    fileMarkers.opening ++ (inner ++ fileMarkers.closing) := by
  refine ⟨Utf8.encodeLossy [newline] ++ Utf8.encodeLossy (autostartLine cliPath) ++
    Utf8.encodeLossy [newline], ?_⟩
  have hopening : Utf8.encodeLossy startMarker = fileMarkers.opening := by
    rw [← text_utf8Spelling]
    exact utf8Spelling.text_plain spells_fileMarkers.opening_plain
  have hclosing : Utf8.encodeLossy endMarker = fileMarkers.closing := by
    rw [← text_utf8Spelling]
    exact utf8Spelling.text_plain spells_fileMarkers.closing_plain
  rw [← hopening, ← hclosing, blockBytes, profileBlock, Str.join_cons_cons, Str.join_cons_cons,
    Str.join_singleton]
  simp only [Utf8.encodeLossy_append, List.append_assoc]

theorem opening_prefix_block (cliPath : Str) : fileMarkers.opening <+: blockBytes cliPath := by
  obtain ⟨inner, hinner⟩ := blockBytes_eq cliPath
  exact ⟨_, hinner.symm⟩

theorem wellFormed_install (hformed : WellFormed data) (h : ¬ fileMarkers.opening <:+: data) :
    WellFormed (withoutEscapedEnd (Utf8.byte 92) (Utf8.byte 115) data ++
      lineEnd :: lineEnd :: (blockBytes cliPath ++ [lineEnd])) := by
  have hinstall : installProfileAutostart cliPath (some data) = _ := install_of_absent hformed h
  rw [installProfileAutostart, Option.getD_some, not_contains hformed h,
    if_neg Bool.false_ne_true, Option.some.injEq] at hinstall
  exact hinstall ▸ wellFormed_encodeLossy _

/-- A second installation finds the block of the first. -/
theorem install_install (hformed : WellFormed data) (h : ¬ fileMarkers.opening <:+: data) :
    installProfileAutostart cliPath (installProfileAutostart cliPath (some data)) =
      installProfileAutostart cliPath (some data) := by
  rw [install_of_absent hformed h, installProfileAutostart, Option.getD_some, if_pos]
  rw [contains_startMarker_iff, rewritten_of_wellFormed (wellFormed_install hformed h)]
  refine (opening_prefix_block cliPath).isInfix.trans
    ⟨withoutEscapedEnd (Utf8.byte 92) (Utf8.byte 115) data ++ [lineEnd, lineEnd], [lineEnd], ?_⟩
  simp only [List.append_assoc, List.cons_append, List.nil_append]

/-- Installing keeps the file exactly if no escaped end is taken for white space. -/
theorem installed_iff (hformed : WellFormed data) (h : ¬ fileMarkers.opening <:+: data) :
    (∃ gap tail, (∀ c ∈ gap ++ tail, c = lineEnd) ∧
      installProfileAutostart cliPath (some data) =
        some (Blocks.trimEnd lineEnd data ++ gap ++ blockBytes cliPath ++ tail)) ↔
      ¬ EndsEscaped data := by
  obtain ⟨ends, hends, htext⟩ := Blocks.exists_trimEnd lineEnd data
  rw [install_of_absent hformed h]
  constructor
  · rintro ⟨gap, tail, hnewlines, heq⟩ hescaped
    rcases withoutEscapedEnd_cases data with hsame | ⟨-, rest, hsplit, hrest⟩
    · exact withoutEscapedEnd_of_endsEscaped hescaped hsame
    · have hwhole : Blocks.trimEnd lineEnd data = data := by
        apply Blocks.trimEnd_of_getLast?
        rw [hsplit, List.getLast?_append_cons]
        intro hlast
        rcases List.mem_cons.mp (List.mem_of_getLast? hlast) with hbackslash | hmem
        · exact absurd hbackslash (by decide)
        · exact hrest hmem
      rw [hwhole, Option.some.injEq] at heq
      conv_rhs at heq => rw [hsplit]
      simp only [List.append_assoc, List.cons_append, List.append_cancel_left_eq] at heq
      exact absurd (List.cons.inj heq).1 (by decide)
  · intro hplain
    refine ⟨ends ++ [lineEnd, lineEnd], [lineEnd], ?_, ?_⟩
    · intro c hc
      simp only [List.append_assoc, List.mem_append, List.mem_cons, List.not_mem_nil,
        or_false] at hc
      rcases hc with hc | hc | hc
      · exact hends c hc
      · exact hc.elim id id
      · exact hc
    · rw [withoutEscapedEnd_eq_self_iff.mpr hplain]
      conv_lhs => rw [htext]
      simp only [List.append_assoc, List.cons_append, List.nil_append]

/-- The pieces outside the block of an installed profile. -/
theorem outside_installed (h : ¬ fileMarkers.opening <:+: data) :
    ∃ after, fileMarkers.outside (blockBytes cliPath ++ [lineEnd]) =
        [] :: fileMarkers.outside after ∧
      fileMarkers.outside (data ++ lineEnd :: lineEnd :: (blockBytes cliPath ++ [lineEnd])) =
        (data ++ [lineEnd, lineEnd]) :: fileMarkers.outside after := by
  obtain ⟨inner, hinner⟩ := blockBytes_eq cliPath
  obtain ⟨found, hfound⟩ := Blocks.Markers.exists_firstBlock fileMarkers [] inner [lineEnd]
  have hblock : blockBytes cliPath ++ [lineEnd] =
      [] ++ fileMarkers.opening ++ (inner ++ fileMarkers.closing ++ [lineEnd]) := by
    rw [hinner]
    simp only [List.append_assoc, List.nil_append]
  rw [← hblock] at hfound
  obtain ⟨before, inner, after⟩ := found
  have hbefore : before = [] := by
    obtain ⟨⟨first, rest⟩, hopening, hrest⟩ := Option.bind_eq_some_iff.mp hfound
    obtain ⟨⟨_, _⟩, -, heq⟩ := Option.map_eq_some_iff.mp hrest
    cases heq
    apply Blocks.eq_of_cut_prefix hopening _ fileMarkers.opening_ne_nil
    exact (opening_prefix_block cliPath).trans (List.prefix_append _ _)
  rw [hbefore] at hfound
  have houtside := Blocks.Markers.outside_of_some hfound
  refine ⟨after, houtside, ?_⟩
  have hlines : fileMarkers.outside (lineEnd :: lineEnd :: (blockBytes cliPath ++ [lineEnd])) =
      [lineEnd, lineEnd] :: fileMarkers.outside after := by
    change fileMarkers.outside (fileMarkers.sep :: fileMarkers.sep :: _) = _
    rw [Blocks.Markers.outside_cons_sep, Blocks.Markers.outside_cons_sep, houtside]
    rfl
  calc
    fileMarkers.outside (data ++ lineEnd :: lineEnd :: (blockBytes cliPath ++ [lineEnd])) =
        (fileMarkers.outside (lineEnd :: lineEnd :: (blockBytes cliPath ++ [lineEnd]))).modifyHead
          (data ++ ·) := Blocks.Markers.outside_append h
    _ = (data ++ [lineEnd, lineEnd]) :: fileMarkers.outside after := by
      rw [hlines]
      rfl

/-- Removing gives an installed profile back exactly if it takes the whole block out. -/
theorem removed_iff (hformed : WellFormed data) (h : ¬ fileMarkers.opening <:+: data)
    (hplain : ¬ EndsEscaped data) (hshort : ¬ Blocks.longRun lineEnd <:+: data) :
    (∃ rest, removeProfileAutostart (installProfileAutostart cliPath (some data)) = some rest ∧
      Blocks.trimEnd lineEnd rest = Blocks.trimEnd lineEnd data) ↔ BlockRemovedWhole cliPath := by
  obtain ⟨after, hblock, hinstalled⟩ := @outside_installed cliPath data h
  have hinstalledFormed : WellFormed
      (_ ++ lineEnd :: lineEnd :: (blockBytes cliPath ++ [lineEnd])) :=
    wellFormed_install hformed h
  rw [withoutEscapedEnd_eq_self_iff.mpr hplain] at hinstalledFormed
  rw [install_of_absent hformed h, withoutEscapedEnd_eq_self_iff.mpr hplain,
    removeProfileAutostart_some, rewritten_of_wellFormed hinstalledFormed]
  have hends : ∀ c ∈ [lineEnd, lineEnd], c = lineEnd := by simp
  constructor
  · rintro ⟨rest, heq, hsame⟩ piece hpiece
    rw [Option.some.injEq] at heq
    have hsolid := Blocks.solid_squeeze_strip fileMarkers
      (data ++ lineEnd :: lineEnd :: (blockBytes cliPath ++ [lineEnd]))
    change Blocks.solid lineEnd (Blocks.squeeze lineEnd _) = _ at hsolid
    rw [heq, ← Blocks.solid_trimEnd, hsame, Blocks.solid_trimEnd, hinstalled, List.map_cons,
      List.flatten_cons] at hsolid
    change _ = Blocks.solid lineEnd (data ++ _) ++ _ at hsolid
    rw [Blocks.solid_append, Blocks.solid_eq_nil_iff.mpr hends, List.append_nil,
      List.self_eq_append_right, List.flatten_eq_nil_iff] at hsolid
    rw [hblock] at hpiece
    rcases List.mem_cons.mp hpiece with rfl | hafter
    · exact List.forall_mem_nil _
    · exact Blocks.solid_eq_nil_iff.mp (hsolid _ (List.mem_map_of_mem hafter))
  · intro hwhole
    have hafter : ∀ piece ∈ fileMarkers.outside after, ∀ c ∈ piece, c = lineEnd :=
      fun piece hpiece => hwhole piece (hblock ▸ List.mem_cons_of_mem _ hpiece)
    have hnil := Blocks.eq_nil_of_mem_trimAfter hafter
    have hcores : Blocks.cores lineEnd (fileMarkers.outside
        (data ++ lineEnd :: lineEnd :: (blockBytes cliPath ++ [lineEnd]))) =
        Blocks.trimEnd lineEnd data :: Blocks.trimAfter lineEnd (fileMarkers.outside after) := by
      rw [hinstalled, Blocks.cores_cons (Blocks.outside_ne_nil fileMarkers after),
        Blocks.trimEnd_append hends]
    have hkept : RemoveKeeps
        (data ++ lineEnd :: lineEnd :: (blockBytes cliPath ++ [lineEnd])) := by
      rw [removeKeeps_iff hinstalledFormed, hcores, List.forall_mem_cons]
      constructor
      · obtain ⟨gap, -, htext⟩ := Blocks.exists_trimEnd lineEnd data
        exact fun hlong => hshort (hlong.trans ⟨[], gap, htext.symm⟩)
      · intro piece hpiece hlong
        rw [hnil piece hpiece] at hlong
        exact absurd (List.infix_nil.mp hlong) (List.cons_ne_nil _ _)
    obtain ⟨rest, hrest, hwoven⟩ := hkept
    rw [removeProfileAutostart_some, rewritten_of_wellFormed hinstalledFormed] at hrest
    refine ⟨rest, hrest, ?_⟩
    rw [hcores] at hwoven
    obtain ⟨gap, hgap, rfl⟩ := hwoven.exists_gap hnil
    rw [Blocks.trimEnd_append hgap,
      Blocks.trimEnd_of_getLast? (Blocks.getLast?_trimEnd lineEnd data)]

/-- Autostart in a profile of UTF-8 is a lens exactly if no escaped end is cut off, the block is
taken out whole and no long run of line ends is away from a block; in a profile without a block
that is no UTF-8 it is none. -/
theorem profileLens_iff (cliPath : Str) (data : Bytes) :
    (WellFormed data → (ProfileLens cliPath data ↔
      (¬ fileMarkers.opening <:+: data → ¬ EndsEscaped data ∧ BlockRemovedWhole cliPath) ∧
        ∀ piece ∈ Blocks.cores lineEnd (fileMarkers.outside data),
          ¬ Blocks.longRun lineEnd <:+: piece)) ∧
      (¬ WellFormed data → fileMarkers.firstBlock data = none → ¬ ProfileLens cliPath data) := by
  refine ⟨?_, fun hformed hnone hlens => not_removeKeeps hformed hnone hlens.remove⟩
  intro hformed
  have hwhole : ¬ fileMarkers.opening <:+: data → fileMarkers.outside data = [data] := by
    intro h
    apply Blocks.Markers.outside_of_none
    exact congrArg (Option.bind · _) (Blocks.cut_eq_none_iff.mpr h)
  constructor
  · rintro ⟨hinstall, hremove⟩
    have hshort := (removeKeeps_iff hformed).mp hremove
    refine ⟨?_, hshort⟩
    intro h
    obtain ⟨hkept, -, hremoved⟩ := hinstall h
    have hplain := (installed_iff hformed h).mp hkept
    rw [hwhole h] at hshort
    exact ⟨hplain, (removed_iff hformed h hplain (hshort data List.mem_cons_self)).mp hremoved⟩
  · rintro ⟨hinstall, hshort⟩
    refine ⟨?_, (removeKeeps_iff hformed).mpr hshort⟩
    intro h
    obtain ⟨hplain, hblock⟩ := hinstall h
    rw [hwhole h] at hshort
    exact ⟨(installed_iff hformed h).mpr hplain, install_install hformed h,
      (removed_iff hformed h hplain (hshort data List.mem_cons_self)).mpr hblock⟩

/-- Blank lines of the user are lost. -/
theorem blank_lines_lost : ¬ ∀ (cliPath : Str) (data : Bytes), ProfileLens cliPath data := by
  intro h
  have hremove := (h [] (Utf8.encodeLossy (lit "a\n\n\nb"))).remove
  rw [removeKeeps_iff (wellFormed_encodeLossy _), Blocks.Markers.outside_of_none (by decide)]
    at hremove
  exact hremove _ List.mem_cons_self (by decide)

end Lens

end MediaBridge.Personal
