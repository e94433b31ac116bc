import MediaBridge.Foundation.JsonVerbatim

/-!
# Dictionaries with the default separators

`json.dumps` without `separators` writes a space after each comma and each colon. The white space
is skipped when the text is read.

## Implementation notes

The spaces are those between the entries of the dictionary itself. A value that is a container is
written without spaces of its own, so a dictionary of strings, integers and constants is written as
the interpreter writes it.
-/

namespace MediaBridge.Foundation.JsonText

/-- A comma and a space. -/
def commaSpace : Str := [comma, cp 32]

/-- A member of a dictionary with a space after its colon. -/
def spacedMember (ensureAscii : Bool) (e : Str × Str) : Str :=
  stringText ensureAscii e.1 ++ [colon, cp 32] ++ e.2

/-- `json.dumps(fields)` with the default separators. -/
def dumpsSpaced (F : FloatText) (style : Style) (fields : List (Str × Json)) : Option Str := do
  let texts ← dumpsFields F style fields
  let members := (orderedFields style.sortKeys texts).map (spacedMember style.ensureAscii)
  return openBrace :: Str.join commaSpace members ++ [closeBrace]

variable {F : FloatText} {style : Style} {fields : List (Str × Json)} {text : Str}

section Reading

/-- The members of a dictionary are read over the spaces between them. -/
theorem scanMembers_spaced (hhead : ∀ e ∈ fields, Opening F style e.2)
    (hkeys : ∀ e ∈ fields, KeyBack style e.1) (hread : ∀ e ∈ fields, ReadsBack F style e.2)
    (hne : fields ≠ []) {texts : List (Str × Str)}
    (h : dumpsFields F style fields = some texts) (sofar : Entries Str Json)
    (hnodup : (Entries.keys (sofar ++ fields)).Nodup) (fuel depth : Nat) (rest : Str)
    (hfuel : 2 * (Str.join commaSpace (texts.map (spacedMember style.ensureAscii))).length + 2 ≤
      fuel)
    (hdepth : Json.depthFields fields ≤ depth) :
    scanMembers F fuel depth sofar
        (Str.join commaSpace (texts.map (spacedMember style.ensureAscii)) ++ closeBrace :: rest) =
      .ok (sofar ++ fields, rest) := by
  induction fields generalizing texts fuel sofar with
  | nil => exact absurd rfl hne
  | cons e fields ih =>
      obtain ⟨key, v⟩ := e
      rw [dumpsFields] at h
      obtain ⟨first, hfirst, h⟩ := Option.bind_eq_some_iff.mp h
      obtain ⟨more, hmore, h⟩ := Option.bind_eq_some_iff.mp h
      cases h
      obtain ⟨fuel, rfl⟩ : ∃ n, fuel = n + 1 := ⟨fuel - 1, by omega⟩
      rw [Json.depthFields, Nat.max_le] at hdepth
      have hkey := hkeys (key, v) List.mem_cons_self
      have hset : Entries.set sofar key v = sofar ++ [(key, v)] := by
        apply Entries.set_of_notMem
        intro hmem
        rw [Entries.keys_append, List.nodup_append] at hnodup
        exact hnodup.2.2 key hmem key (by simp [Entries.keys]) rfl
      obtain ⟨c, t, rfl, hopens⟩ := hhead (key, v) List.mem_cons_self hfirst
      have hmember (r : Str) : spacedMember style.ensureAscii (key, c :: t) ++ r =
          quote :: (key.flatMap (escapePoint style.ensureAscii) ++ quote ::
            (colon :: cp 32 :: (c :: t ++ r))) := by
        simp [spacedMember, stringText]
      have hlength : (spacedMember style.ensureAscii (key, c :: t)).length =
          (key.flatMap (escapePoint style.ensureAscii)).length + 4 + (c :: t).length := by
        simp [spacedMember, stringText]
        omega
      have hcolon (r : Str) : skipSpace (colon :: r) = colon :: r := rfl
      have hspace (r : Str) : skipSpace (cp 32 :: (c :: r)) = c :: r :=
        skipSpace_of_opens hopens r
      cases fields with
      | nil =>
          cases hmore
          rw [List.map_singleton, Str.join_singleton] at hfuel ⊢
          have hv := hread (key, v) List.mem_cons_self hfirst fuel depth (closeBrace :: rest)
            (by omega) hdepth.1 (delimited_closeBrace _)
          have hclose : skipSpace (closeBrace :: rest) = closeBrace :: rest := rfl
          rw [List.cons_append] at hv
          rw [hmember, scanMembers, if_pos rfl, hkey]
          simp only [bind, Except.bind, hcolon, if_true, List.cons_append, hspace, hv, hset, hclose]
      | cons e' fields =>
          obtain ⟨second, more, rfl⟩ : ∃ a b, more = (e'.1, a) :: b := by
            rw [dumpsFields] at hmore
            obtain ⟨a, -, hmore⟩ := Option.bind_eq_some_iff.mp hmore
            obtain ⟨b, -, hmore⟩ := Option.bind_eq_some_iff.mp hmore
            exact ⟨a, b, by cases hmore; rfl⟩
          rw [List.map_cons, List.map_cons, Str.join_cons_cons] at hfuel ⊢
          rw [← List.map_cons] at hfuel ⊢
          simp only [List.length_append] at hfuel
          have hv := hread (key, v) List.mem_cons_self hfirst fuel depth
            (comma :: cp 32 :: (Str.join commaSpace (((e'.1, second) :: more).map
              (spacedMember style.ensureAscii)) ++ closeBrace :: rest))
            (by omega) hdepth.1 (delimited_comma _)
          have htail := ih (fun x hx => hhead x (List.mem_cons_of_mem _ hx))
            (fun x hx => hkeys x (List.mem_cons_of_mem _ hx))
            (fun x hx => hread x (List.mem_cons_of_mem _ hx)) (List.cons_ne_nil _ _) hmore
            (sofar ++ [(key, v)]) (by simpa [Entries.keys] using hnodup) fuel
            (by omega) hdepth.2
          obtain ⟨t', hjoin⟩ : ∃ t', Str.join commaSpace (((e'.1, second) :: more).map
              (spacedMember style.ensureAscii)) = quote :: t' := by
            cases more with
            | nil => exact ⟨_, rfl⟩
            | cons a b => exact ⟨_, rfl⟩
          rw [hjoin] at hv htail ⊢
          rw [List.append_assoc, List.append_assoc, hmember]
          have hcomma (r : Str) : skipSpace (comma :: r) = comma :: r := rfl
          have hquote (r : Str) : skipSpace (cp 32 :: quote :: r) = quote :: r := rfl
          have hother : comma ≠ closeBrace := by decide
          simp only [List.cons_append] at hv htail
          rw [scanMembers, if_pos rfl, hkey]
          simp only [bind, Except.bind, hcolon, if_true, List.cons_append, List.nil_append, hspace,
            commaSpace, hv, hset, hcomma, if_neg hother, hquote, htail, List.append_assoc]

/-- Sorting the entries and their texts. -/
theorem dumpsFields_ordered {texts : List (Str × Str)} (sortKeys : Bool)
    (h : dumpsFields F style fields = some texts) :
    dumpsFields F style (orderedFields sortKeys fields) = some (orderedFields sortKeys texts) :=
  dumpsFields_eq_some_iff.mpr
    (forall₂_orderedFields (fun _ _ h => h.1) (dumpsFields_eq_some_iff.mp h))

/-- The text of a dictionary is read as the dictionary in the order in which it was written. -/
theorem loads_dumpsSpaced (hnodup : (Entries.keys fields).Nodup)
    (hhead : ∀ e ∈ fields, Opening F style e.2) (hkeys : ∀ e ∈ fields, KeyBack style e.1)
    (hread : ∀ e ∈ fields, ReadsBack F style e.2) (htext : dumpsSpaced F style fields = some text)
    {depth : Nat} (hdepth : Json.depth (.obj fields) ≤ depth) :
    loads F depth text = .ok (.obj (orderedFields style.sortKeys fields)) := by
  obtain ⟨texts, htexts, htext⟩ := Option.bind_eq_some_iff.mp htext
  have hordered := dumpsFields_ordered style.sortKeys htexts
  have hperm := orderedFields_perm style.sortKeys fields
  have hsorted : (Entries.keys (orderedFields style.sortKeys fields)).Nodup :=
    (hperm.map Prod.fst).nodup_iff.mpr hnodup
  rw [Json.depth] at hdepth
  have hshort : Json.depthFields (orderedFields style.sortKeys fields) ≤ depth - 1 := by
    rw [Json.depthFields_le_iff]
    intro e he
    exact Json.depthFields_le_iff.mp (by omega) e (hperm.mem_iff.mp he)
  obtain ⟨depth, rfl⟩ : ∃ n, depth = n + 1 := ⟨depth - 1, by omega⟩
  generalize hfields : orderedFields style.sortKeys fields = ordered at *
  generalize orderedFields style.sortKeys texts = members at *
  cases htext
  have hbom (t : Str) : (openBrace :: t).head? ≠ some (cp 0xFEFF) := by
    rw [List.head?_cons, ne_eq, Option.some.injEq]
    decide
  have hopen (t : Str) : skipSpace (openBrace :: t) = openBrace :: t := rfl
  cases ordered with
  | nil =>
      cases hordered
      rw [loads, List.cons_append, if_neg (hbom _), hopen]
      rfl
  | cons e rest =>
      obtain ⟨t, hjoin⟩ : ∃ t, Str.join commaSpace
          (members.map (spacedMember style.ensureAscii)) = quote :: t := by
        rw [dumpsFields] at hordered
        obtain ⟨first, -, hordered⟩ := Option.bind_eq_some_iff.mp hordered
        obtain ⟨more, -, hordered⟩ := Option.bind_eq_some_iff.mp hordered
        cases hordered
        cases more with
        | nil => exact ⟨_, rfl⟩
        | cons a b => exact ⟨_, rfl⟩
      have hmembers := scanMembers_spaced
        (fun x hx => hhead x (hperm.mem_iff.mp hx)) (fun x hx => hkeys x (hperm.mem_iff.mp hx))
        (fun x hx => hread x (hperm.mem_iff.mp hx)) (List.cons_ne_nil e rest) hordered []
        (by simpa using hsorted)
        (2 * (openBrace :: Str.join commaSpace (members.map (spacedMember style.ensureAscii)) ++
          [closeBrace]).length + 1) depth []
        (by simp only [List.length_append, List.length_cons]; omega) hshort
      rw [hjoin, List.cons_append, List.cons_append] at hmembers
      rw [hjoin, List.cons_append, List.cons_append, loads, if_neg (hbom _), hopen,
        scanValue_obj F _ depth _ opens_quote, hmembers]
      rfl

end Reading

section Characters

/-- What all characters of the keys and the values are, all characters of the text are. -/
theorem forall_mem_dumpsSpaced {P : CodePoint → Prop} (hprint : ∀ c, IsPrintable c → P c)
    (hkeys : ∀ e ∈ fields, ∀ c ∈ stringText style.ensureAscii e.1, P c)
    (hvalues : ∀ e ∈ fields, ∀ t, dumps F style e.2 = some t → ∀ c ∈ t, P c)
    (htext : dumpsSpaced F style fields = some text) : ∀ c ∈ text, P c := by
  obtain ⟨texts, htexts, htext⟩ := Option.bind_eq_some_iff.mp htext
  cases htext
  intro c hc
  rw [List.cons_append, List.mem_cons, List.mem_append, List.mem_singleton] at hc
  rcases hc with rfl | hc | rfl
  · exact hprint _ (by decide)
  · rcases mem_joined hc with hc | ⟨member, hmember, hc⟩
    · have hsep : ∀ d ∈ commaSpace, IsPrintable d :=
        List.forall_mem_cons.mpr ⟨by decide, List.forall_mem_singleton.mpr (by decide)⟩
      exact hprint c (hsep c hc)
    · obtain ⟨t, ht, rfl⟩ := List.mem_map.mp hmember
      obtain ⟨e, he, hkey, hdumps⟩ := exists_of_forall₂ (dumpsFields_eq_some_iff.mp htexts)
        (mem_orderedFields.mp ht)
      rw [spacedMember, List.mem_append, List.mem_append] at hc
      rcases hc with (hc | hc) | hc
      · rw [← hkey] at hc
        exact hkeys e he c hc
      · have hsep : ∀ d ∈ [colon, cp 32], IsPrintable d :=
          List.forall_mem_cons.mpr ⟨by decide, List.forall_mem_singleton.mpr (by decide)⟩
        exact hprint c (hsep c hc)
      · exact hvalues e he _ hdumps c hc
  · exact hprint _ (by decide)

end Characters

end MediaBridge.Foundation.JsonText
