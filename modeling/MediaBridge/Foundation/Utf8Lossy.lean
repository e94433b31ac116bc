import MediaBridge.Foundation.Utf8

/-!
# UTF-8 that is never refused

A decoder that reads a replacement character for each ill-formed part of its bytes, and an encoder
that writes one for each surrogate, as JavaScript reads and writes files.

## Implementation notes

An ill-formed part is the longest start of a well-formed sequence, or a single byte.
-/

namespace MediaBridge.Foundation.Utf8

def replacement : CodePoint := cp 0xFFFD

/-- Two bytes that start a sequence of three or four. -/
def startsLong (a b : Byte) : Bool :=
  isContinuation b && 0xE0 ≤ a.val && a.val < 0xF5 && !(a.val == 0xE0 && b.val < 0xA0) &&
    !(a.val == 0xED && 0xA0 ≤ b.val) && !(a.val == 0xF0 && b.val < 0x90) &&
    !(a.val == 0xF4 && 0x90 ≤ b.val)

/-- `buffer.toString("utf8")`. -/
def decodeLossy : Bytes → Str
  | [] => []
  | a :: rest =>
      if a.val < 0x80 then cp a.val :: decodeLossy rest
      else
        match rest with
        | [] => [replacement]
        | b :: rest =>
            match two a b with
            | some p => p :: decodeLossy rest
            | none =>
                if !startsLong a b then replacement :: decodeLossy (b :: rest)
                else
                  match rest with
                  | [] => [replacement]
                  | c :: rest =>
                      match three false a b c with
                      | some p => p :: decodeLossy rest
                      | none =>
                          if a.val < 0xF0 || !isContinuation c then
                            replacement :: decodeLossy (c :: rest)
                          else
                            match rest with
                            | [] => [replacement]
                            | d :: rest =>
                                match four a b c d with
                                | some p => p :: decodeLossy rest
                                | none => replacement :: decodeLossy (d :: rest)

/-- A code point as it is written. -/
def written (c : CodePoint) : CodePoint := if c.isSurrogate then replacement else c

/-- `Buffer.from(text, "utf8")`. -/
def encodeLossy (text : Str) : Bytes := (text.map written).flatMap encodePoint

theorem startsLong_of_three {a b c : Byte} {p : CodePoint} (h : three false a b c = some p) :
    startsLong a b = true := by
  simp only [three, isContinuation, Bool.and_eq_true, decide_eq_true_eq, Bool.false_eq_true,
    false_or] at h
  split_ifs at h with hrange
  simp only [startsLong, isContinuation, Bool.and_eq_true, decide_eq_true_eq, Bool.not_eq_true',
    Bool.and_eq_false_iff, beq_eq_false_iff_ne, decide_eq_false_iff_not]
  omega

theorem starts_of_four {a b c d : Byte} {p : CodePoint} (h : four a b c d = some p) :
    startsLong a b = true ∧ (a.val < 0xF0 || !isContinuation c) = false := by
  simp only [four, isContinuation, Bool.and_eq_true, decide_eq_true_eq] at h
  split_ifs at h with hrange
  simp only [startsLong, isContinuation, Bool.and_eq_true, decide_eq_true_eq, Bool.not_eq_true',
    Bool.and_eq_false_iff, beq_eq_false_iff_ne, decide_eq_false_iff_not, Bool.or_eq_false_iff,
    Bool.not_eq_false']
  omega

/-- Well-formed bytes, one sequence after the other. -/
inductive Decoded : Bytes → Str → Prop
  | nil : Decoded [] []
  | one (a) {rest text} : a.val < 0x80 → Decoded rest text →
      Decoded (a :: rest) (cp a.val :: text)
  | pair {a b rest p text} : ¬ a.val < 0x80 → two a b = some p → Decoded rest text →
      Decoded (a :: b :: rest) (p :: text)
  | triple {a b c rest p text} : ¬ a.val < 0x80 → two a b = none → three false a b c = some p →
      Decoded rest text → Decoded (a :: b :: c :: rest) (p :: text)
  | quad {a b c d rest p text} : ¬ a.val < 0x80 → two a b = none → three false a b c = none →
      four a b c d = some p → Decoded rest text → Decoded (a :: b :: c :: d :: rest) (p :: text)

theorem decoded_of_decode {data : Bytes} {text : Str} (h : decode data = some text) :
    Decoded data text := by
  unfold decode at h
  induction data using decodeWith.induct false generalizing text with
  | case1 =>
      cases h
      exact .nil
  | case2 a rest ha ih =>
      rw [decodeWith_one _ ha] at h
      obtain ⟨more, hmore, rfl⟩ := Option.map_eq_some_iff.mp h
      exact .one a ha (ih hmore)
  | case3 a ha =>
      rw [decodeWith.eq_def] at h
      simp [ha] at h
  | case4 a ha b rest p hp ih =>
      rw [decodeWith_two _ ha hp] at h
      obtain ⟨more, hmore, rfl⟩ := Option.map_eq_some_iff.mp h
      exact .pair ha hp (ih hmore)
  | case5 a ha b h2 =>
      rw [decodeWith.eq_def] at h
      simp [ha, h2] at h
  | case6 a ha b h2 c rest p hp ih =>
      rw [decodeWith_three _ ha h2 hp] at h
      obtain ⟨more, hmore, rfl⟩ := Option.map_eq_some_iff.mp h
      exact .triple ha h2 hp (ih hmore)
  | case7 a ha b h2 c h3 =>
      rw [decodeWith.eq_def] at h
      simp [ha, h2, h3] at h
  | case8 a ha b h2 c h3 d rest p hp ih =>
      rw [decodeWith_four _ ha h2 h3 hp] at h
      obtain ⟨more, hmore, rfl⟩ := Option.map_eq_some_iff.mp h
      exact .quad ha h2 h3 hp (ih hmore)
  | case9 a ha b h2 c h3 d rest h4 =>
      rw [decodeWith.eq_def] at h
      simp [ha, h2, h3, h4] at h

/-- Well-formed bytes are read as they are. -/
theorem decodeLossy_of_decode {data : Bytes} {text : Str} (h : decode data = some text) :
    decodeLossy data = text := by
  replace h := decoded_of_decode h
  induction h with
  | nil => rfl
  | one a ha _ ih =>
      rw [decodeLossy.eq_def]
      simp only [ha, if_true, ih]
  | pair ha hp _ ih =>
      rw [decodeLossy.eq_def]
      simp only [ha, if_false, hp, ih]
  | triple ha h2 hp _ ih =>
      rw [decodeLossy.eq_def]
      simp only [ha, if_false, h2, startsLong_of_three hp, Bool.not_true, Bool.false_eq_true, hp,
        ih]
  | quad ha h2 h3 hp _ ih =>
      obtain ⟨hlong, hfour⟩ := starts_of_four hp
      rw [decodeLossy.eq_def]
      simp only [ha, if_false, h2, hlong, Bool.not_true, Bool.false_eq_true, h3, hfour, hp, ih]

theorem encodePoint_ne_nil (c : CodePoint) : encodePoint c ≠ [] := by
  unfold encodePoint
  split_ifs <;> exact List.cons_ne_nil _ _

/-- An ASCII letter is a byte of its own. -/
theorem encodePoint_written_ascii (c : CodePoint) (h : c.val < 0x80) :
    encodePoint (written c) = [byte c.val] := by
  have hplain : c.isSurrogate = false := by
    simp only [CodePoint.isSurrogate, Bool.and_eq_false_iff, decide_eq_false_iff_not]
    omega
  rw [written, hplain, if_neg Bool.false_ne_true, encodePoint, if_pos h]

/-- No byte of another letter is an ASCII letter. -/
theorem le_of_mem_encodePoint_written {c : CodePoint} (h : 0x80 ≤ c.val) :
    ∀ b ∈ encodePoint (written c), 0x80 ≤ b.val := by
  have hwritten : 0x80 ≤ (written c).val := by
    unfold written
    split
    · decide
    · exact h
  have hlt := (written c).isLt
  generalize written c = d at hwritten hlt
  intro b hb
  rw [encodePoint, if_neg (by omega)] at hb
  split_ifs at hb <;> simp only [List.mem_cons, List.not_mem_nil, or_false] at hb
  · rcases hb with rfl | rfl <;> rw [val_byte_of_lt (by omega)] <;> omega
  · rcases hb with rfl | rfl | rfl <;> rw [val_byte_of_lt (by omega)] <;> omega
  · rcases hb with rfl | rfl | rfl | rfl <;> rw [val_byte_of_lt (by omega)] <;> omega

theorem isSurrogate_written (c : CodePoint) : (written c).isSurrogate = false := by
  unfold written
  split
  · decide
  · next h => exact Bool.eq_false_iff.mpr h

/-- What is written is well formed. -/
theorem decode_encodeLossy (text : Str) :
    decode (encodeLossy text) = some (text.map written) := by
  apply decodeWith_encode
  rw [encode, if_pos]
  · rfl
  · simp [Str.encodable, isSurrogate_written]

theorem encodeLossy_append (s t : Str) : encodeLossy (s ++ t) = encodeLossy s ++ encodeLossy t := by
  rw [encodeLossy, List.map_append, List.flatMap_append]
  rfl

/-- A text without surrogates is written as it is. -/
theorem encodeLossy_of_encodable {text : Str} (h : Str.encodable text = true) :
    encodeLossy text = text.flatMap encodePoint := by
  have hsame : text.map written = text := by
    rw [List.map_congr_left (g := id), List.map_id]
    intro c hc
    have hsurrogate := List.all_eq_true.mp h c hc
    exact if_neg (by simpa using hsurrogate)
  rw [encodeLossy, hsame]

theorem encodePoint_of_two {a b : Byte} {p : CodePoint} (h : two a b = some p) :
    encodePoint p = [a, b] := by
  simp only [two, isContinuation, Bool.and_eq_true, decide_eq_true_eq] at h
  split_ifs at h with hrange
  have hval : p.val = (a.val - 0xC0) * 64 + (b.val - 0x80) := by
    rw [← Option.some.inj h]
    exact Nat.mod_eq_of_lt (by omega)
  rw [encodePoint, if_neg (by omega), if_pos (by omega), hval]
  have ha : byte (0xC0 + ((a.val - 0xC0) * 64 + (b.val - 0x80)) / 64) = a := by
    apply Fin.ext
    rw [val_byte_of_lt (by omega)]
    omega
  have hb : byte (0x80 + ((a.val - 0xC0) * 64 + (b.val - 0x80)) % 64) = b := by
    apply Fin.ext
    rw [val_byte_of_lt (by omega)]
    omega
  rw [ha, hb]

theorem encodePoint_of_three {a b c : Byte} {p : CodePoint} (h : three false a b c = some p) :
    encodePoint p = [a, b, c] := by
  simp only [three, isContinuation, Bool.and_eq_true, decide_eq_true_eq, Bool.false_eq_true,
    false_or] at h
  split_ifs at h with hrange
  generalize hv : (a.val - 0xE0) * 4096 + (b.val - 0x80) * 64 + (c.val - 0x80) = v at h hrange
  have hval : p.val = v := by
    rw [← Option.some.inj h]
    exact Nat.mod_eq_of_lt (by omega)
  rw [encodePoint, if_neg (by omega), if_neg (by omega), if_pos (by omega), hval]
  have ha : byte (0xE0 + v / 4096) = a := by
    apply Fin.ext
    rw [val_byte_of_lt (by omega)]
    omega
  have hb : byte (0x80 + v / 64 % 64) = b := by
    apply Fin.ext
    rw [val_byte_of_lt (by omega)]
    omega
  have hc : byte (0x80 + v % 64) = c := by
    apply Fin.ext
    rw [val_byte_of_lt (by omega)]
    omega
  rw [ha, hb, hc]

theorem encodePoint_of_four {a b c d : Byte} {p : CodePoint} (h : four a b c d = some p) :
    encodePoint p = [a, b, c, d] := by
  simp only [four, isContinuation, Bool.and_eq_true, decide_eq_true_eq] at h
  split_ifs at h with hrange
  generalize hv : (a.val - 0xF0) * 262144 + (b.val - 0x80) * 4096 + (c.val - 0x80) * 64 +
    (d.val - 0x80) = v at h hrange
  have hval : p.val = v := by
    rw [← Option.some.inj h]
    exact Nat.mod_eq_of_lt (by omega)
  rw [encodePoint, if_neg (by omega), if_neg (by omega), if_neg (by omega), hval]
  have ha : byte (0xF0 + v / 262144) = a := by
    apply Fin.ext
    rw [val_byte_of_lt (by omega)]
    omega
  have hb : byte (0x80 + v / 4096 % 64) = b := by
    apply Fin.ext
    rw [val_byte_of_lt (by omega)]
    omega
  have hc : byte (0x80 + v / 64 % 64) = c := by
    apply Fin.ext
    rw [val_byte_of_lt (by omega)]
    omega
  have hd : byte (0x80 + v % 64) = d := by
    apply Fin.ext
    rw [val_byte_of_lt (by omega)]
    omega
  rw [ha, hb, hc, hd]

/-- Each sequence is the only one of its code point. -/
theorem flatMap_encodePoint_of_decode {data : Bytes} {text : Str} (h : decode data = some text) :
    text.flatMap encodePoint = data := by
  replace h := decoded_of_decode h
  induction h with
  | nil => rfl
  | one a ha _ ih =>
      have hval : (cp a.val).val = a.val := Nat.mod_eq_of_lt (by omega)
      have hbyte : byte a.val = a := Fin.ext (val_byte_of_lt a.isLt)
      rw [List.flatMap_cons, ih, encodePoint, hval, if_pos ha, hbyte]
      rfl
  | pair ha hp _ ih =>
      rw [List.flatMap_cons, ih, encodePoint_of_two hp]
      rfl
  | triple ha h2 hp _ ih =>
      rw [List.flatMap_cons, ih, encodePoint_of_three hp]
      rfl
  | quad ha h2 h3 hp _ ih =>
      rw [List.flatMap_cons, ih, encodePoint_of_four hp]
      rfl

/-- Well-formed bytes are written back as they were read. -/
theorem encodeLossy_decodeLossy {data : Bytes} {text : Str} (h : decode data = some text) :
    encodeLossy (decodeLossy data) = data := by
  rw [decodeLossy_of_decode h, encodeLossy_of_encodable (encodable_of_decode h)]
  exact flatMap_encodePoint_of_decode h

end MediaBridge.Foundation.Utf8
