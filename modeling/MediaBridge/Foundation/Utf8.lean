import MediaBridge.Foundation.Text

/-!
# UTF-8 as `str.encode` and `bytes.decode`

Strict encoding and decoding, and decoding with the `surrogatepass` handler
that `json.loads` uses on bytes.

## Implementation notes

A decoder reads one code point at a time. Each length of a sequence has its own
reader, which checks the continuation bytes, the shortest form and the range.
-/

namespace MediaBridge.Foundation.Utf8

/-- A byte with a given number; numbers past the last one wrap. -/
def byte (n : Nat) : Byte := ⟨n % 256, Nat.mod_lt _ (by decide)⟩

/-- The bytes of one code point, surrogates included. -/
def encodePoint (c : CodePoint) : Bytes :=
  if c.val < 0x80 then [byte c.val]
  else if c.val < 0x800 then [byte (0xC0 + c.val / 64), byte (0x80 + c.val % 64)]
  else if c.val < 0x10000 then
    [byte (0xE0 + c.val / 4096), byte (0x80 + c.val / 64 % 64), byte (0x80 + c.val % 64)]
  else
    [byte (0xF0 + c.val / 262144), byte (0x80 + c.val / 4096 % 64),
      byte (0x80 + c.val / 64 % 64), byte (0x80 + c.val % 64)]

/-- `s.encode("utf-8")`; `none` is a `UnicodeEncodeError`. -/
def encode (s : Str) : Option Bytes :=
  if Str.encodable s then some (s.flatMap encodePoint) else none

def isContinuation (b : Byte) : Bool := 0x80 ≤ b.val && b.val < 0xC0

/-- A two-byte sequence. -/
def two (a b : Byte) : Option CodePoint :=
  if 0xC2 ≤ a.val ∧ a.val < 0xE0 ∧ isContinuation b then
    some (cp ((a.val - 0xC0) * 64 + (b.val - 0x80)))
  else none

/-- A three-byte sequence; `surrogates` says whether one may stand for a surrogate. -/
def three (surrogates : Bool) (a b c : Byte) : Option CodePoint :=
  let v := (a.val - 0xE0) * 4096 + (b.val - 0x80) * 64 + (c.val - 0x80)
  if 0xE0 ≤ a.val ∧ a.val < 0xF0 ∧ isContinuation b ∧ isContinuation c ∧ 0x800 ≤ v ∧
      (surrogates ∨ v < 0xD800 ∨ 0xE000 ≤ v) then
    some (cp v)
  else none

/-- A four-byte sequence. -/
def four (a b c d : Byte) : Option CodePoint :=
  let v := (a.val - 0xF0) * 262144 + (b.val - 0x80) * 4096 + (c.val - 0x80) * 64 + (d.val - 0x80)
  if 0xF0 ≤ a.val ∧ a.val < 0xF5 ∧ isContinuation b ∧ isContinuation c ∧ isContinuation d ∧
      0x10000 ≤ v ∧ v < 0x110000 then
    some (cp v)
  else none

/-- `data.decode("utf-8")`, or with `errors="surrogatepass"`; `none` is a
`UnicodeDecodeError`. -/
def decodeWith (surrogates : Bool) : Bytes → Option Str
  | [] => some []
  | a :: rest =>
      if a.val < 0x80 then (decodeWith surrogates rest).map (cp a.val :: ·)
      else
        match rest with
        | [] => none
        | b :: rest =>
            match two a b with
            | some p => (decodeWith surrogates rest).map (p :: ·)
            | none =>
                match rest with
                | [] => none
                | c :: rest =>
                    match three surrogates a b c with
                    | some p => (decodeWith surrogates rest).map (p :: ·)
                    | none =>
                        match rest with
                        | [] => none
                        | d :: rest =>
                            match four a b c d with
                            | some p => (decodeWith surrogates rest).map (p :: ·)
                            | none => none

/-- `data.decode("utf-8")`. -/
def decode (data : Bytes) : Option Str := decodeWith false data

section Steps

variable {surrogates : Bool} {a b c d : Byte} {p : CodePoint} (rest : Bytes)

theorem decodeWith_one (ha : a.val < 0x80) :
    decodeWith surrogates (a :: rest) = (decodeWith surrogates rest).map (cp a.val :: ·) := by
  conv_lhs => rw [decodeWith.eq_def]
  simp [ha]

theorem decodeWith_two (ha : ¬ a.val < 0x80) (h : two a b = some p) :
    decodeWith surrogates (a :: b :: rest) = (decodeWith surrogates rest).map (p :: ·) := by
  conv_lhs => rw [decodeWith.eq_def]
  simp [ha, h]

theorem decodeWith_three (ha : ¬ a.val < 0x80) (h2 : two a b = none)
    (h : three surrogates a b c = some p) :
    decodeWith surrogates (a :: b :: c :: rest) =
      (decodeWith surrogates rest).map (p :: ·) := by
  conv_lhs => rw [decodeWith.eq_def]
  simp [ha, h2, h]

theorem decodeWith_four (ha : ¬ a.val < 0x80) (h2 : two a b = none)
    (h3 : three surrogates a b c = none) (h : four a b c d = some p) :
    decodeWith surrogates (a :: b :: c :: d :: rest) =
      (decodeWith surrogates rest).map (p :: ·) := by
  conv_lhs => rw [decodeWith.eq_def]
  simp [ha, h2, h3, h]

end Steps

theorem val_byte_of_lt {n : Nat} (h : n < 256) : (byte n).val = n := Nat.mod_eq_of_lt h

theorem cp_val (c : CodePoint) : cp c.val = c := by
  ext
  exact Nat.mod_eq_of_lt c.isLt

/-- Decoding reads back the code point that was encoded last. -/
theorem decodeWith_encodePoint_append {surrogates : Bool} {c : CodePoint}
    (h : surrogates = true ∨ c.isSurrogate = false) (rest : Bytes) :
    decodeWith surrogates (encodePoint c ++ rest) =
      (decodeWith surrogates rest).map (c :: ·) := by
  have hc := c.isLt
  have hs : surrogates = true ∨ c.val < 0xD800 ∨ 0xE000 ≤ c.val := by
    rcases h with h | h
    · exact .inl h
    · simp only [CodePoint.isSurrogate, Bool.and_eq_false_iff, decide_eq_false_iff_not] at h
      omega
  unfold encodePoint
  split
  · rename_i h1
    have ha := val_byte_of_lt (n := c.val) (by omega)
    rw [List.singleton_append, decodeWith_one _ (by rw [ha]; exact h1), ha, cp_val]
  split
  · rename_i h1 h2
    have ha := val_byte_of_lt (n := 0xC0 + c.val / 64) (by omega)
    have hb := val_byte_of_lt (n := 0x80 + c.val % 64) (by omega)
    refine decodeWith_two _ (by rw [ha]; omega) ?_
    have hv : (0xC0 + c.val / 64 - 0xC0) * 64 + (0x80 + c.val % 64 - 0x80) = c.val := by omega
    simp only [two, isContinuation, ha, hb, hv, cp_val]
    rw [if_pos (by simp; omega)]
  split
  · rename_i h1 h2 h3
    have ha := val_byte_of_lt (n := 0xE0 + c.val / 4096) (by omega)
    have hb := val_byte_of_lt (n := 0x80 + c.val / 64 % 64) (by omega)
    have hcc := val_byte_of_lt (n := 0x80 + c.val % 64) (by omega)
    refine decodeWith_three _ (by rw [ha]; omega) ?_ ?_
    · simp only [two, ha]
      rw [if_neg (by omega)]
    · have hv : (0xE0 + c.val / 4096 - 0xE0) * 4096 + (0x80 + c.val / 64 % 64 - 0x80) * 64 +
          (0x80 + c.val % 64 - 0x80) = c.val := by omega
      simp only [three, isContinuation, ha, hb, hcc, hv, cp_val]
      rw [if_pos ⟨by omega, by omega, by simp; omega, by simp; omega, by omega, hs⟩]
  · rename_i h1 h2 h3
    have ha := val_byte_of_lt (n := 0xF0 + c.val / 262144) (by omega)
    have hb := val_byte_of_lt (n := 0x80 + c.val / 4096 % 64) (by omega)
    have hcc := val_byte_of_lt (n := 0x80 + c.val / 64 % 64) (by omega)
    have hd := val_byte_of_lt (n := 0x80 + c.val % 64) (by omega)
    refine decodeWith_four _ (by rw [ha]; omega) ?_ ?_ ?_
    · simp only [two, ha]
      rw [if_neg (by omega)]
    · simp only [three, ha]
      rw [if_neg (by omega)]
    · have hv : (0xF0 + c.val / 262144 - 0xF0) * 262144 +
          (0x80 + c.val / 4096 % 64 - 0x80) * 4096 + (0x80 + c.val / 64 % 64 - 0x80) * 64 +
          (0x80 + c.val % 64 - 0x80) = c.val := by omega
      simp only [four, isContinuation, ha, hb, hcc, hd, hv, cp_val]
      rw [if_pos (by simp; omega)]

theorem decodeWith_flatMap_append (surrogates : Bool) {s : Str}
    (h : surrogates = true ∨ Str.encodable s = true) (rest : Bytes) :
    decodeWith surrogates (s.flatMap encodePoint ++ rest) =
      (decodeWith surrogates rest).map (s ++ ·) := by
  induction s with
  | nil => simp
  | cons c s ih =>
      have hc : surrogates = true ∨ c.isSurrogate = false := by
        refine h.imp_right fun he => ?_
        simp only [Str.encodable, List.all_cons, Bool.and_eq_true, Bool.not_eq_true'] at he
        exact he.1
      have hs : surrogates = true ∨ Str.encodable s = true := by
        refine h.imp_right fun he => ?_
        simp only [Str.encodable, List.all_cons, Bool.and_eq_true] at he
        exact he.2
      rw [List.flatMap_cons, List.append_assoc, decodeWith_encodePoint_append hc, ih hs,
        Option.map_map]
      rfl

/-- Decoding an encoding gives the text back. -/
theorem decodeWith_encode (surrogates : Bool) {s : Str} {data : Bytes}
    (h : encode s = some data) : decodeWith surrogates data = some s := by
  unfold encode at h
  split at h
  · rename_i hs
    cases h
    have happend := decodeWith_flatMap_append surrogates (.inr hs) []
    simpa [decodeWith] using happend
  · cases h

theorem encode_append {s t : Str} {a b : Bytes} (hs : encode s = some a) (ht : encode t = some b) :
    encode (s ++ t) = some (a ++ b) := by
  unfold encode at hs ht ⊢
  split_ifs at hs ht with hleft hright
  cases hs
  cases ht
  have hboth : Str.encodable (s ++ t) = true :=
    List.all_append.trans (Bool.and_eq_true_iff.mpr ⟨hleft, hright⟩)
  rw [if_pos hboth, List.flatMap_append]

/-- Text that is UTF-8 by itself is decoded before what follows it. -/
theorem decodeWith_append {surrogates : Bool} {s : Bytes} {text : Str}
    (h : decodeWith surrogates s = some text) (t : Bytes) :
    decodeWith surrogates (s ++ t) = (decodeWith surrogates t).map (text ++ ·) := by
  induction s using decodeWith.induct surrogates generalizing text with
  | case1 =>
      cases h
      simp
  | case2 a rest ha ih =>
      rw [decodeWith_one _ ha] at h
      obtain ⟨more, hmore, rfl⟩ := Option.map_eq_some_iff.mp h
      rw [List.cons_append, decodeWith_one _ ha, ih hmore, Option.map_map]
      rfl
  | case3 a ha =>
      rw [decodeWith.eq_def] at h
      simp [ha] at h
  | case4 a ha b rest p hp ih =>
      rw [decodeWith_two _ ha hp] at h
      obtain ⟨more, hmore, rfl⟩ := Option.map_eq_some_iff.mp h
      rw [List.cons_append, List.cons_append, decodeWith_two _ ha hp, ih hmore, Option.map_map]
      rfl
  | case5 a ha b h2 =>
      rw [decodeWith.eq_def] at h
      simp [ha, h2] at h
  | case6 a ha b h2 c rest p hp ih =>
      rw [decodeWith_three _ ha h2 hp] at h
      obtain ⟨more, hmore, rfl⟩ := Option.map_eq_some_iff.mp h
      rw [List.cons_append, List.cons_append, List.cons_append, decodeWith_three _ ha h2 hp,
        ih hmore, Option.map_map]
      rfl
  | case7 a ha b h2 c h3 =>
      rw [decodeWith.eq_def] at h
      simp [ha, h2, h3] at h
  | case8 a ha b h2 c h3 d rest p hp ih =>
      rw [decodeWith_four _ ha h2 h3 hp] at h
      obtain ⟨more, hmore, rfl⟩ := Option.map_eq_some_iff.mp h
      rw [List.cons_append, List.cons_append, List.cons_append, List.cons_append,
        decodeWith_four _ ha h2 h3 hp, ih hmore, Option.map_map]
      rfl
  | case9 a ha b h2 c h3 d rest h4 =>
      rw [decodeWith.eq_def] at h
      simp [ha, h2, h3, h4] at h

theorem decode_append {s : Bytes} {text : Str} (h : decode s = some text) (t : Bytes) :
    decode (s ++ t) = (decode t).map (text ++ ·) :=
  decodeWith_append h t

theorem isSurrogate_cp {v : Nat} (h : v < 0xD800 ∨ 0xE000 ≤ v) (hlt : v < 0x110000) :
    (cp v).isSurrogate = false := by
  have hval : (cp v).val = v := Nat.mod_eq_of_lt hlt
  simp only [CodePoint.isSurrogate, hval, Bool.and_eq_false_iff, decide_eq_false_iff_not]
  omega

/-- What the strict decoder gives has no surrogates. -/
theorem encodable_of_decode {data : Bytes} {text : Str} (h : decode data = some text) :
    Str.encodable text = true := by
  have hcons {c : CodePoint} {s : Str} (hc : c.isSurrogate = false)
      (hs : Str.encodable s = true) : Str.encodable (c :: s) = true := by
    rw [Str.encodable, List.all_cons, hc]
    exact hs
  unfold decode at h
  induction data using decodeWith.induct false generalizing text with
  | case1 =>
      cases h
      rfl
  | case2 a rest ha ih =>
      rw [decodeWith_one _ ha] at h
      obtain ⟨more, hmore, rfl⟩ := Option.map_eq_some_iff.mp h
      exact hcons (isSurrogate_cp (by omega) (by omega)) (ih hmore)
  | case3 a ha =>
      rw [decodeWith.eq_def] at h
      simp [ha] at h
  | case4 a ha b rest p hp ih =>
      rw [decodeWith_two _ ha hp] at h
      obtain ⟨more, hmore, rfl⟩ := Option.map_eq_some_iff.mp h
      refine hcons ?_ (ih hmore)
      simp only [two, isContinuation, Bool.and_eq_true, decide_eq_true_eq] at hp
      split_ifs at hp with hrange
      rw [← Option.some.inj hp]
      exact isSurrogate_cp (by omega) (by omega)
  | case5 a ha b h2 =>
      rw [decodeWith.eq_def] at h
      simp [ha, h2] at h
  | case6 a ha b h2 c rest p hp ih =>
      rw [decodeWith_three _ ha h2 hp] at h
      obtain ⟨more, hmore, rfl⟩ := Option.map_eq_some_iff.mp h
      refine hcons ?_ (ih hmore)
      simp only [three, isContinuation, Bool.and_eq_true, decide_eq_true_eq, Bool.false_eq_true,
        false_or] at hp
      split_ifs at hp with hrange
      rw [← Option.some.inj hp]
      exact isSurrogate_cp (by omega) (by omega)
  | case7 a ha b h2 c h3 =>
      rw [decodeWith.eq_def] at h
      simp [ha, h2, h3] at h
  | case8 a ha b h2 c h3 d rest p hp ih =>
      rw [decodeWith_four _ ha h2 h3 hp] at h
      obtain ⟨more, hmore, rfl⟩ := Option.map_eq_some_iff.mp h
      refine hcons ?_ (ih hmore)
      simp only [four, isContinuation, Bool.and_eq_true, decide_eq_true_eq] at hp
      split_ifs at hp with hrange
      rw [← Option.some.inj hp]
      exact isSurrogate_cp (by omega) (by omega)
  | case9 a ha b h2 c h3 d rest h4 =>
      rw [decodeWith.eq_def] at h
      simp [ha, h2, h3, h4] at h

/-- An ASCII text is encoded byte for code point. -/
theorem encode_ascii {s : Str} (h : ∀ c ∈ s, c.isAscii = true) :
    encode s = some (s.map fun c => byte c.val) := by
  rw [encode, if_pos (Str.encodable_of_ascii h)]
  congr 1
  induction s with
  | nil => rfl
  | cons c s ih =>
      have hc : c.val < 0x80 := by simpa [CodePoint.isAscii] using h c List.mem_cons_self
      rw [List.flatMap_cons, ih fun d hd => h d (List.mem_cons_of_mem _ hd), List.map_cons,
        encodePoint, if_pos hc]
      rfl

end MediaBridge.Foundation.Utf8
