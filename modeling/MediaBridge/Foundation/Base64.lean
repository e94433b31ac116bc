import MediaBridge.Foundation.Text

/-!
# Base64

The encoder of Python's `base64` module and its strict decoder
(`validate=True`): groups of four letters, padding only at the very end, and
nothing but alphabet letters before it.

## Implementation notes

Like the C decoder, `decode` drops the bits that a final group has beyond its
last byte, so several spellings of one final letter decode to the same bytes.
-/

namespace MediaBridge.Foundation.Base64

/-- Six bits. -/
abbrev Sextet := Fin 64

/-- The padding letter `=`. -/
def pad : CodePoint := cp 61

/-- The letter of the standard alphabet for six bits. -/
def letter (s : Sextet) : CodePoint :=
  if s.val < 26 then cp (s.val + 65)
  else if s.val < 52 then cp (s.val + 71)
  else if s.val < 62 then cp (s.val - 4)
  else if s.val = 62 then cp 43
  else cp 47

/-- The six bits of an alphabet letter. -/
def sextet (c : CodePoint) : Option Sextet :=
  if c.isAsciiUpper then some ⟨(c.val - 65) % 64, Nat.mod_lt _ (by decide)⟩
  else if c.isAsciiLower then some ⟨(c.val - 71) % 64, Nat.mod_lt _ (by decide)⟩
  else if c.isAsciiDigit then some ⟨(c.val + 4) % 64, Nat.mod_lt _ (by decide)⟩
  else if c = cp 43 then some 62
  else if c = cp 47 then some 63
  else none

/-- The first six bits of a byte. -/
def first (a : Byte) : Sextet := ⟨a.val / 4, by omega⟩

/-- The last two bits of one byte and the first four of the next. -/
def second (a b : Byte) : Sextet := ⟨a.val % 4 * 16 + b.val / 16, by omega⟩

/-- The last four bits of one byte and the first two of the next. -/
def third (b c : Byte) : Sextet := ⟨b.val % 16 * 4 + c.val / 64, by omega⟩

/-- The last six bits of a byte. -/
def fourth (c : Byte) : Sextet := ⟨c.val % 64, by omega⟩

/-- The first byte of a group. -/
def byte1 (s t : Sextet) : Byte := ⟨s.val * 4 + t.val / 16, by omega⟩

/-- The second byte of a group. -/
def byte2 (t u : Sextet) : Byte := ⟨t.val % 16 * 16 + u.val / 4, by omega⟩

/-- The third byte of a group. -/
def byte3 (u v : Sextet) : Byte := ⟨u.val % 4 * 64 + v.val, by omega⟩

/-- The letters of an encoding, without padding. -/
def body : Bytes → Str
  | a :: b :: c :: rest =>
      letter (first a) :: letter (second a b) :: letter (third b c) :: letter (fourth c) ::
        body rest
  | [a, b] => [letter (first a), letter (second a b), letter (third b 0)]
  | [a] => [letter (first a), letter (second a 0)]
  | [] => []

/-- How many padding letters complete the last group. -/
def padCount (n : Nat) : Nat := (3 - n % 3) % 3

/-- `base64.b64encode`. -/
def encode (data : Bytes) : Str := body data ++ List.replicate (padCount data.length) pad

/-- The last group of an encoding: two letters, a third that may be padding,
and padding. -/
def decodeLast (a b c : CodePoint) : Option Bytes := do
  let s ← sextet a
  let t ← sextet b
  if c = pad then return [byte1 s t]
  let u ← sextet c
  return [byte1 s t, byte2 t u]

/-- `base64.b64decode(data, validate=True)`. -/
def decode : Str → Option Bytes
  | [] => some []
  | a :: b :: c :: d :: rest =>
      if d = pad then
        if rest = [] then decodeLast a b c else none
      else do
        let s ← sextet a
        let t ← sextet b
        let u ← sextet c
        let v ← sextet d
        let more ← decode rest
        return byte1 s t :: byte2 t u :: byte3 u v :: more
  | _ => none

@[simp] theorem sextet_letter (s : Sextet) : sextet (letter s) = some s := by
  revert s
  decide

theorem letter_ne_pad (s : Sextet) : letter s ≠ pad := by
  revert s
  decide

@[simp] theorem byte1_first (a b : Byte) : byte1 (first a) (second a b) = a := by
  ext
  simp only [byte1, first, second]
  omega

@[simp] theorem byte2_second (a b c : Byte) : byte2 (second a b) (third b c) = b := by
  ext
  simp only [byte2, second, third]
  omega

@[simp] theorem byte3_third (b c : Byte) : byte3 (third b c) (fourth c) = c := by
  ext
  simp only [byte3, third, fourth]
  omega

theorem padCount_add_three (n : Nat) : padCount (n + 3) = padCount n := by
  simp [padCount]

/-- Decoding an encoding gives the bytes back. -/
theorem decode_encode (data : Bytes) : decode (encode data) = some data := by
  induction data using body.induct with
  | case1 a b c rest ih =>
      have htail : decode (body rest ++ List.replicate (padCount (rest.length + 3)) pad) =
          some rest := by
        rw [padCount_add_three]
        exact ih
      simp [encode, body, decode, letter_ne_pad, htail]
  | case2 a b => simp [encode, body, decode, decodeLast, padCount, letter_ne_pad]
  | case3 a => simp [encode, body, decode, decodeLast, padCount]
  | case4 => rfl

theorem body_length (data : Bytes) :
    (body data).length + padCount data.length = (data.length + 2) / 3 * 4 := by
  induction data using body.induct with
  | case1 a b c rest ih =>
      simp only [body, List.length_cons, padCount_add_three]
      omega
  | case2 a b => simp [body, padCount]
  | case3 a => simp [body, padCount]
  | case4 => rfl

/-- Four letters for every three bytes, the last ones padded. -/
theorem encode_length (data : Bytes) :
    (encode data).length = (data.length + 2) / 3 * 4 := by
  rw [encode, List.length_append, List.length_replicate, body_length]

theorem decodeLast_length {a b c : CodePoint} {data : Bytes}
    (h : decodeLast a b c = some data) : data.length = 1 ∨ data.length = 2 := by
  simp only [decodeLast, bind, Option.bind_eq_some_iff] at h
  obtain ⟨s, -, t, -, h⟩ := h
  by_cases hc : c = pad
  · left
    simp only [hc, if_true, pure, Option.some.injEq] at h
    simp [← h]
  · right
    simp only [hc, if_false, Option.bind_eq_some_iff, pure, Option.some.injEq] at h
    obtain ⟨u, -, rfl⟩ := h
    rfl

/-- A strict decoding fixes the length of the text: four letters for each three
bytes, rounded up. -/
theorem length_of_decode {text : Str} {data : Bytes} (h : decode text = some data) :
    text.length = (data.length + 2) / 3 * 4 := by
  induction text using decode.induct generalizing data with
  | case1 => simp only [decode, Option.some.injEq] at h; simp [← h]
  | case2 a b c =>
      simp only [decode, if_true] at h
      rcases decodeLast_length h with hl | hl <;> simp [hl]
  | case3 a b c rest hrest => simp [decode, hrest] at h
  | case4 a b c d rest hd ih =>
      simp only [decode, if_neg hd, bind, Option.bind_eq_some_iff, pure, Option.some.injEq] at h
      obtain ⟨s, -, t, -, u, -, v, -, more, hmore, rfl⟩ := h
      have hlen := ih hmore
      simp only [List.length_cons]
      omega
  | case5 text h1 h2 =>
      rw [decode.eq_3 text h1 h2] at h
      cases h

/-! ## The URL-safe spelling without padding -/

/-- The alphabet is ASCII. -/
theorem ascii_of_sextet {c : CodePoint} {s : Sextet} (h : sextet c = some s) :
    c.isAscii = true := by
  by_contra hc
  simp only [CodePoint.isAscii, Bool.not_eq_true, decide_eq_false_iff_not, not_lt] at hc
  have hplus : c ≠ cp 43 := by rintro rfl; exact absurd hc (by decide)
  have hslash : c ≠ cp 47 := by rintro rfl; exact absurd hc (by decide)
  have hup : c.isAsciiUpper = false := by
    simp only [CodePoint.isAsciiUpper, Bool.and_eq_false_iff, decide_eq_false_iff_not]
    omega
  have hlow : c.isAsciiLower = false := by
    simp only [CodePoint.isAsciiLower, Bool.and_eq_false_iff, decide_eq_false_iff_not]
    omega
  have hdigit : c.isAsciiDigit = false := by
    simp only [CodePoint.isAsciiDigit, Bool.and_eq_false_iff, decide_eq_false_iff_not]
    omega
  simp [sextet, hup, hlow, hdigit, hplus, hslash] at h

theorem ascii_of_decodeLast {a b c : CodePoint} {data : Bytes}
    (h : decodeLast a b c = some data) : ∀ x ∈ [a, b, c], x.isAscii = true := by
  obtain ⟨s, hs, h⟩ := Option.bind_eq_some_iff.mp h
  obtain ⟨t, ht, h⟩ := Option.bind_eq_some_iff.mp h
  have hc : c.isAscii = true := by
    split at h
    · rename_i hpad
      subst hpad
      decide
    · obtain ⟨u, hu, -⟩ := Option.bind_eq_some_iff.mp h
      exact ascii_of_sextet hu
  simp [ascii_of_sextet hs, ascii_of_sextet ht, hc]

/-- Only an ASCII text decodes. -/
theorem ascii_of_decode {text : Str} {data : Bytes} (h : decode text = some data) :
    ∀ x ∈ text, x.isAscii = true := by
  induction text using decode.induct generalizing data with
  | case1 => simp
  | case2 a b c =>
      rw [decode, if_pos rfl, if_pos rfl] at h
      have hlast := ascii_of_decodeLast h
      simp only [List.mem_cons, List.not_mem_nil, or_false, forall_eq_or_imp, forall_eq] at hlast ⊢
      exact ⟨hlast.1, hlast.2.1, hlast.2.2, by decide⟩
  | case3 a b c rest hrest => simp [decode, hrest] at h
  | case4 a b c d rest hpad ih =>
      rw [decode, if_neg hpad] at h
      obtain ⟨s, hs, h⟩ := Option.bind_eq_some_iff.mp h
      obtain ⟨t, ht, h⟩ := Option.bind_eq_some_iff.mp h
      obtain ⟨u, hu, h⟩ := Option.bind_eq_some_iff.mp h
      obtain ⟨v, hv, h⟩ := Option.bind_eq_some_iff.mp h
      obtain ⟨more, hmore, -⟩ := Option.bind_eq_some_iff.mp h
      simp only [List.mem_cons, forall_eq_or_imp]
      exact ⟨ascii_of_sextet hs, ascii_of_sextet ht, ascii_of_sextet hu, ascii_of_sextet hv,
        ih hmore⟩
  | case5 text h1 h2 =>
      rw [decode] at h
      · cases h
      · exact h1
      · exact h2

/-- An encoding is ASCII. -/
theorem encodable_encode (data : Bytes) : (encode data).encodable = true :=
  Str.encodable_of_ascii (ascii_of_decode (decode_encode data))

/-- The URL-safe letter for an alphabet letter: `-` for `+` and `_` for `/`. -/
def toUrl (c : CodePoint) : CodePoint :=
  if c = cp 43 then cp 45 else if c = cp 47 then cp 95 else c

/-- The inverse translation, applied by `altchars=b"-_"`; other letters pass. -/
def ofUrl (c : CodePoint) : CodePoint :=
  if c = cp 45 then cp 43 else if c = cp 95 then cp 47 else c

/-- `base64.urlsafe_b64encode(data).rstrip(b"=")`. -/
def encodeUrl (data : Bytes) : Str := ((encode data).map toUrl).rdropWhile (· = pad)

/-- `base64.b64decode(text + "=" * (-len(text) % 4), altchars=b"-_", validate=True)`. -/
def decodeUrl (text : Str) : Option Bytes :=
  decode ((text ++ List.replicate ((4 - text.length % 4) % 4) pad).map ofUrl)

/-- An encoding without padding consists of letters. -/
theorem exists_letter_of_mem_body {data : Bytes} {c : CodePoint} (h : c ∈ body data) :
    ∃ s, c = letter s := by
  induction data using body.induct with
  | case1 x y z rest ih =>
      simp only [body, List.mem_cons] at h
      rcases h with rfl | rfl | rfl | rfl | h
      · exact ⟨_, rfl⟩
      · exact ⟨_, rfl⟩
      · exact ⟨_, rfl⟩
      · exact ⟨_, rfl⟩
      · exact ih h
  | case2 x y =>
      simp only [body, List.mem_cons, List.not_mem_nil, or_false] at h
      rcases h with rfl | rfl | rfl <;> exact ⟨_, rfl⟩
  | case3 x =>
      simp only [body, List.mem_cons, List.not_mem_nil, or_false] at h
      rcases h with rfl | rfl <;> exact ⟨_, rfl⟩
  | case4 => cases h

theorem body_ne_pad (data : Bytes) : ∀ c ∈ body data, c ≠ pad := by
  intro c hc
  obtain ⟨s, rfl⟩ := exists_letter_of_mem_body hc
  exact letter_ne_pad s

theorem toUrl_ne_pad {c : CodePoint} (h : c ≠ pad) : toUrl c ≠ pad := by
  unfold toUrl
  split
  · decide
  · split
    · decide
    · exact h

theorem ofUrl_toUrl_letter (s : Sextet) : ofUrl (toUrl (letter s)) = letter s := by
  revert s
  decide

theorem ofUrl_toUrl_body (data : Bytes) :
    ((body data).map toUrl).map ofUrl = body data := by
  induction data using body.induct with
  | case1 a b c rest ih => simpa [body, ofUrl_toUrl_letter] using ih
  | case2 a b => simp [body, ofUrl_toUrl_letter]
  | case3 a => simp [body, ofUrl_toUrl_letter]
  | case4 => rfl

/-- Removing the padding leaves exactly the translated letters. -/
theorem encodeUrl_eq (data : Bytes) : encodeUrl data = (body data).map toUrl := by
  have hlast : ∀ c ∈ (body data).map toUrl, c ≠ pad := by
    intro c hc
    obtain ⟨b, hb, rfl⟩ := List.mem_map.mp hc
    exact toUrl_ne_pad (body_ne_pad data b hb)
  have hpad : (List.replicate (padCount data.length) pad).map toUrl =
      List.replicate (padCount data.length) pad := by
    rw [List.map_replicate]
    rfl
  rw [encodeUrl, encode, List.map_append, hpad, List.rdropWhile, List.reverse_append,
    List.reverse_replicate, List.dropWhile_append_of_pos (by simp)]
  have hkeep : ((body data).map toUrl).reverse.dropWhile (· = pad) =
      ((body data).map toUrl).reverse := by
    rw [List.dropWhile_eq_self_iff]
    intro hl
    simpa using hlast _ (List.mem_reverse.mp (List.getElem_mem hl))
  rw [hkeep, List.reverse_reverse]

/-- What holds of all URL-safe letters holds of an encoded text. -/
theorem forall_mem_encodeUrl {p : CodePoint → Prop} (h : ∀ s, p (toUrl (letter s)))
    (data : Bytes) : ∀ c ∈ encodeUrl data, p c := by
  intro c hc
  rw [encodeUrl_eq] at hc
  obtain ⟨d, hd, rfl⟩ := List.mem_map.mp hc
  obtain ⟨s, rfl⟩ := exists_letter_of_mem_body hd
  exact h s

theorem encodeUrl_length (data : Bytes) :
    (encodeUrl data).length + padCount data.length = (data.length + 2) / 3 * 4 := by
  rw [encodeUrl_eq, List.length_map, body_length]

/-- The padding `decodeUrl` adds is the padding the encoder removed. -/
theorem decodeUrl_encodeUrl (data : Bytes) : decodeUrl (encodeUrl data) = some data := by
  have hlen := body_length data
  have hpad : (4 - (body data).length % 4) % 4 = padCount data.length := by
    have hlt : padCount data.length < 3 := Nat.mod_lt _ (by decide)
    omega
  have hrep (n : Nat) : (List.replicate n pad).map ofUrl = List.replicate n pad := by
    rw [List.map_replicate]
    rfl
  rw [decodeUrl, encodeUrl_eq, List.length_map, hpad, List.map_append, hrep,
    ofUrl_toUrl_body]
  exact decode_encode data

end MediaBridge.Foundation.Base64
