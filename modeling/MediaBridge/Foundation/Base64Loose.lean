import MediaBridge.Foundation.Base64

/-!
# Base64 with other characters between the letters

`binascii.a2b_base64` without `strict_mode` passes over what is no letter, and padding that fills up
a group ends the text.
-/

namespace MediaBridge.Foundation.Base64

/-- The bytes of a group that padding fills up. -/
def lastBytes : List Sextet → Bytes
  | [s, t] => [byte1 s t]
  | [s, t, u] => [byte1 s t, byte2 t u]
  | _ => []

/-- The bytes of a text, after the letters of an open group and the padding in it. -/
def decodeLooseFrom (group : List Sextet) (pads : Nat) : Str → Option Bytes
  | [] => if group = [] then some [] else none
  | c :: rest =>
      if c = pad then
        if group.length < 2 then decodeLooseFrom group pads rest
        else if 4 ≤ group.length + (pads + 1) then some (lastBytes group)
        else decodeLooseFrom group (pads + 1) rest
      else
        match sextet c with
        | none => decodeLooseFrom group pads rest
        | some s =>
            match group with
            | [t, u, v] =>
                (decodeLooseFrom [] 0 rest).map fun more =>
                  byte1 t u :: byte2 u v :: byte3 v s :: more
            | _ => decodeLooseFrom (group ++ [s]) 0 rest

/-- `base64.b64decode(text)`. -/
def decodeLoose (text : Str) : Option Bytes := decodeLooseFrom [] 0 text

/-- `base64.urlsafe_b64decode(text)`. -/
def decodeUrlLoose (text : Str) : Option Bytes := decodeLoose (text.map ofUrl)

variable {group : List Sextet} {pads : Nat} {rest : Str}

theorem decodeLooseFrom_letter (s : Sextet) (h : group.length < 3) :
    decodeLooseFrom group pads (letter s :: rest) = decodeLooseFrom (group ++ [s]) 0 rest := by
  rw [decodeLooseFrom, if_neg (letter_ne_pad s)]
  simp only [sextet_letter]
  split
  · exact absurd h (by simp)
  · rfl

theorem decodeLooseFrom_last (s t u v : Sextet) :
    decodeLooseFrom [s, t, u] pads (letter v :: rest) =
      (decodeLooseFrom [] 0 rest).map fun more =>
        byte1 s t :: byte2 t u :: byte3 u v :: more := by
  rw [decodeLooseFrom, if_neg (letter_ne_pad v)]
  simp only [sextet_letter]

/-- What `base64.b64encode` writes is read back. -/
theorem decodeLoose_encode (data : Bytes) : decodeLoose (encode data) = some data := by
  rw [decodeLoose, encode]
  induction data using body.induct with
  | case1 a b c rest ih =>
      have hpads : padCount (a :: b :: c :: rest).length = padCount rest.length :=
        padCount_add_three rest.length
      rw [hpads, body, List.cons_append, List.cons_append, List.cons_append, List.cons_append,
        decodeLooseFrom_letter _ (by simp), decodeLooseFrom_letter _ (by simp),
        decodeLooseFrom_letter _ (by simp)]
      simp only [List.nil_append, List.cons_append]
      rw [decodeLooseFrom_last, ih]
      simp
  | case2 a b =>
      rw [body, List.cons_append, List.cons_append, List.cons_append,
        decodeLooseFrom_letter _ (by simp), decodeLooseFrom_letter _ (by simp),
        decodeLooseFrom_letter _ (by simp)]
      simp [padCount, decodeLooseFrom, lastBytes]
  | case3 a =>
      rw [body, List.cons_append, List.cons_append,
        decodeLooseFrom_letter _ (by simp), decodeLooseFrom_letter _ (by simp)]
      simp [padCount, decodeLooseFrom, lastBytes, List.replicate]
  | case4 => rfl

/-- An encoding whose padding has been removed is read back once it is there again. -/
theorem decodeUrlLoose_encodeUrl (data : Bytes) :
    decodeUrlLoose (encodeUrl data ++ List.replicate (padCount data.length) pad) = some data := by
  have hpad : (List.replicate (padCount data.length) pad).map ofUrl =
      List.replicate (padCount data.length) pad := by
    rw [List.map_replicate]
    rfl
  rw [decodeUrlLoose, List.map_append, hpad, encodeUrl_eq, ofUrl_toUrl_body]
  exact decodeLoose_encode data

end MediaBridge.Foundation.Base64
