import MediaBridge.Control.Totp
import MediaBridge.Core.TransformationReceipt

/-!
# Which one-time codes are accepted

`verify_code` of `media_bridge_control/totp.py` with every window. The digit test accepts digits of
every script, but `hmac.compare_digest` raises a `TypeError` on a string that is not ASCII.

## Implementation notes

A moment is counted exactly. The double of `timestamp()` is off from the year 2514 on, and only
within the last microseconds of a half minute.
-/

namespace MediaBridge.Control

open Foundation MediaBridge.Core

namespace Totp

/-- Why `verify_code` does not return. -/
inductive CodeFailure
  /-- The `TotpError`. -/
  | totpError (code : String)
  /-- The `TypeError` of a comparison with a string that is not ASCII. -/
  | typeError
  /-- The `OverflowError` of a moment that has no date in UTC. -/
  | overflowError
  /-- The `struct.error` of a counter that has no eight bytes. -/
  | structError
deriving DecidableEq

/-- `datetime.min`. -/
def firstInstant : Instant := -62135596800000000

/-- `at.astimezone(UTC)` returns. -/
def hasUtcDate (now : Instant) : Bool :=
  decide (firstInstant ≤ now ∧ now ≤ TransformationReceipt.lastInstant)

/-- The counters of `expected`: the time steps of a window that are not negative. -/
def timeSteps (now : Instant) (window : Int) : List Nat :=
  (List.range (2 * window + 1).toNat).filterMap fun (i : Nat) =>
    if 0 ≤ counterAt now - window + i then some (counterAt now - window + i).toNat else none

/-- `verify_code`. -/
def verifyWithin (L : TotpLibrary) (secret code : Str) (now : Instant) (window : Int) :
    Except CodeFailure Unit :=
  if ¬ code.all L.isDigit ∨ code.length ≠ 6 ∨ window < 0 then .error (.totpError "invalid_code")
  else
    match decodeSecret L secret with
    | none => .error (.totpError "invalid_secret")
    | some key =>
        let steps := timeSteps now window
        if ¬ hasUtcDate now then .error .overflowError
        else if steps.any fun step => 2 ^ 64 ≤ step then .error .structError
        -- Nothing is compared with an empty set.
        else if steps.isEmpty then .error (.totpError "invalid_code")
        else if ¬ code.all CodePoint.isAscii then .error .typeError
        else if code ∈ steps.map (hotp L key) then .ok ()
        else .error (.totpError "invalid_code")

section Codes

variable {L : TotpLibrary} {secret code : Str} {key : Bytes} {now : Instant} {window : Int}

theorem mem_timeSteps {step : Nat} :
    step ∈ timeSteps now window ↔
      counterAt now - window ≤ step ∧ (step : Int) ≤ counterAt now + window := by
  unfold timeSteps
  rw [List.mem_filterMap]
  constructor
  · rintro ⟨i, hi, h⟩
    rw [List.mem_range] at hi
    split at h
    · cases h
      omega
    · cases h
  · rintro ⟨hlow, hhigh⟩
    refine ⟨(step - (counterAt now - window)).toNat, ?_, ?_⟩
    · rw [List.mem_range]
      omega
    · rw [if_pos (by omega)]
      congr 1
      omega

theorem length_toDigits (base count n : Nat) : (toDigits base count n).length = count := by
  simp [toDigits]

theorem lt_of_mem_toDigits {base count n d : Nat} (hbase : 0 < base)
    (h : d ∈ toDigits base count n) : d < base := by
  obtain ⟨i, -, rfl⟩ := List.mem_map.mp (List.mem_reverse.mp h)
  exact Nat.mod_lt _ hbase

/-- A code has six characters. -/
theorem length_hotp (key : Bytes) (step : Nat) : (hotp L key step).length = 6 := by
  unfold hotp
  rw [List.length_map, length_toDigits]

/-- The characters of a code are digits of ASCII. -/
theorem isAsciiDigit_of_mem_hotp {key : Bytes} {step : Nat} {c : CodePoint}
    (h : c ∈ hotp L key step) : c.isAsciiDigit = true := by
  obtain ⟨d, hd, rfl⟩ := List.mem_map.mp h
  have hlt : d < 10 := lt_of_mem_toDigits (by decide) hd
  have hdigit : ∀ d < 10, (cp (d + 48)).isAsciiDigit = true := by decide
  exact hdigit d hlt

/-- A code passes the digit test. -/
theorem all_isDigit_hotp (hdigits : ∀ c, c.isAsciiDigit = true → L.isDigit c = true)
    (key : Bytes) (step : Nat) : (hotp L key step).all L.isDigit = true :=
  List.all_eq_true.mpr fun c hc => hdigits c (isAsciiDigit_of_mem_hotp hc)

/-- The code is that of a time step in the window. -/
def IsCode (L : TotpLibrary) (secret code : Str) (now : Instant) (window : Int) : Prop :=
  ∃ key, decodeSecret L secret = some key ∧ ∃ step : Nat,
    counterAt now - window ≤ step ∧ (step : Int) ≤ counterAt now + window ∧
      code = hotp L key step

/-- `verify_code` accepts exactly the codes of the window, and refuses with a `TotpError`. -/
structure VerifiesExactly (L : TotpLibrary) (secret code : Str) (now : Instant) (window : Int) :
    Prop where
  accepts : verifyWithin L secret code now window = .ok () ↔ IsCode L secret code now window
  refuses : ∀ e, verifyWithin L secret code now window = .error e → ∃ text, e = .totpError text

/-- Six digits that are compared with the codes of a secret, or would be if these could be
computed. -/
def ReachesCodes (L : TotpLibrary) (secret code : Str) (window : Int) : Prop :=
  code.length = 6 ∧ code.all L.isDigit = true ∧ 0 ≤ window ∧ (decodeSecret L secret).isSome = true

/-- What is in the way there: a moment without a date in UTC, a counter without eight bytes, or a
digit outside ASCII while there is a code to compare with. -/
def Escapes (code : Str) (now : Instant) (window : Int) : Prop :=
  hasUtcDate now = false ∨ 2 ^ 64 ≤ counterAt now + window ∨
    0 ≤ counterAt now + window ∧ ∃ c ∈ code, c.isAscii = false

theorem isCode_iff (hkey : decodeSecret L secret = some key) :
    IsCode L secret code now window ↔ code ∈ (timeSteps now window).map (hotp L key) := by
  rw [List.mem_map]
  constructor
  · rintro ⟨key', hkey', step, hlow, hhigh, rfl⟩
    obtain rfl : key = key' := Option.some.inj (hkey.symm.trans hkey')
    exact ⟨step, mem_timeSteps.mpr ⟨hlow, hhigh⟩, rfl⟩
  · rintro ⟨step, hstep, rfl⟩
    obtain ⟨hlow, hhigh⟩ := mem_timeSteps.mp hstep
    exact ⟨key, hkey, step, hlow, hhigh, rfl⟩

/-- A code of the window passes the tests before the comparison. -/
theorem IsCode.reaches (hdigits : ∀ c, c.isAsciiDigit = true → L.isDigit c = true)
    (h : IsCode L secret code now window) : ReachesCodes L secret code window := by
  obtain ⟨key, hkey, step, hlow, hhigh, rfl⟩ := h
  exact ⟨length_hotp key step, all_isDigit_hotp hdigits key step, by omega,
    Option.isSome_iff_exists.mpr ⟨key, hkey⟩⟩

theorem exists_timeStep_iff (now : Instant) (hwindow : 0 ≤ window) (n : Nat) :
    (∃ step ∈ timeSteps now window, n ≤ step) ↔ (n : Int) ≤ counterAt now + window := by
  constructor
  · rintro ⟨step, hstep, hn⟩
    have hhigh := (mem_timeSteps.mp hstep).2
    omega
  · intro h
    refine ⟨(counterAt now + window).toNat, mem_timeSteps.mpr ⟨?_, ?_⟩, ?_⟩ <;> omega

/-- Before the codes are reached, every refusal is a `TotpError`. -/
theorem verifyWithin_of_not_reaches (now : Instant) (h : ¬ ReachesCodes L secret code window) :
    ∃ text, verifyWithin L secret code now window = .error (.totpError text) := by
  unfold verifyWithin
  split
  · exact ⟨_, rfl⟩
  next hformat =>
    cases hkey : decodeSecret L secret with
    | none => exact ⟨_, rfl⟩
    | some key =>
        refine absurd ?_ h
        simp only [not_or, not_not, not_lt] at hformat
        exact ⟨hformat.2.1, hformat.1, hformat.2.2, by rw [hkey]; rfl⟩

theorem any_big_iff (hwindow : 0 ≤ window) :
    ((timeSteps now window).any fun step => 2 ^ 64 ≤ step) = true ↔
      2 ^ 64 ≤ counterAt now + window := by
  have hbig := exists_timeStep_iff now hwindow (2 ^ 64)
  rw [List.any_eq_true]
  simpa using hbig

theorem isEmpty_timeSteps_iff (hwindow : 0 ≤ window) :
    (timeSteps now window).isEmpty = true ↔ counterAt now + window < 0 := by
  have hstep := exists_timeStep_iff now hwindow 0
  rw [List.isEmpty_iff, List.eq_nil_iff_forall_not_mem]
  constructor
  · intro hnone
    by_contra hle
    obtain ⟨step, hmem, -⟩ := hstep.mpr (by omega)
    exact hnone step hmem
  · intro hneg step hmem
    have hle := hstep.mp ⟨step, hmem, Nat.zero_le _⟩
    omega

theorem not_all_isAscii_iff :
    ¬ code.all CodePoint.isAscii = true ↔ ∃ c ∈ code, c.isAscii = false := by
  simp

/-- What is in the way of the comparison raises another exception. -/
theorem verifyWithin_of_escapes (hreaches : ReachesCodes L secret code window)
    (h : Escapes code now window) :
    ∃ e, verifyWithin L secret code now window = .error e ∧ ∀ text, e ≠ .totpError text := by
  obtain ⟨hlength, hall, hwindow, hdecodes⟩ := hreaches
  obtain ⟨key, hkey⟩ := Option.isSome_iff_exists.mp hdecodes
  unfold verifyWithin
  rw [if_neg (by simp [hall, hlength, hwindow]), hkey]
  simp only [any_big_iff hwindow, isEmpty_timeSteps_iff hwindow, not_all_isAscii_iff]
  by_cases hdate : hasUtcDate now = true
  · rw [if_neg (not_not_intro hdate)]
    by_cases hbig : 2 ^ 64 ≤ counterAt now + window
    · rw [if_pos hbig]
      exact ⟨_, rfl, nofun⟩
    · obtain ⟨hnonneg, hforeign⟩ : 0 ≤ counterAt now + window ∧ ∃ c ∈ code, c.isAscii = false := by
        rcases h with hno | hno | hforeign
        · exact absurd hdate (by rw [hno]; exact Bool.false_ne_true)
        · exact absurd hno hbig
        · exact hforeign
      rw [if_neg hbig, if_neg (by omega), if_pos hforeign]
      exact ⟨_, rfl, nofun⟩
  · rw [if_pos hdate]
    exact ⟨_, rfl, nofun⟩

/-- With nothing in the way, the codes of the window decide. -/
theorem verifyWithin_of_not_escapes (hreaches : ReachesCodes L secret code window)
    (h : ¬ Escapes code now window) (hkey : decodeSecret L secret = some key) :
    verifyWithin L secret code now window =
      if code ∈ (timeSteps now window).map (hotp L key) then .ok ()
      else .error (.totpError "invalid_code") := by
  obtain ⟨hlength, hall, hwindow, -⟩ := hreaches
  unfold Escapes at h
  simp only [not_or, Bool.not_eq_false, not_and] at h
  obtain ⟨hdate, hbig, hforeign⟩ := h
  unfold verifyWithin
  rw [if_neg (by simp [hall, hlength, hwindow]), hkey]
  simp only [any_big_iff hwindow, isEmpty_timeSteps_iff hwindow, not_all_isAscii_iff]
  rw [if_neg (not_not_intro hdate), if_neg hbig]
  by_cases hneg : counterAt now + window < 0
  · have hnone : code ∉ (timeSteps now window).map (hotp L key) := by
      rw [List.isEmpty_iff.mp ((isEmpty_timeSteps_iff hwindow).mpr hneg)]
      exact List.not_mem_nil
    rw [if_pos hneg, if_neg hnone]
  · rw [if_neg hneg, if_neg (hforeign (by omega))]

/-- `verify_code` keeps its promise exactly where nothing is in the way of the comparison. -/
theorem verifiesExactly_iff (hdigits : ∀ c, c.isAsciiDigit = true → L.isDigit c = true) :
    VerifiesExactly L secret code now window ↔
      ¬ (ReachesCodes L secret code window ∧ Escapes code now window) := by
  constructor
  · rintro ⟨-, hrefuses⟩ ⟨hreaches, hescapes⟩
    obtain ⟨e, he, hother⟩ := verifyWithin_of_escapes hreaches hescapes
    obtain ⟨text, htext⟩ := hrefuses e he
    exact hother text htext
  · intro h
    by_cases hreaches : ReachesCodes L secret code window
    · obtain ⟨key, hkey⟩ := Option.isSome_iff_exists.mp hreaches.2.2.2
      have hverify := verifyWithin_of_not_escapes hreaches (fun he => h ⟨hreaches, he⟩) hkey
      constructor
      · rw [hverify, isCode_iff hkey]
        split
        · next hcode => exact ⟨fun _ => hcode, fun _ => rfl⟩
        · next hcode => exact ⟨nofun, fun hyes => absurd hyes hcode⟩
      · intro e he
        rw [hverify] at he
        split at he
        · cases he
        · cases he
          exact ⟨_, rfl⟩
    · obtain ⟨text, hverify⟩ := verifyWithin_of_not_reaches now hreaches
      constructor
      · rw [hverify]
        exact ⟨nofun, fun hcode => absurd (hcode.reaches hdigits) hreaches⟩
      · intro e he
        rw [hverify] at he
        cases he
        exact ⟨text, rfl⟩

end Codes

section Samples

/-- A library whose digests are zero, and whose digits are those of ASCII and of full width. -/
def sampleLibrary : TotpLibrary where
  hmacSha1 := fun _ _ => List.replicate 20 0
  upper := fun s => s
  isDigit := fun c => c.isAsciiDigit || (0xFF10 ≤ c.val && c.val ≤ 0xFF19)

/-- The first moment of 2026. -/
def sampleMoment : Instant := 1767225600000000

def sampleSecret : Str := lit "JBSWY3DPEHPK3PXP"

theorem verifiesExactly_zeros :
    VerifiesExactly sampleLibrary sampleSecret (lit "000000") sampleMoment 1 := by
  refine (verifiesExactly_iff fun c hc => ?_).mpr fun h => ?_
  · change (c.isAsciiDigit || _) = true
    rw [hc, Bool.true_or]
  · have hcounter : counterAt sampleMoment = 58907520 := rfl
    have hascii : (lit "000000").all CodePoint.isAscii = true := rfl
    rcases h.2 with hdate | hbig | ⟨-, c, hc, hforeign⟩
    · cases hdate
    · rw [hcounter] at hbig
      omega
    · rw [List.all_eq_true.mp hascii c hc] at hforeign
      cases hforeign

/-- Six full-width zeros end in a `TypeError`. -/
theorem full_width_code_escapes :
    ¬ VerifiesExactly sampleLibrary sampleSecret (List.replicate 6 (cp 0xFF10)) sampleMoment 1 := by
  rintro ⟨-, hrefuses⟩
  have hreaches : ReachesCodes sampleLibrary sampleSecret (List.replicate 6 (cp 0xFF10)) 1 :=
    ⟨rfl, by decide, by decide, by decide +kernel⟩
  have hcounter : counterAt sampleMoment = 58907520 := rfl
  have hescapes : Escapes (List.replicate 6 (cp 0xFF10)) sampleMoment 1 :=
    .inr (.inr ⟨by rw [hcounter]; decide, cp 0xFF10, List.mem_cons_self, by decide⟩)
  obtain ⟨e, he, hother⟩ := verifyWithin_of_escapes hreaches hescapes
  obtain ⟨text, htext⟩ := hrefuses e he
  exact hother text htext

end Samples

end Totp

end MediaBridge.Control
