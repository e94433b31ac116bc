import MediaBridge.Core.OpenaiResponses

/-!
# Which payloads the normalizer answers

A payload is answered when the normalizer returns or refuses; any other
exception passes through the caller. The grammar of accepted content parts and
the places where another exception starts are stated over the payload alone,
and the normalizer is shown to agree with them.

## Implementation notes

The checks run in order and the first one that fails decides. `Contained` of a
bind is therefore containment of the first step and, when that succeeds, of the
rest; each function below gets one such characterization.
-/

namespace MediaBridge.Core

open Foundation

namespace OpenaiResponses

/-- The result is a value or a refusal the caller turns into a response. -/
def Contained {α : Type} (r : Except Raised α) : Prop :=
  ∀ e, r = .error e → ∃ code message, e = .normalization code message

section Contained

variable {α β : Type}

@[simp] theorem contained_ok (a : α) : Contained (.ok a : Except Raised α) := by
  intro e h
  cases h

@[simp] theorem contained_pure (a : α) : Contained (pure a : Except Raised α) :=
  contained_ok a

@[simp] theorem contained_refuse (code message : String) :
    Contained (refuse code message : Except Raised α) := by
  intro e h
  cases h
  exact ⟨code, message, rfl⟩

theorem contained_error_iff (e : Raised) :
    Contained (.error e : Except Raised α) ↔ ∃ code message, e = .normalization code message := by
  constructor
  · intro h
    exact h e rfl
  · rintro h e' he
    cases he
    exact h

@[simp] theorem not_contained_typeError : ¬ Contained (.error .typeError : Except Raised α) := by
  simp [contained_error_iff]

@[simp] theorem not_contained_valueError :
    ¬ Contained (.error .valueError : Except Raised α) := by
  simp [contained_error_iff]

@[simp] theorem not_contained_validationError :
    ¬ Contained (.error .validationError : Except Raised α) := by
  simp [contained_error_iff]

@[simp] theorem not_contained_recursionError :
    ¬ Contained (.error .recursionError : Except Raised α) := by
  simp [contained_error_iff]

/-- Of two steps, the second matters when the first succeeds. -/
theorem contained_bind_iff (r : Except Raised α) (f : α → Except Raised β) :
    Contained (r >>= f) ↔ Contained r ∧ ∀ a, r = .ok a → Contained (f a) := by
  cases r with
  | ok a => simp [bind, Except.bind]
  | error e => simp [bind, Except.bind, contained_error_iff]

/-- A check returns nothing: the rest runs when it passes. -/
theorem contained_check_iff (r : Except Raised Unit) (f : Unit → Except Raised β) :
    Contained (r >>= f) ↔ Contained r ∧ (r = .ok () → Contained (f ())) := by
  rw [contained_bind_iff]
  exact and_congr_right fun _ => ⟨fun h => h (), fun h _ => h⟩

@[simp] theorem contained_map_iff (r : Except Raised α) (f : α → β) :
    Contained (f <$> r) ↔ Contained r := by
  change Contained (r.map f) ↔ Contained r
  cases r with
  | ok a => simp [Except.map]
  | error e => simp [Except.map, contained_error_iff]

theorem contained_validated_iff (o : Option α) : Contained (validated o) ↔ o ≠ none := by
  cases o <;> simp [validated]

end Contained

/-- An inline data URL of an allowed type whose data decodes to a bounded,
non-empty byte string. -/
structure InlineData (locator : Str) (allowedMimes : List String) : Prop where
  shape : dataUriShape locator allowedMimes = true
  decodes : ∃ decoded, Base64.decode (splitDataUri locator).2 = some decoded ∧
    decoded ≠ [] ∧ decoded.length ≤ maxMediaBytes

theorem contained_decodeDataUri (locator : Str) (allowedMimes : List String) :
    Contained (decodeDataUri locator allowedMimes) := by
  unfold decodeDataUri
  split
  · simp
  · split
    · simp
    · split <;> simp

theorem decodeDataUri_eq_ok_iff {locator : Str} {allowedMimes : List String}
    {r : Str × Str} :
    decodeDataUri locator allowedMimes = .ok r ↔
      InlineData locator allowedMimes ∧
        r = (headerMime (splitDataUri locator).1, (splitDataUri locator).2) := by
  unfold decodeDataUri
  constructor
  · intro h
    split at h
    · cases h
    · rename_i hshape
      split at h
      · cases h
      · rename_i decoded hdec
        split at h
        · cases h
        · rename_i hbound
          cases h
          simp only [Bool.or_eq_true, List.isEmpty_iff, decide_eq_true_eq, not_or, not_lt]
            at hbound
          exact ⟨⟨by simpa using hshape, decoded, hdec, hbound.1, hbound.2⟩, rfl⟩
  · rintro ⟨⟨hshape, decoded, hdec, hne, hle⟩, rfl⟩
    have hbound : (decoded.isEmpty || decide (maxMediaBytes < decoded.length)) = false := by
      simp only [Bool.or_eq_false_iff, decide_eq_false_iff_not, not_lt]
      exact ⟨by simpa using hne, hle⟩
    simp [hshape, hdec, hbound]

/-- The bound on the decoded bytes is exactly the bound of the field. -/
theorem InlineData.valid_base64 {locator : Str} {allowedMimes : List String}
    (h : InlineData locator allowedMimes) :
    Constrained.Valid 2796204 anyText (splitDataUri locator).2 := by
  obtain ⟨decoded, hdec, -, hle⟩ := h.decodes
  have hlen := Base64.length_of_decode hdec
  simp only [maxMediaBytes] at hle
  exact ⟨Str.encodable_of_ascii (Base64.ascii_of_decode hdec), by omega, rfl⟩

/-- The allowed MIME types are short ASCII constants. -/
def ShortMimes (allowedMimes : List String) : Prop :=
  ∀ m ∈ allowedMimes, Constrained.Valid 100 anyText (lit m)

theorem InlineData.valid_mime {locator : Str} {allowedMimes : List String}
    (h : InlineData locator allowedMimes) (hm : ShortMimes allowedMimes) :
    Constrained.Valid 100 anyText (headerMime (splitDataUri locator).1) := by
  have hshape := h.shape
  simp only [dataUriShape, Bool.and_eq_true, List.any_eq_true, decide_eq_true_eq] at hshape
  obtain ⟨m, hmem, heq⟩ := hshape.1.2
  exact heq ▸ hm m hmem

theorem shortMimes_image : ShortMimes imageMimes := by
  intro m hm
  simp only [imageMimes, List.mem_cons, List.not_mem_nil, or_false] at hm
  rcases hm with rfl | rfl | rfl <;> decide

theorem shortMimes_pdf : ShortMimes [pdfMime] := by
  intro m hm
  simp only [List.mem_singleton] at hm
  subst hm
  decide

theorem contained_assetSource (value : Str) : Contained (assetSource value) := by
  unfold assetSource
  split <;> simp

theorem assetSource_eq_ok_iff {value : Str} :
    (∃ source, assetSource value = .ok source) ↔ Constrained.Valid 67 assetIdPattern value := by
  unfold assetSource
  cases h : Constrained.validate 67 assetIdPattern value with
  | none => simpa [refuse] using Constrained.validate_eq_none_iff.mp h
  | some id => simpa using Constrained.valid_of_validate h

/-- The membership test of the source succeeds: the value is `None` or has a
hash. -/
def Testable (v : Json) : Prop := v.isNull = true ∨ v.hashable = true

/-- The value is `None` or one of the strings. -/
def NoneOrOneOf (v : Json) (values : List String) : Prop :=
  v.isNull = true ∨ ∃ s ∈ values, v.isLit s = true

theorem contained_noneOrIn_iff (v : Json) (values : List String) :
    Contained (noneOrIn v values) ↔ Testable v := by
  unfold noneOrIn Testable
  split
  · simp [*]
  · split <;> simp [*]

theorem noneOrIn_eq_ok_true_iff (v : Json) (values : List String) :
    noneOrIn v values = .ok true ↔ NoneOrOneOf v values := by
  unfold noneOrIn NoneOrOneOf
  cases v <;> simp [Json.isNull, Json.hashable, Json.isLit]

/-- A tested condition guards what follows: a refusal when it fails. -/
theorem contained_guarded_iff {α : Type} (v : Json) (values : List String)
    (code message : String) (next : Except Raised α) :
    Contained (do
        let accepted ← noneOrIn v values
        if !accepted then refuse code message else next) ↔
      Testable v ∧ (NoneOrOneOf v values → Contained next) := by
  rw [contained_bind_iff, contained_noneOrIn_iff, ← noneOrIn_eq_ok_true_iff]
  refine and_congr_right fun _ => ?_
  constructor
  · intro h hok
    simpa using h true hok
  · intro h accepted hok
    cases accepted with
    | false => simp
    | true => simpa using h hok

theorem guarded_eq_ok_iff {α : Type} {v : Json} {values : List String}
    {code message : String} {next : Except Raised α} {a : α} :
    (do
        let accepted ← noneOrIn v values
        if !accepted then refuse code message else next) = .ok a ↔
      NoneOrOneOf v values ∧ next = .ok a := by
  rw [← noneOrIn_eq_ok_true_iff]
  cases h : noneOrIn v values with
  | error e => simp [bind, Except.bind]
  | ok accepted => cases accepted <;> simp [bind, Except.bind, refuse]

/-- An item without a provider's identifier and without foreign keys. -/
structure PlainItem (item : Entries Str Json) (keys : List String) : Prop where
  own : namesProviderMedia item = false
  keys : Json.keysWithin item keys = true

/-- The item is located by an asset identifier alone. -/
structure AssetLocator (item : Entries Str Json) (key : String) (assetId : Str) : Prop where
  asset : Json.field item "asset_id" = .str assetId
  alone : Json.field item key = .null

/-- The item is located by a string under the given key. -/
structure TextLocator (item : Entries Str Json) (key : String) (locator : Str) : Prop where
  noAsset : Json.field item "asset_id" = .null
  text : Json.field item key = .str locator

/-- The values of `detail` the program knows. -/
def detailValues : List String := ["auto", "low", "high"]

/-- The image items the normalizer turns into a media part. -/
inductive AcceptedImage (U : UnicodeData) (item : Entries Str Json) : Prop
  | asset {assetId : Str} : AssetLocator item "image_url" assetId →
      Constrained.Valid 67 assetIdPattern assetId → AcceptedImage U item
  | inlineData {locator : Str} : TextLocator item "image_url" locator →
      Str.startsWith locator (lit "data:") = true → InlineData locator imageMimes →
      AcceptedImage U item
  | url {locator : Str} {parsed : SplitResult} : TextLocator item "image_url" locator →
      Str.startsWith locator (lit "data:") = false →
      UrlSplit.urlsplit U locator = some parsed → urlAccepted parsed = true →
      Constrained.Valid 2048 httpsPattern locator → AcceptedImage U item

/-- The image locators that raise: a URL that cannot be split, and an absolute
HTTPS URL that breaks the limits of the field. -/
inductive UrlHazard (U : UnicodeData) (item : Entries Str Json) : Prop
  | unsplittable {locator : Str} : TextLocator item "image_url" locator →
      Str.startsWith locator (lit "data:") = false →
      UrlSplit.urlsplit U locator = none → UrlHazard U item
  | limits {locator : Str} {parsed : SplitResult} : TextLocator item "image_url" locator →
      Str.startsWith locator (lit "data:") = false →
      UrlSplit.urlsplit U locator = some parsed → urlAccepted parsed = true →
      ¬ Constrained.Valid 2048 httpsPattern locator → UrlHazard U item

variable (U : UnicodeData)

theorem contained_inlineImagePart (locator : Str) : Contained (inlineImagePart locator) := by
  rw [inlineImagePart, contained_bind_iff]
  refine ⟨contained_decodeDataUri _ _, ?_⟩
  rintro ⟨mime, encoded⟩ hdec
  obtain ⟨hdata, heq⟩ := decodeDataUri_eq_ok_iff.mp hdec
  cases heq
  simp [validated, Constrained.validate_of_valid hdata.valid_base64,
    Constrained.validate_of_valid (hdata.valid_mime shortMimes_image), bind, Except.bind]

theorem inlineImagePart_eq_ok_iff {locator : Str} :
    (∃ part, inlineImagePart locator = .ok part) ↔ InlineData locator imageMimes := by
  constructor
  · rintro ⟨part, h⟩
    cases hdec : decodeDataUri locator imageMimes with
    | error e => simp [inlineImagePart, hdec, bind, Except.bind] at h
    | ok r => exact (decodeDataUri_eq_ok_iff.mp hdec).1
  · intro h
    have hdec := decodeDataUri_eq_ok_iff.mpr ⟨h, rfl⟩
    simp [inlineImagePart, hdec, bind, Except.bind, validated, pure, Except.pure,
      Constrained.validate_of_valid h.valid_base64,
      Constrained.validate_of_valid (h.valid_mime shortMimes_image)]

theorem contained_urlPart_iff (locator : Str) :
    Contained (urlPart U locator) ↔ ∃ parsed, UrlSplit.urlsplit U locator = some parsed ∧
      (urlAccepted parsed = true → Constrained.Valid 2048 httpsPattern locator) := by
  unfold urlPart
  cases h : UrlSplit.urlsplit U locator with
  | none => simp
  | some parsed =>
      by_cases ha : urlAccepted parsed = true
      · simp [ha, contained_validated_iff, Constrained.validate_eq_none_iff]
      · simp [ha]

theorem urlPart_eq_ok_iff {locator : Str} :
    (∃ part, urlPart U locator = .ok part) ↔ ∃ parsed,
      UrlSplit.urlsplit U locator = some parsed ∧ urlAccepted parsed = true ∧
        Constrained.Valid 2048 httpsPattern locator := by
  unfold urlPart
  cases h : UrlSplit.urlsplit U locator with
  | none => simp
  | some parsed =>
      by_cases ha : urlAccepted parsed = true
      · by_cases hv : Constrained.Valid 2048 httpsPattern locator
        · simp [ha, hv, Constrained.validate_of_valid hv, validated, bind, Except.bind, pure,
            Except.pure]
        · simp [ha, hv, Constrained.validate_eq_none_iff.mpr hv, validated, bind, Except.bind]
      · simp [ha, refuse]

theorem field_eq_str_iff {fields : Entries Str Json} {key : String} {s : Str} :
    (Json.field fields key).str? = some s ↔ Json.field fields key = .str s :=
  Json.str?_eq_some_iff _ _

theorem contained_imageLocatorPart_iff (item : Entries Str Json) :
    Contained (imageLocatorPart U item) ↔ ¬ UrlHazard U item := by
  unfold imageLocatorPart
  split
  · rename_i hasset
    have hno : ¬ UrlHazard U item := by
      intro h
      cases h with
      | unsplittable hl => simp [hl.noAsset] at hasset
      | limits hl => simp [hl.noAsset] at hasset
    refine iff_of_true ?_ hno
    split
    · rw [contained_bind_iff]
      exact ⟨contained_assetSource _, fun _ _ => contained_pure _⟩
    · exact contained_refuse _ _
  · rename_i hasset
    have hnull : Json.field item "asset_id" = .null := by
      simpa [Json.isNull_iff] using hasset
    split
    · rename_i hnone
      refine iff_of_true (contained_refuse _ _) fun h => ?_
      cases h with
      | unsplittable hl => simp [hl.text, Json.str?] at hnone
      | limits hl => simp [hl.text, Json.str?] at hnone
    · rename_i locator hsome
      have htext : TextLocator item "image_url" locator := ⟨hnull, field_eq_str_iff.mp hsome⟩
      have huniq {l : Str} (hl : TextLocator item "image_url" l) : l = locator := by
        have := htext.text.symm.trans hl.text
        injection this with h
        exact h.symm
      split
      · rename_i hdata
        refine iff_of_true (contained_inlineImagePart _) fun h => ?_
        cases h with
        | unsplittable hl hnd => rw [huniq hl, hdata] at hnd; cases hnd
        | limits hl hnd => rw [huniq hl, hdata] at hnd; cases hnd
      · rename_i hdata
        rw [contained_urlPart_iff]
        constructor
        · rintro ⟨parsed, hp, himp⟩ h
          cases h with
          | unsplittable hl _ hno => rw [huniq hl, hp] at hno; cases hno
          | limits hl _ hp' ha hv =>
              rw [huniq hl, hp] at hp'
              cases hp'
              exact hv (huniq hl ▸ himp ha)
        · intro h
          cases hp : UrlSplit.urlsplit U locator with
          | none => exact absurd (.unsplittable htext (by simpa using hdata) hp) h
          | some parsed =>
              refine ⟨parsed, rfl, fun ha => ?_⟩
              by_contra hv
              exact h (.limits htext (by simpa using hdata) hp ha hv)

theorem imageLocatorPart_eq_ok_iff {item : Entries Str Json} :
    (∃ part, imageLocatorPart U item = .ok part) ↔ AcceptedImage U item := by
  unfold imageLocatorPart
  split
  · rename_i hasset
    have hne : Json.field item "asset_id" ≠ .null := by
      intro h
      simp [h] at hasset
    constructor
    · rintro ⟨part, h⟩
      split at h
      · rename_i assetId halone hid
        cases hs : assetSource assetId with
        | error e => simp [hs, bind, Except.bind] at h
        | ok source =>
            exact .asset ⟨field_eq_str_iff.mp hid, halone⟩
              (assetSource_eq_ok_iff.mp ⟨source, hs⟩)
      · cases h
    · intro h
      cases h with
      | @asset assetId hl hv =>
          obtain ⟨source, hs⟩ := assetSource_eq_ok_iff.mpr hv
          exact ⟨⟨.image, source, none, none⟩, by
            simp [hl.alone, hl.asset, Json.str?, hs, bind, Except.bind, pure, Except.pure]⟩
      | inlineData hl => exact absurd hl.noAsset hne
      | url hl => exact absurd hl.noAsset hne
  · rename_i hasset
    have hnull : Json.field item "asset_id" = .null := by
      simpa [Json.isNull_iff] using hasset
    constructor
    · rintro ⟨part, h⟩
      split at h
      · cases h
      · rename_i locator hsome
        have htext : TextLocator item "image_url" locator := ⟨hnull, field_eq_str_iff.mp hsome⟩
        split at h
        · rename_i hdata
          exact .inlineData htext hdata (inlineImagePart_eq_ok_iff.mp ⟨part, h⟩)
        · rename_i hdata
          obtain ⟨parsed, hp, ha, hv⟩ := (urlPart_eq_ok_iff U).mp ⟨part, h⟩
          exact .url htext (by simpa using hdata) hp ha hv
    · intro h
      cases h with
      | asset hl => rw [hl.asset] at hnull; cases hnull
      | inlineData hl hdata hin =>
          simpa [hl.text, Json.str?, hdata] using inlineImagePart_eq_ok_iff.mpr hin
      | url hl hdata hp ha hv =>
          simpa [hl.text, Json.str?, hdata] using (urlPart_eq_ok_iff U).mpr ⟨_, hp, ha, hv⟩

/-- `_image_part` lets an exception through when `detail` has no hash, or when
the locator is reached and raises. -/
theorem contained_imagePart_iff (item : Entries Str Json) :
    Contained (imagePart U item) ↔ (PlainItem item imageKeys →
      Testable (Json.field item "detail") ∧
        (NoneOrOneOf (Json.field item "detail") detailValues → ¬ UrlHazard U item)) := by
  unfold imagePart
  split
  · rename_i hown
    refine iff_of_true (contained_refuse _ _) fun h => ?_
    rw [h.own] at hown
    cases hown
  · rename_i hown
    split
    · rename_i hkeys
      refine iff_of_true (contained_refuse _ _) fun h => ?_
      simp [h.keys] at hkeys
    · rename_i hkeys
      have hplain : PlainItem item imageKeys := ⟨by simpa using hown, by simpa using hkeys⟩
      rw [contained_guarded_iff, contained_imageLocatorPart_iff]
      exact ⟨fun h _ => h, fun h => h hplain⟩

theorem imagePart_eq_ok_iff {item : Entries Str Json} :
    (∃ part, imagePart U item = .ok part) ↔ PlainItem item imageKeys ∧
      NoneOrOneOf (Json.field item "detail") detailValues ∧ AcceptedImage U item := by
  unfold imagePart
  split
  · rename_i hown
    simp only [refuse, reduceCtorEq, exists_false, false_iff, not_and]
    intro h
    simp [h.own] at hown
  · rename_i hown
    split
    · rename_i hkeys
      simp only [refuse, reduceCtorEq, exists_false, false_iff, not_and]
      intro h
      simp [h.keys] at hkeys
    · rename_i hkeys
      have hplain : PlainItem item imageKeys := ⟨by simpa using hown, by simpa using hkeys⟩
      simp only [guarded_eq_ok_iff, exists_and_left, imageLocatorPart_eq_ok_iff]
      exact ⟨fun h => ⟨hplain, h⟩, fun h => h.2⟩

/-- The file items that locate a PDF. -/
inductive AcceptedFile (item : Entries Str Json) : Prop
  | asset {assetId : Str} : AssetLocator item "file_data" assetId →
      Constrained.Valid 67 assetIdPattern assetId → AcceptedFile item
  | inlineData {locator : Str} : TextLocator item "file_data" locator →
      InlineData locator [pdfMime] → AcceptedFile item

/-- The file name is absent or a string. -/
def NameReadable (item : Entries Str Json) : Prop :=
  Json.field item "filename" = .null ∨ ∃ s, Json.field item "filename" = .str s

/-- The file name, if there is one, is within the limits of the field. -/
def NameWithinLimits (item : Entries Str Json) : Prop :=
  ∀ s, Json.field item "filename" = .str s → Constrained.Valid 255 anyText s

theorem contained_fileName (item : Entries Str Json) : Contained (fileName item) := by
  unfold fileName
  split <;> simp

theorem fileName_eq_ok {item : Entries Str Json} {name : Option Str}
    (h : fileName item = .ok name) :
    Json.field item "filename" = name.elim .null .str := by
  unfold fileName at h
  split at h
  · rename_i hn
    cases h
    exact hn
  · rename_i s hs
    cases h
    exact hs
  · cases h

theorem nameReadable_iff {item : Entries Str Json} :
    (∃ name, fileName item = .ok name) ↔ NameReadable item := by
  constructor
  · rintro ⟨name, h⟩
    have hf := fileName_eq_ok h
    cases name with
    | none => exact .inl hf
    | some s => exact .inr ⟨s, hf⟩
  · rintro (h | ⟨s, h⟩)
    · exact ⟨none, by simp [fileName, h]⟩
    · exact ⟨some s, by simp [fileName, h]⟩

theorem validatedName_eq_ok_iff {item : Entries Str Json} {name : Option Str}
    (h : fileName item = .ok name) :
    (∃ field, validatedName name = .ok field) ↔ NameWithinLimits item := by
  have hf := fileName_eq_ok h
  unfold NameWithinLimits
  rw [hf]
  cases name with
  | none => simp [validatedName]
  | some s =>
      by_cases hv : Constrained.Valid 255 anyText s
      · simp [validatedName, Constrained.validate_of_valid hv, validated, hv]
      · simp [validatedName, Constrained.validate_eq_none_iff.mpr hv, validated, hv]

theorem contained_validatedName_iff {item : Entries Str Json} {name : Option Str}
    (h : fileName item = .ok name) :
    Contained (validatedName name) ↔ NameWithinLimits item := by
  have hf := fileName_eq_ok h
  unfold NameWithinLimits
  rw [hf]
  cases name with
  | none => simp [validatedName]
  | some s => simp [validatedName, contained_validated_iff, Constrained.validate_eq_none_iff]

/-- A name that cannot be read is refused before its limits are checked. -/
theorem nameWithinLimits_of_error {item : Entries Str Json} {e : Raised}
    (h : fileName item = .error e) : NameWithinLimits item := by
  intro s hs
  simp [fileName, hs] at h

theorem validated_pdfMime :
    ∃ declared, validated (Constrained.validate 100 anyText (lit pdfMime)) = .ok declared :=
  ⟨_, by
    rw [Constrained.validate_of_valid (shortMimes_pdf pdfMime (List.mem_singleton.mpr rfl))]
    rfl⟩

theorem contained_assetPdfPart_iff (item : Entries Str Json) (assetId : Str) :
    Contained (assetPdfPart item assetId) ↔
      (Constrained.Valid 67 assetIdPattern assetId → NameWithinLimits item) := by
  obtain ⟨declared, hdeclared⟩ := validated_pdfMime
  unfold assetPdfPart
  cases hname : fileName item with
  | error e =>
      have hc : Contained (.error e : Except Raised MediaPart) := by
        rw [contained_error_iff]
        exact contained_fileName item e hname
      exact iff_of_true hc fun _ => nameWithinLimits_of_error hname
  | ok name =>
      cases hsource : assetSource assetId with
      | error e =>
          have hc : Contained (.error e : Except Raised MediaPart) := by
            rw [contained_error_iff]
            exact contained_assetSource assetId e hsource
          refine iff_of_true hc fun hv => ?_
          obtain ⟨source, hok⟩ := assetSource_eq_ok_iff.mpr hv
          rw [hok] at hsource
          cases hsource
      | ok source =>
          have hv := assetSource_eq_ok_iff.mp ⟨source, hsource⟩
          rw [← contained_validatedName_iff hname]
          simp only [hdeclared, hv, true_imp_iff, bind, Except.bind, pure, Except.pure]
          cases validatedName name <;> simp [contained_error_iff]

theorem assetPdfPart_eq_ok_iff {item : Entries Str Json} {assetId : Str} :
    (∃ part, assetPdfPart item assetId = .ok part) ↔
      Constrained.Valid 67 assetIdPattern assetId ∧ NameReadable item ∧
        NameWithinLimits item := by
  obtain ⟨declared, hdeclared⟩ := validated_pdfMime
  unfold assetPdfPart
  rw [← assetSource_eq_ok_iff, ← nameReadable_iff]
  cases hname : fileName item with
  | error e => simp [bind, Except.bind]
  | ok name =>
      rw [← validatedName_eq_ok_iff hname]
      cases assetSource assetId with
      | error e => simp [bind, Except.bind]
      | ok source =>
          cases hfield : validatedName name <;>
            simp [hdeclared, hfield, bind, Except.bind, pure, Except.pure]

theorem contained_inlinePdfPart_iff (item : Entries Str Json) (locator : Str) :
    Contained (inlinePdfPart item locator) ↔
      (InlineData locator [pdfMime] → NameWithinLimits item) := by
  unfold inlinePdfPart
  cases hdec : decodeDataUri locator [pdfMime] with
  | error e =>
      have hc : Contained (.error e : Except Raised MediaPart) := by
        rw [contained_error_iff]
        exact contained_decodeDataUri locator [pdfMime] e hdec
      refine iff_of_true hc fun hin => ?_
      rw [decodeDataUri_eq_ok_iff.mpr ⟨hin, rfl⟩] at hdec
      cases hdec
  | ok r =>
      obtain ⟨hin, rfl⟩ := decodeDataUri_eq_ok_iff.mp hdec
      cases hname : fileName item with
      | error e =>
          have hc : Contained (.error e : Except Raised MediaPart) := by
            rw [contained_error_iff]
            exact contained_fileName item e hname
          exact iff_of_true hc fun _ => nameWithinLimits_of_error hname
      | ok name =>
          rw [← contained_validatedName_iff hname]
          simp only [hin, true_imp_iff, validated, Constrained.validate_of_valid hin.valid_base64,
            Constrained.validate_of_valid (hin.valid_mime shortMimes_pdf), bind, Except.bind,
            pure, Except.pure]
          cases validatedName name <;> simp [contained_error_iff]

theorem inlinePdfPart_eq_ok_iff {item : Entries Str Json} {locator : Str} :
    (∃ part, inlinePdfPart item locator = .ok part) ↔
      InlineData locator [pdfMime] ∧ NameReadable item ∧ NameWithinLimits item := by
  unfold inlinePdfPart
  constructor
  · rintro ⟨part, h⟩
    cases hdec : decodeDataUri locator [pdfMime] with
    | error e => simp [hdec, bind, Except.bind] at h
    | ok r =>
        obtain ⟨hin, rfl⟩ := decodeDataUri_eq_ok_iff.mp hdec
        cases hname : fileName item with
        | error e => simp [hdec, hname, bind, Except.bind] at h
        | ok name =>
            refine ⟨hin, nameReadable_iff.mp ⟨name, hname⟩, ?_⟩
            rw [← validatedName_eq_ok_iff hname]
            cases hfield : validatedName name with
            | error e =>
                simp [hdec, hname, hfield, validated, bind, Except.bind,
                  Constrained.validate_of_valid hin.valid_base64] at h
            | ok field => exact ⟨field, rfl⟩
  · rintro ⟨hin, hread, hlimit⟩
    obtain ⟨name, hname⟩ := nameReadable_iff.mpr hread
    obtain ⟨field, hfield⟩ := (validatedName_eq_ok_iff hname).mpr hlimit
    have hdec := decodeDataUri_eq_ok_iff.mpr ⟨hin, rfl⟩
    simp [hdec, hname, hfield, validated, bind, Except.bind, pure, Except.pure,
      Constrained.validate_of_valid hin.valid_base64,
      Constrained.validate_of_valid (hin.valid_mime shortMimes_pdf)]

/-- The file item is located, by an asset or by inline data. -/
theorem contained_pdfPart_iff (item : Entries Str Json) :
    Contained (pdfPart item) ↔
      (PlainItem item fileKeys → AcceptedFile item → NameWithinLimits item) := by
  unfold pdfPart
  split
  · rename_i hown
    refine iff_of_true (contained_refuse _ _) fun h => ?_
    rw [h.own] at hown
    cases hown
  rename_i hown
  split
  · rename_i hkeys
    refine iff_of_true (contained_refuse _ _) fun h => ?_
    simp [h.keys] at hkeys
  rename_i hkeys
  have hplain : PlainItem item fileKeys := ⟨by simpa using hown, by simpa using hkeys⟩
  simp only [hplain, true_imp_iff]
  split
  · rename_i hasset
    split
    · rename_i assetId halone hid
      rw [contained_assetPdfPart_iff]
      have hl : AssetLocator item "file_data" assetId := ⟨field_eq_str_iff.mp hid, halone⟩
      constructor
      · intro h ha
        cases ha with
        | asset hl' hv =>
            have heq := hl'.asset.symm.trans hl.asset
            injection heq with heq
            exact h (heq ▸ hv)
        | inlineData hl' => simp [hl'.noAsset] at hasset
      · intro h hv
        exact h (.asset hl hv)
    · rename_i hno
      refine iff_of_true (contained_refuse _ _) fun ha => ?_
      cases ha with
      | asset hl => exact absurd (field_eq_str_iff.mpr hl.asset) (hno _ hl.alone)
      | inlineData hl => simp [hl.noAsset] at hasset
  · rename_i hasset
    have hnull : Json.field item "asset_id" = .null := by
      simpa [Json.isNull_iff] using hasset
    split
    · rename_i hnone
      refine iff_of_true (contained_refuse _ _) fun ha => ?_
      cases ha with
      | asset hl => rw [hl.asset] at hnull; cases hnull
      | inlineData hl => simp [hl.text, Json.str?] at hnone
    · rename_i locator hsome
      rw [contained_inlinePdfPart_iff]
      have hl : TextLocator item "file_data" locator := ⟨hnull, field_eq_str_iff.mp hsome⟩
      constructor
      · intro h ha
        cases ha with
        | asset hl' => rw [hl'.asset] at hnull; cases hnull
        | inlineData hl' hin =>
            have heq := hl'.text.symm.trans hl.text
            injection heq with heq
            exact h (heq ▸ hin)
      · intro h hin
        exact h (.inlineData hl hin)

theorem pdfPart_eq_ok_iff {item : Entries Str Json} :
    (∃ part, pdfPart item = .ok part) ↔ PlainItem item fileKeys ∧ AcceptedFile item ∧
      NameReadable item ∧ NameWithinLimits item := by
  unfold pdfPart
  constructor
  · rintro ⟨part, h⟩
    split at h
    · cases h
    rename_i hown
    split at h
    · cases h
    rename_i hkeys
    refine ⟨⟨by simpa using hown, by simpa using hkeys⟩, ?_⟩
    split at h
    · split at h
      · rename_i assetId halone hid
        obtain ⟨hv, hname⟩ := assetPdfPart_eq_ok_iff.mp ⟨part, h⟩
        exact ⟨.asset ⟨field_eq_str_iff.mp hid, halone⟩ hv, hname⟩
      · cases h
    · rename_i hasset
      have hnull : Json.field item "asset_id" = .null := by
        simpa [Json.isNull_iff] using hasset
      split at h
      · cases h
      · rename_i locator hsome
        obtain ⟨hin, hname⟩ := inlinePdfPart_eq_ok_iff.mp ⟨part, h⟩
        exact ⟨.inlineData ⟨hnull, field_eq_str_iff.mp hsome⟩ hin, hname⟩
  · rintro ⟨hplain, hfile, hname⟩
    rw [if_neg (by simp [hplain.own]), if_neg (by simp [hplain.keys])]
    cases hfile with
    | asset hl hv =>
        simpa [hl.asset, hl.alone, Json.isNull, Json.str?] using
          assetPdfPart_eq_ok_iff.mpr ⟨hv, hname⟩
    | inlineData hl hin =>
        simpa [hl.noAsset, hl.text, Json.str?] using
          inlinePdfPart_eq_ok_iff.mpr ⟨hin, hname⟩

end OpenaiResponses

end MediaBridge.Core
