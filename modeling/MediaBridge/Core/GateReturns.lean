import MediaBridge.Core.GateBoundary
import MediaBridge.Foundation.JsonWritable

/-!
# When the gate returns an outcome

The refusals of the gate always produce a blocked outcome. A request that is sent on can
fail where its result is built, outside every handler.
-/

namespace MediaBridge.Core

open Foundation

/-- A code and a message that fit into a public error. -/
def Showable (code message : Str) : Prop := (SafeError.validate code message).isSome = true

instance (code message : Str) : Decidable (Showable code message) :=
  inferInstanceAs (Decidable (_ = true))

namespace GateRaised

/-- An exception that the code of a backend may raise on its own. -/
def Ordinary : GateRaised → Prop
  | .cleanupError | .exception => True
  | .gateFailure _ _ | .baseException => False

/-- An exception that the gate turns into a blocked outcome while it converts. -/
def Contained : GateRaised → Prop
  | .gateFailure code message => Showable code message
  | .cleanupError | .exception => True
  | .baseException => False

theorem Ordinary.contained {e : GateRaised} (h : Ordinary e) : Contained e := by
  cases e with
  | gateFailure code message => exact h.elim
  | cleanupError => trivial
  | exception => trivial
  | baseException => exact h.elim

end GateRaised

open GateRaised (Ordinary Contained)

/-- Backends that answer with their declared types, or raise an ordinary exception. -/
structure Backends.Declared (B : Backends) : Prop where
  acquire : ∀ k part tenantId, RaisesOnly Ordinary (B.acquire k part tenantId)
  openWorkspace : ∀ k, RaisesOnly Ordinary (B.openWorkspace k)
  writeBytes : ∀ k i name data, RaisesOnly Ordinary (B.writeBytes k i name data)
  cleanup : ∀ k, RaisesOnly Ordinary (B.cleanup k)
  render : ∀ k data, RaisesOnly Ordinary (B.render k data)
  ocr : ∀ k i data mime name, RaisesOnly Ordinary (B.ocr k i data mime name)
  vision : ∀ k i data mime profile, RaisesOnly Ordinary (B.vision k i data mime profile)

namespace Gate

section Contained

variable {α : Type} {code message : String} {B : Backends}

theorem contained_fail (h : Showable (lit code) (lit message)) :
    RaisesOnly Contained (fail code message : Except GateRaised α) :=
  .error h

theorem contained_guarded {x : Except GateRaised α} (hx : RaisesOnly Ordinary x)
    (h : Showable (lit code) (lit message)) : RaisesOnly Contained (guarded code message x) := by
  cases x with
  | ok a => exact .ok a
  | error e =>
      cases e with
      | baseException => exact (hx _ rfl).elim
      | _ => exact contained_fail h

theorem contained_acquireMedia (hB : B.Declared) (k : Nat) (part : MediaPart) (tenantId : Str) :
    RaisesOnly Contained (acquireMedia B k part tenantId) :=
  contained_guarded (hB.acquire k part tenantId) (by decide)

theorem contained_backendPages (hB : B.Declared) (k : Nat) (data : Bytes) (mediaType : Str) :
    RaisesOnly Contained (backendPages B k data mediaType) := by
  unfold backendPages
  split_ifs
  · exact .ok _
  · apply RaisesOnly.bind (contained_guarded (hB.render k data) (by decide))
    intro rendered
    split_ifs
    · exact contained_fail (by decide)
    · exact .ok _

theorem contained_pageText (hB : B.Declared) (k i : Nat) (isPdf : Bool) (page : RenderedPdfPage) :
    RaisesOnly Contained (pageText B k i isPdf page) := by
  apply RaisesOnly.bind ((hB.ocr _ _ _ _ _).mono fun _ => GateRaised.Ordinary.contained)
  intro result
  split_ifs
  · exact contained_fail (by decide)
  · exact contained_fail (by decide)
  · split
    · exact .ok _
    · exact .ok _

theorem contained_pageDescription (hB : B.Declared) (k i : Nat) (profile : ConversionProfile)
    (page : RenderedPdfPage) : RaisesOnly Contained (pageDescription B k i profile page) := by
  unfold pageDescription
  split_ifs
  · apply RaisesOnly.bind ((hB.vision _ _ _ _ _).mono fun _ => GateRaised.Ordinary.contained)
    intro result
    split_ifs
    · exact contained_fail (by decide)
    · exact .ok _
  · exact .ok _

theorem contained_pageSections (hB : B.Declared) (k i : Nat) (isPdf : Bool)
    (profile : ConversionProfile) (page : RenderedPdfPage) :
    RaisesOnly Contained (pageSections B k i isPdf profile page) := by
  have hwrite : RaisesOnly Contained (B.writeBytes k (i + 1)
      (lit "media-" ++ JsonText.natText k ++ lit "-" ++ page.filename) page.data) :=
    (hB.writeBytes _ _ _ _).mono fun _ => GateRaised.Ordinary.contained
  have hrest : RaisesOnly Contained (do
      let text ← pageText B k i isPdf page
      let label := pageLabel k isPdf page
      let converted := lit "[" ++ label ++ lit " OCR]\n" ++ text
      let description ← pageDescription B k i profile page
      if description.isEmpty then return MediaSections.mk [text] [] [converted]
      else return ⟨[text], [description],
        [converted, lit "[" ++ label ++ lit " Vision]\n" ++ description]⟩) := by
    apply RaisesOnly.bind (contained_pageText hB k i isPdf page)
    intro text
    apply RaisesOnly.bind (contained_pageDescription hB k i profile page)
    intro description
    split_ifs
    · exact .ok _
    · exact .ok _
  unfold pageSections
  split_ifs
  · exact hwrite.bind fun _ => hrest
  · exact hrest

theorem contained_pagesSections (hB : B.Declared) (k : Nat) (isPdf : Bool)
    (profile : ConversionProfile) (i : Nat) (pages : List RenderedPdfPage) :
    RaisesOnly Contained (pagesSections B k isPdf profile i pages) := by
  induction pages generalizing i with
  | nil => exact .ok _
  | cons page rest ih =>
      apply RaisesOnly.bind (contained_pageSections hB k i isPdf profile page)
      intro first
      apply RaisesOnly.bind (ih (i + 1))
      intro others
      exact .ok _

theorem contained_processMedia (hB : B.Declared) (k : Nat) (profile : ConversionProfile)
    (acquired : AcquiredMedia) : RaisesOnly Contained (processMedia B k profile acquired) := by
  apply RaisesOnly.bind ((hB.writeBytes _ _ _ _).mono fun _ => GateRaised.Ordinary.contained)
  intro _
  apply RaisesOnly.bind (contained_backendPages hB k acquired.data acquired.mediaType)
  exact fun pages => contained_pagesSections hB k _ profile 0 pages

/-- The handlers keep an exception contained, and so does the cleanup. -/
theorem contained_cleanedUp (hB : B.Declared) (k : Nat)
    {processed : Except GateRaised MediaSections} (h : RaisesOnly Contained processed) :
    RaisesOnly Contained (cleanedUp B k processed) := by
  have hresult : RaisesOnly Contained (processingResult processed) := by
    unfold processingResult
    split
    · exact contained_fail (by decide)
    · exact contained_fail (by decide)
    · exact h
  unfold cleanedUp
  split
  · rename_i hbase
    exact (hresult _ hbase).elim
  · split
    · exact contained_fail (by decide)
    · rename_i e _ he
      exact .error ((hB.cleanup k e he).contained)
    · exact hresult

theorem contained_gather (hB : B.Declared) (tenantId : Str) (profile : ConversionProfile)
    (k : Nat) (parts : List MediaPart) :
    RaisesOnly Contained (gather B tenantId profile k parts) := by
  induction parts generalizing k with
  | nil => exact .ok _
  | cons part rest ih =>
      apply RaisesOnly.bind (contained_acquireMedia hB k part tenantId)
      intro acquired
      apply RaisesOnly.bind (contained_guarded (hB.openWorkspace k) (by decide))
      intro _
      have hprocess := contained_processMedia hB k profile acquired
      apply RaisesOnly.bind (contained_cleanedUp hB k hprocess)
      intro sections
      apply RaisesOnly.bind (ih (k + 1))
      intro others
      exact .ok _

end Contained

end Gate

namespace PreRequestGate

open Gate

variable {gate : PreRequestGate} {tenantId : Str} {now : Instant} {signedAt : ℚ}
  {request : PrepareForModelRequest}

theorem contained_sanitized (sep : String) (sections locators : List Str) :
    RaisesOnly Contained (gate.sanitized sep sections locators) := by
  unfold sanitized
  split
  · exact .ok _
  · exact contained_fail (by decide)

theorem contained_extractContext (hB : gate.backends.Declared) (content : List ContentPart)
    (profile : ConversionProfile) (tenantId : Str) :
    RaisesOnly Contained (gate.extractContext content profile tenantId) := by
  unfold extractContext
  split_ifs
  · exact contained_fail (by decide)
  · apply RaisesOnly.bind (contained_gather hB tenantId profile 1 _)
    intro gathered
    apply RaisesOnly.bind (contained_sanitized _ _ _)
    intro ocrText
    refine RaisesOnly.bind ?_ fun visualDescription => ?_
    · unfold describedText
      split_ifs
      · exact .ok _
      · exact contained_sanitized _ _ _
    · apply RaisesOnly.bind (contained_sanitized _ _ _)
      exact fun _ => .ok _

/-- Where the gate sends a request. -/
inductive Route
  | refused (code message : String)
  | pdfs
  | conversion
  | textOnly (level : CapabilityState)

/-- The route of a request, decided from its target and its media alone. -/
def route (gate : PreRequestGate) (now : Instant) (request : PrepareForModelRequest) : Route :=
  let detection := detectMedia request.content
  let resolution := gate.registry.resolve request.target.registryId.value now
  if resolution.state = .unknown then .refused "capability_unknown" "Target capability is unknown."
  else if resolution.state = .stale then .refused "capability_stale" "Target capability is stale."
  else
    match resolution.capability with
    | none => .refused "capability_unknown" "Target capability is unknown."
    | some capability =>
        if resolution.state = .vision ∧ detection.mediaCount ≠ 0 ∧
            ¬ capability.supportsAll detection.modalities then
          .refused "unsupported_media_modality"
            "Target does not support every requested media modality."
        else if resolution.state = .vision ∧ detection.mediaCount ≠ 0 ∧
            detection.modalities = {.pdf} ∧ capability.pdfPassthroughVerified then .pdfs
        else if detection.mediaCount ≠ 0 then .conversion
        else .textOnly resolution.state

/-- The gate follows the route of the request. -/
theorem prepareForModel_eq (gate : PreRequestGate) (now : Instant) (signedAt : ℚ)
    (tenantId : Str) (request : PrepareForModelRequest) :
    gate.prepareForModel now signedAt tenantId request =
      match gate.route now request with
      | .refused code message => blocked request (lit code) (lit message)
      | .pdfs => gate.passPdfs signedAt tenantId request
      | .conversion => gate.convert signedAt tenantId request
      | .textOnly level =>
          gate.ready signedAt request request.content level .passthrough
            (joinText request.content) true := by
  unfold prepareForModel route
  simp only
  by_cases hunknown : (gate.registry.resolve request.target.registryId.value now).state = .unknown
  · rw [if_pos hunknown, if_pos hunknown]
  by_cases hstale : (gate.registry.resolve request.target.registryId.value now).state = .stale
  · rw [if_neg hunknown, if_neg hunknown, if_pos hstale, if_pos hstale]
  · rw [if_neg hunknown, if_neg hunknown, if_neg hstale, if_neg hstale]
    cases (gate.registry.resolve request.target.registryId.value now).capability with
    | none => rfl
    | some capability =>
        simp only
        split_ifs
        · rfl
        · rfl
        · rfl
        · rfl

/-- Every refusal fits into a public error. -/
theorem showable_of_route {code message : String}
    (h : gate.route now request = .refused code message) : Showable (lit code) (lit message) := by
  unfold route at h
  simp only at h
  split at h
  · cases h
    decide
  split at h
  · cases h
    decide
  split at h
  · cases h
    decide
  split at h
  · cases h
    decide
  split at h
  · cases h
  split at h
  · cases h
  · cases h

/-- The bytes and the MIME type of an acquired item fit into an inline part. -/
structure Inlinable (acquired : AcquiredMedia) : Prop where
  data : acquired.data.length ≤ 2097153
  mimeType : Str.encodable acquired.mimeType = true ∧ acquired.mimeType.length ≤ 100

/-- Every media item is acquired and fits into an inline part. -/
inductive AllInlinable (B : Backends) (tenantId : Str) : Nat → List MediaPart → Prop
  | nil {k} : AllInlinable B tenantId k []
  | cons {k part acquired rest} : B.acquire k part tenantId = .ok acquired →
      Inlinable acquired → AllInlinable B tenantId (k + 1) rest →
      AllInlinable B tenantId k (part :: rest)

/-- A media item is acquired that does not fit, after items that do. -/
inductive FirstUnfit (B : Backends) (tenantId : Str) : Nat → List MediaPart → Prop
  | here {k part acquired rest} : B.acquire k part tenantId = .ok acquired →
      ¬ Inlinable acquired → FirstUnfit B tenantId k (part :: rest)
  | later {k part acquired rest} : B.acquire k part tenantId = .ok acquired →
      Inlinable acquired → FirstUnfit B tenantId (k + 1) rest →
      FirstUnfit B tenantId k (part :: rest)

theorem inlinable_iff {acquired : AcquiredMedia} :
    Inlinable acquired ↔
      Constrained.Valid 2796204 anyText (Base64.encode acquired.data) ∧
        Constrained.Valid 100 anyText acquired.mimeType := by
  have hlength : (Base64.encode acquired.data).length = (acquired.data.length + 2) / 3 * 4 :=
    Base64.encode_length _
  constructor
  · rintro ⟨hdata, hmime⟩
    refine ⟨⟨Base64.encodable_encode _, ?_, rfl⟩, hmime.1, hmime.2, rfl⟩
    omega
  · rintro ⟨⟨-, hdata, -⟩, hmime, hshort, -⟩
    refine ⟨?_, hmime, hshort⟩
    omega

/-- An acquired item is put inline exactly when it fits. -/
theorem inlinePart_eq_ok_iff (part : MediaPart) {acquired : AcquiredMedia} :
    (∃ inlined, inlinePart part acquired = .ok inlined) ↔ Inlinable acquired := by
  rw [inlinable_iff]
  constructor
  · rintro ⟨inlined, h⟩
    obtain ⟨data, hdata, h⟩ := ok_of_bind h
    obtain ⟨mime, hmime, -⟩ := ok_of_bind h
    exact ⟨Constrained.valid_of_validate (required_eq_ok.mp hdata),
      Constrained.valid_of_validate (required_eq_ok.mp hmime)⟩
  · rintro ⟨hdata, hmime⟩
    rw [inlinePart, Constrained.validate_of_valid hdata, Constrained.validate_of_valid hmime]
    exact ⟨_, rfl⟩

theorem inlinePart_of_not_inlinable {part : MediaPart} {acquired : AcquiredMedia}
    (h : ¬ Inlinable acquired) : inlinePart part acquired = .error .exception := by
  rw [inlinable_iff, not_and_or] at h
  rcases h with h | h
  · rw [inlinePart, Constrained.validate_eq_none_iff.mpr h]
    rfl
  · rw [inlinePart, Constrained.validate_eq_none_iff.mpr h]
    cases Constrained.validate 2796204 anyText (Base64.encode acquired.data) with
    | none => rfl
    | some data => rfl

/-- What becomes of a content whose media are to be put inline. -/
inductive InlineResult (B : Backends) (tenantId : Str) (k : Nat) (parts : List MediaPart)
    (result : Except GateRaised (List ContentPart)) : Prop
  | inlined {content} : AllInlinable B tenantId k parts → result = .ok content →
      InlineResult B tenantId k parts result
  | refused {code message} : ¬ AllInlinable B tenantId k parts →
      ¬ FirstUnfit B tenantId k parts → Showable code message →
      result = .error (.gateFailure code message) → InlineResult B tenantId k parts result
  | raised : FirstUnfit B tenantId k parts → result = .error .exception →
      InlineResult B tenantId k parts result

section Acquired

variable {B : Backends} {k : Nat} {part : MediaPart} {rest : List MediaPart}

theorem allInlinable_cons_iff :
    AllInlinable B tenantId k (part :: rest) ↔ ∃ acquired,
      B.acquire k part tenantId = .ok acquired ∧ Inlinable acquired ∧
        AllInlinable B tenantId (k + 1) rest := by
  constructor
  · rintro ⟨⟩
    exact ⟨_, by assumption, by assumption, by assumption⟩
  · rintro ⟨acquired, hacquired, hfits, hrest⟩
    exact .cons hacquired hfits hrest

theorem firstUnfit_cons_iff :
    FirstUnfit B tenantId k (part :: rest) ↔ ∃ acquired,
      B.acquire k part tenantId = .ok acquired ∧
        (Inlinable acquired → FirstUnfit B tenantId (k + 1) rest) := by
  constructor
  · rintro (⟨hacquired, hunfit⟩ | ⟨hacquired, -, hrest⟩)
    · exact ⟨_, hacquired, fun hfits => absurd hfits hunfit⟩
    · exact ⟨_, hacquired, fun _ => hrest⟩
  · rintro ⟨acquired, hacquired, h⟩
    by_cases hfits : Inlinable acquired
    · exact .later hacquired hfits (h hfits)
    · exact .here hacquired hfits

end Acquired

/-- Media are put inline, refused or, when one does not fit, nothing is returned. -/
theorem inlineResult_normalizeVisionContent (hB : gate.backends.Declared) (tenantId : Str)
    (content : List ContentPart) (k : Nat) :
    InlineResult gate.backends tenantId k (mediaParts content)
      (gate.normalizeVisionContent tenantId k content) := by
  induction content generalizing k with
  | nil => exact .inlined .nil rfl
  | cons head rest ih =>
      cases head with
      | text part =>
          rw [mediaParts_cons_text, normalizeVisionContent]
          cases ih k with
          | inlined hall h =>
              rw [h]
              exact .inlined hall rfl
          | refused hall hunfit hshow h =>
              rw [h]
              exact .refused hall hunfit hshow rfl
          | raised hunfit h =>
              rw [h]
              exact .raised hunfit rfl
      | media part =>
          rw [mediaParts_cons_media, normalizeVisionContent, acquireMedia]
          cases hacquire : gate.backends.acquire k part tenantId with
          | error e =>
              have hguarded : guarded "media_acquisition_failed"
                  "Media could not be acquired safely." (.error e : Except GateRaised AcquiredMedia)
                    = fail "media_acquisition_failed" "Media could not be acquired safely." := by
                have hordinary := hB.acquire k part tenantId e hacquire
                cases e with
                | baseException => exact hordinary.elim
                | _ => rfl
              rw [hguarded]
              refine .refused ?_ ?_ (by decide) rfl
              · rw [allInlinable_cons_iff, hacquire]
                rintro ⟨_, ⟨⟩, -⟩
              · rw [firstUnfit_cons_iff, hacquire]
                rintro ⟨_, ⟨⟩, -⟩
          | ok acquired =>
              have hall : AllInlinable gate.backends tenantId k (part :: mediaParts rest) ↔
                  Inlinable acquired ∧
                    AllInlinable gate.backends tenantId (k + 1) (mediaParts rest) := by
                simp [allInlinable_cons_iff, hacquire]
              have hunfit : FirstUnfit gate.backends tenantId k (part :: mediaParts rest) ↔
                  (Inlinable acquired →
                    FirstUnfit gate.backends tenantId (k + 1) (mediaParts rest)) := by
                simp [firstUnfit_cons_iff, hacquire]
              change InlineResult gate.backends tenantId k (part :: mediaParts rest)
                (inlinePart part acquired >>= fun inlined =>
                  gate.normalizeVisionContent tenantId (k + 1) rest >>= fun others =>
                    pure (.media inlined :: others))
              by_cases hfits : Inlinable acquired
              · obtain ⟨inlined, hinlined⟩ := (inlinePart_eq_ok_iff part).mpr hfits
                rw [hinlined]
                cases ih (k + 1) with
                | inlined hrest h =>
                    rw [h]
                    exact .inlined (hall.mpr ⟨hfits, hrest⟩) rfl
                | refused hrest hnone hshow h =>
                    rw [h]
                    exact .refused (fun hno => hrest (hall.mp hno).2)
                      (fun hno => hnone (hunfit.mp hno hfits)) hshow rfl
                | raised hrest h =>
                    rw [h]
                    exact .raised (hunfit.mpr fun _ => hrest) rfl
              · rw [inlinePart_of_not_inlinable hfits]
                exact .raised (hunfit.mpr fun hno => absurd hno hfits) rfl

theorem not_allInlinable_of_firstUnfit {B : Backends} {k : Nat} {parts : List MediaPart}
    (h : FirstUnfit B tenantId k parts) : ¬ AllInlinable B tenantId k parts := by
  induction h with
  | here hacquired hunfit =>
      rw [allInlinable_cons_iff, hacquired]
      rintro ⟨_, ⟨⟩, hfits, -⟩
      exact hunfit hfits
  | later hacquired hfits hrest ih =>
      rw [allInlinable_cons_iff]
      rintro ⟨_, -, -, hall⟩
      exact ih hall

section Dumps

open JsonText (Writable)

theorem writable_dumpText {s : Option Str} (h : ∀ t ∈ s, Str.encodable t = true) :
    Writable (dumpText s) := by
  cases s with
  | none => exact .null
  | some t => exact .str (h t rfl)

theorem encodable_of_mem_map {limit : Nat} {pattern : Str → Bool}
    {field : Option (Constrained limit pattern)} {t : Str}
    (h : t ∈ field.map fun f => f.value) : t.encodable = true := by
  obtain ⟨f, -, rfl⟩ := Option.map_eq_some_iff.mp h
  exact f.encodable

theorem writable_dumpSource (source : MediaSource) : Writable (dumpSource source) := by
  cases source with
  | base64 data =>
      apply Writable.cons (by decide) (.str (by decide))
      exact .cons (by decide) (.str data.encodable) .empty
  | assetId id =>
      apply Writable.cons (by decide) (.str (by decide))
      exact .cons (by decide) (.str id.encodable) .empty
  | url url =>
      apply Writable.cons (by decide) (.str (by decide))
      exact .cons (by decide) (.str url.encodable) .empty
  | localPath path =>
      apply Writable.cons (by decide) (.str (by decide))
      exact .cons (by decide) (.str path.encodable) .empty

theorem writable_dumpPart (part : ContentPart) : Writable (dumpPart part) := by
  cases part with
  | text part =>
      apply Writable.cons (by decide) (.str (by decide))
      exact .cons (by decide) (.str part.text.encodable) .empty
  | media part =>
      have htype : Writable (.str part.mediaType.value) := by
        apply Writable.str
        cases part.mediaType <;> decide
      apply Writable.cons (by decide) (.str (by decide))
      apply Writable.cons (by decide) htype
      apply Writable.cons (by decide) (writable_dumpSource part.source)
      apply Writable.cons (by decide) (writable_dumpText fun _ => encodable_of_mem_map)
      exact .cons (by decide) (writable_dumpText fun _ => encodable_of_mem_map) .empty

theorem writable_content (content : List ContentPart) :
    Writable (.arr (content.map dumpPart)) := by
  refine .arr fun v hv => ?_
  obtain ⟨part, -, rfl⟩ := List.mem_map.mp hv
  exact writable_dumpPart part

theorem writable_dumpRequest (request : PrepareForModelRequest) :
    Writable (dumpRequest request) := by
  have hprofile : Writable (.str request.conversionProfile.value) := by
    apply Writable.str
    cases request.conversionProfile <;> decide
  apply Writable.cons (by decide) (writable_content request.content)
  apply Writable.cons (by decide)
  · exact .cons (by decide) (.str request.target.registryId.encodable) .empty
  · exact .cons (by decide) hprofile .empty

/-- A value that can be written has a digest. -/
theorem exists_canonicalDigest (P : Platform) {value : Json} (h : Writable value) :
    ∃ digest, canonicalDigest P value = some digest ∧ Str.encodable digest = true := by
  obtain ⟨text, data, htext, hdata⟩ := h.exists_encoded P.float ⟨false, true, true⟩
  refine ⟨P.sha256Hex data, ?_, Str.encodable_of_ascii (hexText_ascii _)⟩
  rw [canonicalDigest, htext, Option.bind_eq_bind, Option.bind_some, hdata]
  rfl

end Dumps

section Sign

open JsonText (Writable)

theorem natAbs_truncate_le (t : ℚ) : ((truncate t).natAbs : ℚ) ≤ |t| := by
  rw [Nat.cast_natAbs, Int.cast_abs, truncate]
  split_ifs with h
  · have hceil : (⌈t⌉ : ℚ) ≤ 0 := by exact_mod_cast Int.ceil_nonpos.mpr h.le
    rw [abs_of_nonpos hceil, abs_of_neg h, neg_le_neg_iff]
    exact Int.le_ceil t
  · have hfloor : (0 : ℚ) ≤ ⌊t⌋ := by exact_mod_cast Int.floor_nonneg.mpr (not_lt.mp h)
    rw [abs_of_nonneg hfloor, abs_of_nonneg (not_lt.mp h)]
    exact Int.floor_le t

theorem add_lt_pow {a n k m : Nat} (ha : a < 2 ^ k) (hn : n < 10 ^ 3) (hk : 3 ≤ k) (hm : k < m) :
    a + n < 10 ^ m :=
  calc
    a + n < 10 ^ k + 10 ^ k :=
      Nat.add_lt_add (ha.trans_le (Nat.pow_le_pow_left (by decide) k))
        (hn.trans_le (Nat.pow_le_pow_right (by decide) hk))
    _ ≤ 10 ^ (k + 1) := by
      rw [pow_succ]
      omega
    _ ≤ 10 ^ m := Nat.pow_le_pow_right (by decide) hm

/-- A reading of a clock that counts in floats has a text, and so has a later second. -/
theorem tooLong_truncate {signedAt : ℚ} (h : |signedAt| < 2 ^ 1024) {n : Nat} (hn : n < 1000) :
    JsonText.tooLong (truncate signedAt + n).natAbs = false := by
  have hlt : (truncate signedAt).natAbs < 2 ^ 1024 := by
    exact_mod_cast (natAbs_truncate_le signedAt).trans_lt h
  apply JsonText.tooLong_eq_false
  calc
    (truncate signedAt + n).natAbs ≤ (truncate signedAt).natAbs + n := by omega
    _ < 10 ^ JsonText.maxIntDigits := add_lt_pow hlt hn (by decide) (by decide)

/-- A signer with a clock that counts in floats signs every encodable binding. -/
theorem exists_sign (P : Platform) (signer : GateReceiptSigner) {binding : ReceiptBinding}
    (hb : Receipts.Encodable binding) (hclock : |signedAt| < 2 ^ 1024) :
    ∃ receipt, Receipts.sign P signer signedAt binding 30 = some receipt := by
  have hissued := tooLong_truncate hclock (n := 0) (by decide)
  have hexpires := tooLong_truncate hclock (n := 30) (by decide)
  have hpayload : Writable (Receipts.payload binding (truncate signedAt)
      (truncate signedAt + 30)) := by
    apply Writable.cons (by decide) (.str hb.targetId)
    apply Writable.cons (by decide) (.str hb.capability)
    apply Writable.cons (by decide) (.str hb.inputDigest)
    apply Writable.cons (by decide) (.str hb.outputDigest)
    apply Writable.cons (by decide) (.str hb.action)
    apply Writable.cons (by decide) (.int (by simpa using hissued))
    exact .cons (by decide) (.int hexpires) .empty
  obtain ⟨text, data, htext, hdata⟩ := hpayload.exists_encoded P.float Receipts.style
  have hencoded : Receipts.encodedPayload P binding (truncate signedAt)
      (truncate signedAt + 30) = some (Base64.encodeUrl data) := by
    rw [Receipts.encodedPayload, htext, Option.bind_eq_bind, Option.bind_some, hdata]
    rfl
  have hascii : (Base64.encodeUrl data).all CodePoint.isAscii = true := by
    rw [List.all_eq_true]
    exact Base64.forall_mem_encodeUrl (p := fun c => c.isAscii = true) (by decide) data
  have hmac : Receipts.signature P signer (Base64.encodeUrl data) = some
      (P.hmacSha256 signer.secret ((Base64.encodeUrl data).map fun c => Utf8.byte c.val)) := by
    rw [Receipts.signature, Receipts.asciiBytes, if_pos hascii, Option.map_some]
  rw [Receipts.sign, if_neg (by decide)]
  simp only [hencoded, hmac, Option.bind_eq_bind, Option.bind_some]
  exact ⟨_, rfl⟩

end Sign

/-- A prepared outcome, or a blocked one with its error. -/
inductive Settled (outcome : GateOutcome) : Prop
  | prepared {payload} : outcome.prepared = some payload → outcome.result.action ≠ .blocked →
      outcome.result.error = none → Settled outcome
  | blocked {error} : outcome.prepared = none → outcome.result.action = .blocked →
      outcome.result.error = some error → Settled outcome

/-- The gate returns a prepared or a blocked outcome. -/
def Returns (run : Except GateRaised GateOutcome) : Prop :=
  ∃ outcome, run = .ok outcome ∧ Settled outcome

theorem not_returns_error {e : GateRaised} : ¬ Returns (.error e) := by
  rintro ⟨_, ⟨⟩, -⟩

theorem returns_blocked {code message : Str} (h : Showable code message) :
    Returns (blocked request code message) := by
  obtain ⟨error, herror⟩ := Option.isSome_iff_exists.mp h
  rw [blocked, herror]
  exact ⟨_, rfl, .blocked rfl rfl rfl⟩

/-- Building the result fails only for a text that the result cannot hold. -/
theorem returns_ready_iff (hclock : |signedAt| < 2 ^ 1024) {content : List ContentPart}
    {level : CapabilityState} {action : GateAction} (haction : action ≠ .blocked) {text : Str}
    {removed : Bool} :
    Returns (gate.ready signedAt request content level action text removed) ↔
      Constrained.Valid 200000 anyText text := by
  obtain ⟨inputDigest, hinput, hinputText⟩ :=
    exists_canonicalDigest gate.platform (writable_dumpRequest request)
  obtain ⟨outputDigest, houtput, houtputText⟩ :=
    exists_canonicalDigest gate.platform (writable_content content)
  have hbinding : Receipts.Encodable ⟨request.target.registryId.value, level.value, inputDigest,
      outputDigest, action.value⟩ := by
    have hlevel : Str.encodable level.value = true := by cases level <;> decide
    have haction : Str.encodable action.value = true := by cases action <;> decide
    exact ⟨request.target.registryId.encodable, hlevel, hinputText, houtputText, haction⟩
  obtain ⟨receipt, hreceipt⟩ := exists_sign gate.platform gate.signer hbinding hclock
  rw [ready, digestContent, hinput, houtput]
  change Returns (required (Receipts.sign gate.platform gate.signer signedAt _ 30) >>= _) ↔ _
  rw [hreceipt]
  constructor
  · intro h
    by_contra hno
    rw [Constrained.validate_eq_none_iff.mpr hno] at h
    exact not_returns_error h
  · intro h
    rw [Constrained.validate_of_valid h]
    exact ⟨_, rfl, .prepared rfl haction rfl⟩

/-- The texts of a request have a UTF-8 encoding together. -/
theorem encodable_joinText (content : List ContentPart) :
    Str.encodable (joinText content) = true := by
  refine Str.encodable_of_isInfix (Str.strip_isInfix _) (Str.encodable_join (by decide) ?_)
  intro t ht
  obtain ⟨part, -, hpart⟩ := List.mem_filterMap.mp ht
  cases part with
  | text part =>
      cases hpart
      exact part.text.encodable
  | media part => cases hpart

theorem valid_joinText_iff {content : List ContentPart} :
    Constrained.Valid 200000 anyText (joinText content) ↔ (joinText content).length ≤ 200000 :=
  ⟨fun h => h.2.1, fun h => ⟨encodable_joinText content, h, rfl⟩⟩

theorem mediaCount_of_conversion {now : Instant}
    (h : gate.route now request = .conversion) : (detectMedia request.content).mediaCount ≠ 0 := by
  by_contra hzero
  unfold route at h
  simp only [hzero, ne_eq, not_true_eq_false, false_and, and_false, if_false] at h
  split_ifs at h
  split at h <;> cases h

/-- What leaves the gate without an outcome: texts that are too long together, a PDF that
does not fit into an inline part, or a lone surrogate that the sanitizer leaves in the texts of
the backends. -/
inductive Uncaught (gate : PreRequestGate) (now : Instant) (tenantId : Str)
    (request : PrepareForModelRequest) : Prop
  | longText {level} : gate.route now request = .textOnly level →
      200000 < (joinText request.content).length → Uncaught gate now tenantId request
  | longPdfText : gate.route now request = .pdfs →
      AllInlinable gate.backends tenantId 1 (mediaParts request.content) →
      200000 < (joinText request.content).length → Uncaught gate now tenantId request
  | unfitPdf : gate.route now request = .pdfs →
      FirstUnfit gate.backends tenantId 1 (mediaParts request.content) →
      Uncaught gate now tenantId request
  | surrogate {gathered ocr described text} : gate.route now request = .conversion →
      gather gate.backends tenantId request.conversionProfile 1 (mediaParts request.content) =
        .ok gathered →
      gate.sanitized "\n" gathered.sections.ocr gathered.locators = .ok ocr →
      gate.describedText gathered = .ok described →
      sanitizeModelText gate.unicode gate.setOrder
        (Str.join (lit "\n\n") (convertedTexts request.content gathered)) gathered.locators
        200000 = .ok text →
      text.encodable = false → Uncaught gate now tenantId request

theorem returns_passPdfs_iff (hB : gate.backends.Declared) (hclock : |signedAt| < 2 ^ 1024) :
    Returns (gate.passPdfs signedAt tenantId request) ↔
      ¬ FirstUnfit gate.backends tenantId 1 (mediaParts request.content) ∧
        (AllInlinable gate.backends tenantId 1 (mediaParts request.content) →
          (joinText request.content).length ≤ 200000) := by
  rw [passPdfs]
  cases inlineResult_normalizeVisionContent hB tenantId request.content 1 with
  | inlined hall h =>
      rw [h]
      simp only [returns_ready_iff hclock (by decide : GateAction.passthrough ≠ .blocked),
        valid_joinText_iff]
      exact ⟨fun hlen => ⟨fun hno => not_allInlinable_of_firstUnfit hno hall, fun _ => hlen⟩,
        fun hlen => hlen.2 hall⟩
  | refused hall hunfit hshow h =>
      rw [h]
      exact ⟨fun _ => ⟨hunfit, fun hno => absurd hno hall⟩, fun _ => returns_blocked hshow⟩
  | raised hunfit h =>
      rw [h]
      exact ⟨fun hno => absurd hno not_returns_error, fun hno => absurd hunfit hno.1⟩

theorem returns_convert_iff (hB : gate.backends.Declared) (hclock : |signedAt| < 2 ^ 1024) :
    Returns (gate.convert signedAt tenantId request) ↔ ∀ context,
      gate.extractContext request.content request.conversionProfile tenantId = .ok context →
        context.structuredContext.encodable = true := by
  have hcontained := contained_extractContext hB request.content request.conversionProfile tenantId
  rw [convert]
  cases h : gate.extractContext request.content request.conversionProfile tenantId with
  | error e =>
      have he := hcontained e h
      refine iff_of_true ?_ nofun
      cases e with
      | gateFailure code message => exact returns_blocked he
      | cleanupError => exact returns_blocked (by decide)
      | exception => exact returns_blocked (by decide)
      | baseException => exact he.elim
  | ok context =>
      obtain ⟨locators, hsafe, -⟩ := safe_of_extractContext h
      have hvalid : Constrained.Valid 200000 anyText context.structuredContext ↔
          context.structuredContext.encodable = true :=
        ⟨fun hvalid => hvalid.1, fun hgood => ⟨hgood, hsafe.length_le, rfl⟩⟩
      simp only [Except.ok.injEq, forall_eq']
      rw [← hvalid]
      constructor
      · intro hreturns
        by_contra hno
        rw [textPart_eq_none_iff.mpr hno] at hreturns
        exact not_returns_error hreturns
      · intro hgood
        rw [textPart, Constrained.validate_of_valid hgood]
        exact (returns_ready_iff hclock (by decide)).mpr hgood

theorem settled_blocked {code message : Str} {outcome : GateOutcome}
    (h : blocked request code message = .ok outcome) : Settled outcome := by
  obtain ⟨error, -, h⟩ := ok_of_bind h
  cases h
  exact .blocked rfl rfl rfl

theorem settled_ready {content : List ContentPart} {level : CapabilityState} {action : GateAction}
    (haction : action ≠ .blocked) {text : Str} {removed : Bool} {outcome : GateOutcome}
    (h : gate.ready signedAt request content level action text removed = .ok outcome) :
    Settled outcome := by
  obtain ⟨inputDigest, -, h⟩ := ok_of_bind h
  obtain ⟨outputDigest, -, h⟩ := ok_of_bind h
  obtain ⟨receipt, -, h⟩ := ok_of_bind h
  obtain ⟨sanitized, -, h⟩ := ok_of_bind h
  cases h
  exact .prepared rfl haction rfl

/-- Every outcome of the gate is a prepared one, or a blocked one with its error. -/
theorem settled_of_prepareForModel {now : Instant} {outcome : GateOutcome}
    (h : gate.prepareForModel now signedAt tenantId request = .ok outcome) : Settled outcome := by
  rw [prepareForModel_eq] at h
  cases hroute : gate.route now request with
  | refused code message =>
      rw [hroute] at h
      exact settled_blocked h
  | pdfs =>
      rw [hroute] at h
      simp only [passPdfs] at h
      split at h
      · exact settled_blocked h
      · cases h
      · exact settled_ready (by decide) h
  | conversion =>
      rw [hroute] at h
      simp only [convert] at h
      split at h
      · exact settled_blocked h
      · cases h
      · exact settled_blocked h
      · obtain ⟨text, -, h⟩ := ok_of_bind h
        exact settled_ready (by decide) h
  | textOnly level =>
      rw [hroute] at h
      exact settled_ready (by decide) h

theorem returns_iff_ok {now : Instant} :
    Returns (gate.prepareForModel now signedAt tenantId request) ↔
      ∃ outcome, gate.prepareForModel now signedAt tenantId request = .ok outcome :=
  ⟨fun ⟨outcome, h, _⟩ => ⟨outcome, h⟩,
    fun ⟨outcome, h⟩ => ⟨outcome, h, settled_of_prepareForModel h⟩⟩

/-- The gate ends without an exception exactly when nothing is left uncaught. -/
theorem prepareForModel_ok_iff (gate : PreRequestGate) (now : Instant) {signedAt : ℚ}
    (tenantId : Str) (request : PrepareForModelRequest) (hB : gate.backends.Declared)
    (hclock : |signedAt| < 2 ^ 1024) :
    (∃ outcome, gate.prepareForModel now signedAt tenantId request = .ok outcome) ↔
      ¬ Uncaught gate now tenantId request := by
  rw [← returns_iff_ok, prepareForModel_eq]
  cases hroute : gate.route now request with
  | refused code message =>
      refine iff_of_true (returns_blocked (showable_of_route hroute)) ?_
      rintro (⟨h, -⟩ | ⟨h, -, -⟩ | ⟨h, -⟩ | ⟨h, -, -, -, -, -⟩) <;> rw [hroute] at h <;> cases h
  | pdfs =>
      simp only [returns_passPdfs_iff hB hclock]
      constructor
      · rintro ⟨hfits, hlength⟩ (⟨h, -⟩ | ⟨-, hall, hlong⟩ | ⟨-, hunfit⟩ |
          ⟨h, -, -, -, -, -⟩)
        · rw [hroute] at h
          cases h
        · exact absurd (hlength hall) (not_le.mpr hlong)
        · exact hfits hunfit
        · rw [hroute] at h
          cases h
      · intro h
        exact ⟨fun hunfit => h (.unfitPdf hroute hunfit),
          fun hall => not_lt.mp fun hlong => h (.longPdfText hroute hall hlong)⟩
  | conversion =>
      simp only [returns_convert_iff hB hclock]
      constructor
      · rintro hgood (⟨h, -⟩ | ⟨h, -, -⟩ | ⟨h, -⟩ |
          ⟨-, hgathered, hocr, hdescribed, htext, hbad⟩)
        · rw [hroute] at h
          cases h
        · rw [hroute] at h
          cases h
        · rw [hroute] at h
          cases h
        · rw [hgood ⟨_, _, _, _⟩ (extractContext_eq_ok_iff.mpr
            ⟨_, mediaCount_of_conversion hroute, hgathered, hocr, hdescribed, htext, rfl⟩)] at hbad
          cases hbad
      · intro h context hcontext
        by_contra hbad
        obtain ⟨gathered, hconverts⟩ := extractContext_eq_ok_iff.mp hcontext
        exact h (.surrogate hroute hconverts.answers hconverts.recognized hconverts.described
          hconverts.structured (Bool.eq_false_iff.mpr hbad))
  | textOnly level =>
      simp only [returns_ready_iff hclock (by decide : GateAction.passthrough ≠ .blocked),
        valid_joinText_iff]
      constructor
      · rintro hlength (⟨-, hlong⟩ | ⟨h, -, -⟩ | ⟨h, -⟩ | ⟨h, -, -, -, -, -⟩)
        · exact absurd hlength (not_le.mpr hlong)
        · rw [hroute] at h
          cases h
        · rw [hroute] at h
          cases h
        · rw [hroute] at h
          cases h
      · exact fun h => not_lt.mp fun hlong => h (.longText hroute hlong)

/-- The gate returns an outcome exactly when nothing is left uncaught. -/
theorem prepareForModel_returns_iff (gate : PreRequestGate) (now : Instant) {signedAt : ℚ}
    (tenantId : Str) (request : PrepareForModelRequest) (hB : gate.backends.Declared)
    (hclock : |signedAt| < 2 ^ 1024) :
    Returns (gate.prepareForModel now signedAt tenantId request) ↔
      ¬ Uncaught gate now tenantId request :=
  returns_iff_ok.trans (prepareForModel_ok_iff gate now tenantId request hB hclock)

section Sample

theorem declared_sampleBackends : sampleBackends.Declared :=
  ⟨fun _ _ _ => .ok _, fun _ => .ok _, fun _ _ _ _ => .ok _, fun _ => .ok _, fun _ _ => .ok _,
    fun _ _ _ _ _ => .ok _, fun _ _ _ _ _ => .ok _⟩

/-- A text of one letter, repeated. -/
def sampleText (n : Nat) (h : n ≤ 200000) : TextPart where
  text :=
    { value := List.replicate n (cp 97)
      encodable := Str.encodable_iff.mpr fun c hc => by
        rw [List.eq_of_mem_replicate hc]
        decide
      length_le := by rwa [List.length_replicate]
      accepted := rfl }

/-- Two such texts for a model that takes texts. -/
def sampleTexts (n : Nat) (h : n ≤ 200000) : PrepareForModelRequest where
  content := [.text (sampleText n h), .text (sampleText n h)]
  target := sampleImageRequest.target
  content_nonempty := by simp
  content_length := by simp

theorem route_sampleTexts (n : Nat) (h : n ≤ 200000) :
    sampleGate.route 0 (sampleTexts n h) = .textOnly .nonVision := by
  rfl

/-- The joined texts hold every letter. -/
theorem le_length_joinText_sampleTexts (n : Nat) (h : n ≤ 200000) :
    2 * n ≤ (joinText (sampleTexts n h).content).length := by
  have hletter : Str.solid (List.replicate n (cp 97)) = List.replicate n (cp 97) := by
    rw [Str.solid, List.filter_replicate_of_pos (by decide)]
  calc
    2 * n = (Str.solid (List.replicate n (cp 97)) ++ Str.solid (lit "\n") ++
        Str.solid (List.replicate n (cp 97))).length := by
      rw [hletter, List.length_append, List.length_append, List.length_replicate]
      have hbreak : (Str.solid (lit "\n")).length = 0 := by decide
      omega
    _ = (Str.solid (joinText (sampleTexts n h).content)).length := by
      rw [joinText, Str.solid_strip, ← Str.solid_append, ← Str.solid_append]
      rfl
    _ ≤ (joinText (sampleTexts n h).content).length := List.length_filter_le _ _

/-- Two short texts. -/
theorem prepareForModel_returns_iff_texts :
    Returns (sampleGate.prepareForModel 0 0 [] (sampleTexts 3 (by decide))) := by
  refine (prepareForModel_returns_iff sampleGate 0 [] _ declared_sampleBackends (by simp)).mpr ?_
  rintro (⟨-, hlong⟩ | ⟨h, -, -⟩ | ⟨h, -⟩ | ⟨h, -, -, -, -, -⟩)
  · revert hlong
    decide
  · rw [route_sampleTexts] at h
    cases h
  · rw [route_sampleTexts] at h
    cases h
  · rw [route_sampleTexts] at h
    cases h

/-- Two texts that are within the limit one by one, and not together. -/
theorem long_texts_raise :
    ¬ ∀ (gate : PreRequestGate) (now : Instant) (signedAt : ℚ) (tenantId : Str)
      (request : PrepareForModelRequest), gate.backends.Declared → |signedAt| < 2 ^ 1024 →
        Returns (gate.prepareForModel now signedAt tenantId request) := by
  intro h
  have hclock : |(0 : ℚ)| < 2 ^ 1024 := by simp
  have hreturns := h sampleGate 0 0 [] (sampleTexts 150000 (by decide)) declared_sampleBackends
    hclock
  rw [prepareForModel_eq, route_sampleTexts] at hreturns
  have hvalid := (returns_ready_iff hclock (by decide)).mp hreturns
  have hlong := le_length_joinText_sampleTexts 150000 (by decide)
  have hshort := valid_joinText_iff.mp hvalid
  omega

end Sample

end PreRequestGate

end MediaBridge.Core
