import MediaBridge.Core.GateBoundary

/-!
# Extracting the context of media

`PreRequestGate.extract_context` of `media_bridge/gate.py`: what a context is made of, and which
workspaces are cleaned up on the way out.

## Implementation notes

`workspaceLog` follows the loop of `gather` and notes every workspace that is created and every
call of its cleanup. An exception that is no `Exception`, such as a cancellation at an `await`, is
`GateRaised.baseException`.
-/

namespace MediaBridge.Core

open Foundation

namespace Gate

variable (B : Backends)

/-- The text of an OCR result. -/
def recognised (result : OcrResult) : Str :=
  match result.text with
  | some (c :: text) => c :: text
  | _ => lit "No text detected."

/-- What a page says. -/
structure PageReading where
  page : RenderedPdfPage
  text : Str
  description : Str

namespace PageReading

/-- The labelled texts of a page. -/
def sections (mediaIndex : Nat) (isPdf : Bool) (reading : PageReading) : List Str :=
  let label := pageLabel mediaIndex isPdf reading.page
  (lit "[" ++ label ++ lit " OCR]\n" ++ reading.text) ::
    if reading.description.isEmpty then []
    else [lit "[" ++ label ++ lit " Vision]\n" ++ reading.description]

/-- All that a page contributes. -/
def mediaSections (mediaIndex : Nat) (isPdf : Bool) (reading : PageReading) : MediaSections :=
  ⟨[reading.text], if reading.description.isEmpty then [] else [reading.description],
    reading.sections mediaIndex isPdf⟩

end PageReading

section Pages

variable (mediaIndex : Nat) (isPdf : Bool) (profile : ConversionProfile)

/-- The page is in the workspace. -/
def PageWritten (pageIndex : Nat) (page : RenderedPdfPage) : Prop :=
  isPdf = true → B.writeBytes mediaIndex (pageIndex + 1)
    (lit "media-" ++ JsonText.natText mediaIndex ++ lit "-" ++ page.filename) page.data = .ok ()

/-- The OCR backend has recognised a text. -/
def PageRecognised (pageIndex : Nat) (page : RenderedPdfPage) (text : Str) : Prop :=
  ∃ result, B.ocr mediaIndex pageIndex page.data page.mimeType
      (if isPdf then some page.filename else none) = .ok result ∧
    result.status = .success ∧ text = recognised result

/-- The vision backend has given a description, where the profile asks for one. -/
def PageDescribed (pageIndex : Nat) (page : RenderedPdfPage) (description : Str) : Prop :=
  if profile = .generic then
    ∃ result, B.vision mediaIndex pageIndex page.data page.mimeType profile.value = .ok result ∧
      result.status ≠ .failure ∧ description = (result.description.getD []).strip
  else description = []

/-- A page, read by the backends. -/
structure PageRead (pageIndex : Nat) (reading : PageReading) : Prop where
  written : PageWritten B mediaIndex isPdf pageIndex reading.page
  recognised : PageRecognised B mediaIndex isPdf pageIndex reading.page reading.text
  described : PageDescribed B mediaIndex profile pageIndex reading.page reading.description

/-- The pages, read in their order. -/
inductive PagesRead : Nat → List RenderedPdfPage → List PageReading → Prop
  | nil (pageIndex : Nat) : PagesRead pageIndex [] []
  | cons {pageIndex : Nat} {reading : PageReading} {rest : List RenderedPdfPage}
      {readings : List PageReading} (first : PageRead B mediaIndex isPdf profile pageIndex reading)
      (others : PagesRead (pageIndex + 1) rest readings) :
      PagesRead pageIndex (reading.page :: rest) (reading :: readings)

/-- A backend is cancelled while a page is read. -/
inductive PageInterrupted (pageIndex : Nat) (page : RenderedPdfPage) : Prop
  | write (hpdf : isPdf = true) (hwrite : B.writeBytes mediaIndex (pageIndex + 1)
      (lit "media-" ++ JsonText.natText mediaIndex ++ lit "-" ++ page.filename) page.data =
        .error .baseException)
  | ocr (hwritten : PageWritten B mediaIndex isPdf pageIndex page)
      (hocr : B.ocr mediaIndex pageIndex page.data page.mimeType
        (if isPdf then some page.filename else none) = .error .baseException)
  | vision (hwritten : PageWritten B mediaIndex isPdf pageIndex page) {text : Str}
      (hrecognised : PageRecognised B mediaIndex isPdf pageIndex page text)
      (hprofile : profile = .generic)
      (hvision : B.vision mediaIndex pageIndex page.data page.mimeType profile.value =
        .error .baseException)

/-- A backend is cancelled while the pages are read. -/
inductive PagesInterrupted : Nat → List RenderedPdfPage → Prop
  | here {pageIndex : Nat} {page : RenderedPdfPage} (rest : List RenderedPdfPage)
      (h : PageInterrupted B mediaIndex isPdf profile pageIndex page) :
      PagesInterrupted pageIndex (page :: rest)
  | later {pageIndex : Nat} {reading : PageReading} {rest : List RenderedPdfPage}
      (first : PageRead B mediaIndex isPdf profile pageIndex reading)
      (h : PagesInterrupted (pageIndex + 1) rest) :
      PagesInterrupted pageIndex (reading.page :: rest)

end Pages

section Parts

variable (tenantId : Str) (profile : ConversionProfile)

/-- Whether an acquired item is a PDF. -/
def AcquiredMedia.isPdf (acquired : AcquiredMedia) : Bool := decide (acquired.mediaType = lit "pdf")

/-- The item is in the workspace. -/
def MediaWritten (mediaIndex : Nat) (acquired : AcquiredMedia) : Except GateRaised Unit :=
  B.writeBytes mediaIndex 0 (lit "media-" ++ JsonText.natText mediaIndex ++
    (if AcquiredMedia.isPdf acquired then lit ".pdf" else lit ".img")) acquired.data

/-- The pages of an item: of a PDF those of the renderer, of an image the image. -/
def MediaPages (mediaIndex : Nat) (acquired : AcquiredMedia) (pages : List RenderedPdfPage) :
    Prop :=
  if AcquiredMedia.isPdf acquired then
    B.render mediaIndex acquired.data = .ok pages ∧ pages ≠ []
  else pages = [imagePage acquired.data]

/-- A media part with the readings of its pages. -/
structure PartReading where
  mediaIndex : Nat
  acquired : AcquiredMedia
  readings : List PageReading

namespace PartReading

def isPdf (reading : PartReading) : Bool := AcquiredMedia.isPdf reading.acquired

/-- The labelled texts of a part. -/
def sections (reading : PartReading) : List Str :=
  reading.readings.flatMap (PageReading.sections reading.mediaIndex reading.isPdf)

end PartReading

/-- A part is acquired and has a workspace. -/
structure PartOpened (mediaIndex : Nat) (part : MediaPart) (acquired : AcquiredMedia) : Prop where
  acquire : B.acquire mediaIndex part tenantId = .ok acquired
  workspace : B.openWorkspace mediaIndex = .ok ()

/-- A part, read page by page, with its workspace cleaned up. -/
structure PartRead (mediaIndex : Nat) (part : MediaPart) (reading : PartReading) : Prop where
  index : reading.mediaIndex = mediaIndex
  opened : PartOpened B tenantId mediaIndex part reading.acquired
  written : MediaWritten B mediaIndex reading.acquired = .ok ()
  pages : ∃ pages, MediaPages B mediaIndex reading.acquired pages ∧
    PagesRead B mediaIndex reading.isPdf profile 0 pages reading.readings
  cleaned : B.cleanup mediaIndex = .ok ()

/-- The parts, read in their order. -/
inductive PartsRead : Nat → List MediaPart → List PartReading → Prop
  | nil (mediaIndex : Nat) : PartsRead mediaIndex [] []
  | cons {mediaIndex : Nat} {part : MediaPart} {rest : List MediaPart} {reading : PartReading}
      {readings : List PartReading} (first : PartRead B tenantId profile mediaIndex part reading)
      (others : PartsRead (mediaIndex + 1) rest readings) :
      PartsRead mediaIndex (part :: rest) (reading :: readings)

/-- A backend is cancelled while a part is worked on in its workspace. -/
inductive PartInterrupted (mediaIndex : Nat) (acquired : AcquiredMedia) : Prop
  | write (h : MediaWritten B mediaIndex acquired = .error .baseException)
  | render (hwritten : MediaWritten B mediaIndex acquired = .ok ())
      (hpdf : AcquiredMedia.isPdf acquired = true)
      (h : B.render mediaIndex acquired.data = .error .baseException)
  | pages (hwritten : MediaWritten B mediaIndex acquired = .ok ()) {pages : List RenderedPdfPage}
      (hpages : MediaPages B mediaIndex acquired pages)
      (h : PagesInterrupted B mediaIndex (AcquiredMedia.isPdf acquired) profile 0 pages)

/-- A backend is cancelled in the workspace of a part that is reached. -/
inductive Interrupted : Nat → List MediaPart → Prop
  | here {mediaIndex : Nat} {part : MediaPart} {acquired : AcquiredMedia} (rest : List MediaPart)
      (hopened : PartOpened B tenantId mediaIndex part acquired)
      (h : PartInterrupted B profile mediaIndex acquired) : Interrupted mediaIndex (part :: rest)
  | later {mediaIndex : Nat} {part : MediaPart} {reading : PartReading} {rest : List MediaPart}
      (first : PartRead B tenantId profile mediaIndex part reading)
      (h : Interrupted (mediaIndex + 1) rest) : Interrupted mediaIndex (part :: rest)

/-- What happens to a workspace. -/
inductive WorkspaceEvent
  | created (mediaIndex : Nat)
  | cleanup (mediaIndex : Nat)
deriving DecidableEq

/-- The workspaces of a run of the loop over the parts. -/
def workspaceLog : Nat → List MediaPart → List WorkspaceEvent
  | _, [] => []
  | mediaIndex, part :: rest =>
      match acquireMedia B mediaIndex part tenantId with
      | .error _ => []
      | .ok acquired =>
          match B.openWorkspace mediaIndex with
          | .error _ => []
          | .ok () =>
              match processingResult (processMedia B mediaIndex profile acquired) with
              | .error .baseException => [.created mediaIndex]
              | result =>
                  [.created mediaIndex, .cleanup mediaIndex] ++
                    match result, B.cleanup mediaIndex with
                    | .ok _, .ok () => workspaceLog (mediaIndex + 1) rest
                    | _, _ => []

end Parts

section PageSteps

variable {B} {mediaIndex pageIndex : Nat} {isPdf : Bool} {profile : ConversionProfile}
  {page : RenderedPdfPage}

theorem fail_ne_baseException {α : Type} (code message : String) :
    (fail code message : Except GateRaised α) ≠ .error .baseException := nofun

theorem guarded_eq_baseException_iff {α : Type} {code message : String}
    {x : Except GateRaised α} :
    guarded code message x = .error .baseException ↔ x = .error .baseException := by
  unfold guarded
  split
  · simp
  · simp
  · rename_i e hne
    exact ⟨fun h => absurd h (fail_ne_baseException _ _), fun h => absurd (Except.error.inj h) hne⟩

theorem pageText_eq_ok_iff {text : Str} :
    pageText B mediaIndex pageIndex isPdf page = .ok text ↔
      PageRecognised B mediaIndex isPdf pageIndex page text := by
  unfold pageText PageRecognised
  rw [bind_ok_iff]
  refine exists_congr fun result => and_congr_right fun _ => ?_
  cases hstatus : result.status with
  | failure => simp [fail]
  | noText => simp [fail]
  | success =>
      rw [if_neg (by decide), if_neg (by decide), recognised]
      cases result.text with
      | none => exact ⟨fun h => ⟨rfl, (Except.ok.inj h).symm⟩, fun h => h.2 ▸ rfl⟩
      | some text =>
          cases text with
          | nil => exact ⟨fun h => ⟨rfl, (Except.ok.inj h).symm⟩, fun h => h.2 ▸ rfl⟩
          | cons c text => exact ⟨fun h => ⟨rfl, (Except.ok.inj h).symm⟩, fun h => h.2 ▸ rfl⟩

theorem pageText_eq_baseException_iff :
    pageText B mediaIndex pageIndex isPdf page = .error .baseException ↔
      B.ocr mediaIndex pageIndex page.data page.mimeType
        (if isPdf then some page.filename else none) = .error .baseException := by
  unfold pageText
  rw [bind_error_iff]
  refine or_iff_left ?_
  rintro ⟨result, -, h⟩
  split at h
  · exact fail_ne_baseException _ _ h
  · split at h
    · exact fail_ne_baseException _ _ h
    · split at h <;> cases h

theorem pageDescription_eq_ok_iff {description : Str} :
    pageDescription B mediaIndex pageIndex profile page = .ok description ↔
      PageDescribed B mediaIndex profile pageIndex page description := by
  unfold pageDescription PageDescribed
  split
  · rw [bind_ok_iff]
    refine exists_congr fun result => and_congr_right fun _ => ?_
    split
    · rename_i hfailure
      simp [fail, hfailure]
    · rename_i hstatus
      exact ⟨fun h => ⟨hstatus, (Except.ok.inj h).symm⟩, fun h => h.2 ▸ rfl⟩
  · exact ⟨fun h => (Except.ok.inj h).symm, fun h => h ▸ rfl⟩

theorem pageDescription_eq_baseException_iff :
    pageDescription B mediaIndex pageIndex profile page = .error .baseException ↔
      profile = .generic ∧ B.vision mediaIndex pageIndex page.data page.mimeType profile.value =
        .error .baseException := by
  unfold pageDescription
  split
  · rename_i hprofile
    rw [bind_error_iff, and_iff_right hprofile]
    refine or_iff_left ?_
    rintro ⟨result, -, h⟩
    split at h
    · exact fail_ne_baseException _ _ h
    · cases h
  · rename_i hprofile
    exact ⟨nofun, fun h => absurd h.1 hprofile⟩

/-- A page after it has been written. -/
def readPage (B : Backends) (mediaIndex pageIndex : Nat) (isPdf : Bool)
    (profile : ConversionProfile) (page : RenderedPdfPage) : Except GateRaised MediaSections := do
  let text ← pageText B mediaIndex pageIndex isPdf page
  let description ← pageDescription B mediaIndex pageIndex profile page
  return PageReading.mediaSections mediaIndex isPdf ⟨page, text, description⟩

theorem pageSections_eq (B : Backends) (mediaIndex pageIndex : Nat) (isPdf : Bool)
    (profile : ConversionProfile) (page : RenderedPdfPage) :
    pageSections B mediaIndex pageIndex isPdf profile page =
      if isPdf then B.writeBytes mediaIndex (pageIndex + 1)
          (lit "media-" ++ JsonText.natText mediaIndex ++ lit "-" ++ page.filename) page.data >>=
        fun _ => readPage B mediaIndex pageIndex isPdf profile page
      else readPage B mediaIndex pageIndex isPdf profile page := by
  unfold pageSections readPage
  cases isPdf with
  | false =>
      refine bind_congr fun text => bind_congr fun description => ?_
      cases h : description.isEmpty <;> simp [PageReading.mediaSections, PageReading.sections, h]
  | true =>
      refine bind_congr fun _ => bind_congr fun text => bind_congr fun description => ?_
      cases h : description.isEmpty <;> simp [PageReading.mediaSections, PageReading.sections, h]

theorem readPage_eq_ok_iff {sections : MediaSections} :
    readPage B mediaIndex pageIndex isPdf profile page = .ok sections ↔
      ∃ text description, PageRecognised B mediaIndex isPdf pageIndex page text ∧
        PageDescribed B mediaIndex profile pageIndex page description ∧
        sections = PageReading.mediaSections mediaIndex isPdf ⟨page, text, description⟩ := by
  unfold readPage
  rw [bind_ok_iff]
  simp only [bind_ok_iff, pageText_eq_ok_iff, pageDescription_eq_ok_iff]
  constructor
  · rintro ⟨text, htext, description, hdescription, h⟩
    exact ⟨text, description, htext, hdescription, (Except.ok.inj h).symm⟩
  · rintro ⟨text, description, htext, hdescription, rfl⟩
    exact ⟨text, htext, description, hdescription, rfl⟩

/-- The work on a page succeeds exactly when the backends read it. -/
theorem pageSections_eq_ok_iff {sections : MediaSections} :
    pageSections B mediaIndex pageIndex isPdf profile page = .ok sections ↔
      ∃ reading, reading.page = page ∧ PageRead B mediaIndex isPdf profile pageIndex reading ∧
        sections = reading.mediaSections mediaIndex isPdf := by
  have hread : readPage B mediaIndex pageIndex isPdf profile page = .ok sections ∧
      PageWritten B mediaIndex isPdf pageIndex page ↔
      ∃ reading, reading.page = page ∧ PageRead B mediaIndex isPdf profile pageIndex reading ∧
        sections = reading.mediaSections mediaIndex isPdf := by
    rw [readPage_eq_ok_iff]
    constructor
    · rintro ⟨⟨text, description, htext, hdescription, rfl⟩, hwritten⟩
      exact ⟨⟨page, text, description⟩, rfl, ⟨hwritten, htext, hdescription⟩, rfl⟩
    · rintro ⟨reading, rfl, hread, rfl⟩
      exact ⟨⟨_, _, hread.recognised, hread.described, rfl⟩, hread.written⟩
  rw [pageSections_eq, ← hread]
  cases isPdf with
  | false => exact (and_iff_left nofun).symm
  | true =>
      rw [if_pos rfl, bind_ok_iff]
      constructor
      · rintro ⟨⟨⟩, hwrite, h⟩
        exact ⟨h, fun _ => hwrite⟩
      · rintro ⟨h, hwritten⟩
        exact ⟨(), hwritten rfl, h⟩

/-- The work on a page is cancelled exactly when a backend is. -/
theorem pageSections_eq_baseException_iff :
    pageSections B mediaIndex pageIndex isPdf profile page = .error .baseException ↔
      PageInterrupted B mediaIndex isPdf profile pageIndex page := by
  have hread : readPage B mediaIndex pageIndex isPdf profile page = .error .baseException ↔
      B.ocr mediaIndex pageIndex page.data page.mimeType
          (if isPdf then some page.filename else none) = .error .baseException ∨
        ∃ text, PageRecognised B mediaIndex isPdf pageIndex page text ∧ profile = .generic ∧
          B.vision mediaIndex pageIndex page.data page.mimeType profile.value =
            .error .baseException := by
    unfold readPage
    rw [bind_error_iff, pageText_eq_baseException_iff]
    refine or_congr_right (exists_congr fun text => ?_)
    rw [pageText_eq_ok_iff, bind_error_iff, pageDescription_eq_baseException_iff]
    refine and_congr_right fun _ => or_iff_left ?_
    rintro ⟨description, -, h⟩
    cases h
  have hwritten : PageWritten B mediaIndex isPdf pageIndex page →
      readPage B mediaIndex pageIndex isPdf profile page = .error .baseException →
      PageInterrupted B mediaIndex isPdf profile pageIndex page := by
    intro hwritten h
    obtain hocr | ⟨text, htext, hprofile, hvision⟩ := hread.mp h
    · exact .ocr hwritten hocr
    · exact .vision hwritten htext hprofile hvision
  rw [pageSections_eq]
  constructor
  · intro h
    cases isPdf with
    | false => exact hwritten nofun h
    | true =>
        rw [if_pos rfl, bind_error_iff] at h
        obtain hwrite | ⟨⟨⟩, hwrite, h⟩ := h
        · exact .write rfl hwrite
        · exact hwritten (fun _ => hwrite) h
  · intro h
    cases isPdf with
    | false =>
        cases h with
        | write hpdf => cases hpdf
        | ocr _ hocr => exact hread.mpr (.inl hocr)
        | vision _ htext hprofile hvision =>
            exact hread.mpr (.inr ⟨_, htext, hprofile, hvision⟩)
    | true =>
        rw [if_pos rfl, bind_error_iff]
        cases h with
        | write _ hwrite => exact .inl hwrite
        | ocr hwritten hocr => exact .inr ⟨(), hwritten rfl, hread.mpr (.inl hocr)⟩
        | vision hwritten htext hprofile hvision =>
            exact .inr ⟨(), hwritten rfl, hread.mpr (.inr ⟨_, htext, hprofile, hvision⟩)⟩

end PageSteps

section PartSteps

variable {B} {mediaIndex pageIndex : Nat} {isPdf : Bool} {profile : ConversionProfile}
  {acquired : AcquiredMedia} {sections : MediaSections}

/-- All that some pages contribute. -/
def pagesContribution (mediaIndex : Nat) (isPdf : Bool) (readings : List PageReading) :
    MediaSections :=
  readings.foldr (fun reading others => (reading.mediaSections mediaIndex isPdf).append others)
    .empty

theorem converted_pagesContribution (mediaIndex : Nat) (isPdf : Bool)
    (readings : List PageReading) :
    (pagesContribution mediaIndex isPdf readings).converted =
      readings.flatMap (PageReading.sections mediaIndex isPdf) := by
  induction readings with
  | nil => rfl
  | cons reading rest ih =>
      change PageReading.sections mediaIndex isPdf reading ++
        (pagesContribution mediaIndex isPdf rest).converted = _
      rw [ih, List.flatMap_cons]

theorem pagesSections_eq_ok_iff {pages : List RenderedPdfPage} :
    pagesSections B mediaIndex isPdf profile pageIndex pages = .ok sections ↔
      ∃ readings, PagesRead B mediaIndex isPdf profile pageIndex pages readings ∧
        sections = pagesContribution mediaIndex isPdf readings := by
  induction pages generalizing pageIndex sections with
  | nil =>
      constructor
      · intro h
        cases h
        exact ⟨[], .nil _, rfl⟩
      · rintro ⟨readings, hread, rfl⟩
        cases hread
        rfl
  | cons page rest ih =>
      rw [pagesSections, bind_ok_iff]
      constructor
      · rintro ⟨first, hfirst, h⟩
        obtain ⟨others, hothers, h⟩ := bind_ok_iff.mp h
        obtain ⟨reading, rfl, hread, rfl⟩ := pageSections_eq_ok_iff.mp hfirst
        obtain ⟨readings, hreadings, rfl⟩ := ih.mp hothers
        exact ⟨reading :: readings, .cons hread hreadings, (Except.ok.inj h).symm⟩
      · rintro ⟨readings, hreadings, rfl⟩
        cases hreadings with
        | cons hread hreadings =>
            exact ⟨_, pageSections_eq_ok_iff.mpr ⟨_, rfl, hread, rfl⟩,
              bind_ok_iff.mpr ⟨_, ih.mpr ⟨_, hreadings, rfl⟩, rfl⟩⟩

theorem pagesSections_eq_baseException_iff {pages : List RenderedPdfPage} :
    pagesSections B mediaIndex isPdf profile pageIndex pages = .error .baseException ↔
      PagesInterrupted B mediaIndex isPdf profile pageIndex pages := by
  induction pages generalizing pageIndex with
  | nil => exact ⟨nofun, nofun⟩
  | cons page rest ih =>
      rw [pagesSections, bind_error_iff, pageSections_eq_baseException_iff]
      constructor
      · rintro (h | ⟨first, hfirst, h⟩)
        · exact .here rest h
        · obtain ⟨reading, rfl, hread, -⟩ := pageSections_eq_ok_iff.mp hfirst
          obtain h | ⟨others, -, h⟩ := bind_error_iff.mp h
          · exact .later hread (ih.mp h)
          · cases h
      · intro h
        cases h with
        | here _ h => exact .inl h
        | later hread h =>
            exact .inr ⟨_, pageSections_eq_ok_iff.mpr ⟨_, rfl, hread, rfl⟩,
              bind_error_iff.mpr (.inl (ih.mpr h))⟩

theorem backendPages_eq_ok_iff {pages : List RenderedPdfPage} :
    backendPages B mediaIndex acquired.data acquired.mediaType = .ok pages ↔
      MediaPages B mediaIndex acquired pages := by
  unfold backendPages MediaPages AcquiredMedia.isPdf
  by_cases hpdf : acquired.mediaType = lit "pdf"
  · rw [if_neg (not_not.mpr hpdf), if_pos (decide_eq_true hpdf), bind_ok_iff]
    constructor
    · rintro ⟨rendered, hrender, h⟩
      rw [guarded_eq_ok] at hrender
      split at h
      · cases h
      · rename_i hempty
        cases h
        exact ⟨hrender, fun hnil => hempty (List.isEmpty_iff.mpr hnil)⟩
    · rintro ⟨hrender, hne⟩
      refine ⟨pages, guarded_eq_ok.mpr hrender, ?_⟩
      rw [if_neg (fun hempty => hne (List.isEmpty_iff.mp hempty))]
      rfl
  · rw [if_pos hpdf, if_neg (by simpa using hpdf)]
    exact ⟨fun h => (Except.ok.inj h).symm, fun h => h ▸ rfl⟩

theorem backendPages_eq_baseException_iff :
    backendPages B mediaIndex acquired.data acquired.mediaType = .error .baseException ↔
      AcquiredMedia.isPdf acquired = true ∧
        B.render mediaIndex acquired.data = .error .baseException := by
  unfold backendPages AcquiredMedia.isPdf
  by_cases hpdf : acquired.mediaType = lit "pdf"
  · rw [if_neg (not_not.mpr hpdf), bind_error_iff, guarded_eq_baseException_iff,
      and_iff_right (decide_eq_true hpdf)]
    refine or_iff_left ?_
    rintro ⟨rendered, -, h⟩
    split at h
    · exact fail_ne_baseException _ _ h
    · cases h
  · rw [if_pos hpdf]
    exact ⟨nofun, fun h => absurd (of_decide_eq_true h.1) hpdf⟩

theorem processMedia_eq_ok_iff :
    processMedia B mediaIndex profile acquired = .ok sections ↔
      MediaWritten B mediaIndex acquired = .ok () ∧ ∃ pages readings,
        MediaPages B mediaIndex acquired pages ∧
        PagesRead B mediaIndex (AcquiredMedia.isPdf acquired) profile 0 pages readings ∧
        sections = pagesContribution mediaIndex (AcquiredMedia.isPdf acquired) readings := by
  unfold processMedia
  rw [bind_ok_iff]
  constructor
  · rintro ⟨⟨⟩, hwritten, h⟩
    obtain ⟨pages, hpages, h⟩ := bind_ok_iff.mp h
    obtain ⟨readings, hreadings, rfl⟩ := pagesSections_eq_ok_iff.mp h
    exact ⟨hwritten, pages, readings, backendPages_eq_ok_iff.mp hpages, hreadings, rfl⟩
  · rintro ⟨hwritten, pages, readings, hpages, hreadings, rfl⟩
    exact ⟨(), hwritten, bind_ok_iff.mpr ⟨pages, backendPages_eq_ok_iff.mpr hpages,
      pagesSections_eq_ok_iff.mpr ⟨readings, hreadings, rfl⟩⟩⟩

theorem processMedia_eq_baseException_iff :
    processMedia B mediaIndex profile acquired = .error .baseException ↔
      PartInterrupted B profile mediaIndex acquired := by
  unfold processMedia
  rw [bind_error_iff]
  constructor
  · rintro (hwrite | ⟨⟨⟩, hwritten, h⟩)
    · exact .write hwrite
    · obtain hrender | ⟨pages, hpages, h⟩ := bind_error_iff.mp h
      · obtain ⟨hpdf, hrender⟩ := backendPages_eq_baseException_iff.mp hrender
        exact .render hwritten hpdf hrender
      · exact .pages hwritten (backendPages_eq_ok_iff.mp hpages)
          (pagesSections_eq_baseException_iff.mp h)
  · intro h
    cases h with
    | write hwrite => exact .inl hwrite
    | render hwritten hpdf hrender =>
        exact .inr ⟨(), hwritten, bind_error_iff.mpr
          (.inl (backendPages_eq_baseException_iff.mpr ⟨hpdf, hrender⟩))⟩
    | pages hwritten hpages h =>
        exact .inr ⟨(), hwritten, bind_error_iff.mpr
          (.inr ⟨_, backendPages_eq_ok_iff.mpr hpages,
            pagesSections_eq_baseException_iff.mpr h⟩)⟩

theorem processingResult_eq_ok_iff {processed : Except GateRaised MediaSections} :
    processingResult processed = .ok sections ↔ processed = .ok sections := by
  unfold processingResult
  split
  · exact ⟨nofun, nofun⟩
  · exact ⟨nofun, nofun⟩
  · exact Iff.rfl

theorem processingResult_eq_baseException_iff {processed : Except GateRaised MediaSections} :
    processingResult processed = .error .baseException ↔ processed = .error .baseException := by
  unfold processingResult
  split
  · exact ⟨nofun, nofun⟩
  · exact ⟨nofun, nofun⟩
  · exact Iff.rfl

/-- Success needs a cleanup that has worked. -/
theorem cleanedUp_eq_ok_iff {processed : Except GateRaised MediaSections} :
    cleanedUp B mediaIndex processed = .ok sections ↔
      processed = .ok sections ∧ B.cleanup mediaIndex = .ok () := by
  unfold cleanedUp
  split
  · rename_i hbase
    rw [processingResult_eq_baseException_iff] at hbase
    rw [hbase]
    exact ⟨nofun, nofun⟩
  · split
    · rename_i hcleanup
      rw [hcleanup]
      exact ⟨nofun, nofun⟩
    · rename_i hcleanup
      rw [hcleanup]
      exact ⟨nofun, nofun⟩
    · rename_i hcleanup
      rw [processingResult_eq_ok_iff]
      exact (and_iff_left hcleanup).symm

end PartSteps

section Runs

variable {B} {tenantId : Str} {profile : ConversionProfile} {mediaIndex : Nat}
  {parts : List MediaPart}

/-- What one turn of the loop over the parts needs. -/
theorem exists_turn_iff {part : MediaPart} {acquired : AcquiredMedia} {sections : MediaSections} :
    (acquireMedia B mediaIndex part tenantId = .ok acquired ∧
      guarded "workspace_failed" "Temporary media workspace could not be created."
        (B.openWorkspace mediaIndex) = .ok () ∧
      cleanedUp B mediaIndex (processMedia B mediaIndex profile acquired) = .ok sections) ↔
      ∃ reading, PartRead B tenantId profile mediaIndex part reading ∧
        reading.acquired = acquired ∧
        sections = pagesContribution mediaIndex reading.isPdf reading.readings := by
  rw [acquireMedia_eq_ok, guarded_eq_ok, cleanedUp_eq_ok_iff, processMedia_eq_ok_iff]
  constructor
  · rintro ⟨hacquire, hopen, ⟨hwritten, pages, readings, hpages, hreadings, rfl⟩, hcleanup⟩
    exact ⟨⟨mediaIndex, acquired, readings⟩, ⟨rfl, ⟨hacquire, hopen⟩, hwritten,
      ⟨pages, hpages, hreadings⟩, hcleanup⟩, rfl, rfl⟩
  · rintro ⟨reading, hread, rfl, rfl⟩
    obtain ⟨pages, hpages, hreadings⟩ := hread.pages
    exact ⟨hread.opened.acquire, hread.opened.workspace,
      ⟨hread.written, pages, reading.readings, hpages, hreadings, rfl⟩, hread.cleaned⟩

/-- The loop over the parts gathers the sections and the locators of all of them, in order. -/
theorem exists_readings_of_gather {gathered : Gathered} :
    gather B tenantId profile mediaIndex parts = .ok gathered →
      ∃ readings, PartsRead B tenantId profile mediaIndex parts readings ∧
        gathered.sections.converted = readings.flatMap PartReading.sections ∧
        gathered.locators = readings.flatMap fun reading =>
          AcquiredMedia.forbidden reading.acquired := by
  induction parts generalizing mediaIndex gathered with
  | nil =>
      intro h
      cases h
      exact ⟨[], .nil _, rfl, rfl⟩
  | cons part rest ih =>
      intro h
      obtain ⟨acquired, hacquired, h⟩ := bind_ok_iff.mp h
      obtain ⟨⟨⟩, hopened, h⟩ := bind_ok_iff.mp h
      obtain ⟨sections, hsections, h⟩ := bind_ok_iff.mp h
      obtain ⟨others, hothers, h⟩ := bind_ok_iff.mp h
      obtain ⟨reading, hread, rfl, rfl⟩ := exists_turn_iff.mp ⟨hacquired, hopened, hsections⟩
      obtain ⟨readings, hreadings, hconverted, hlocators⟩ := ih hothers
      cases h
      refine ⟨reading :: readings, .cons hread hreadings, ?_, ?_⟩
      · change (pagesContribution mediaIndex reading.isPdf reading.readings).converted ++
          others.sections.converted = _
        rw [converted_pagesContribution, hconverted, List.flatMap_cons, PartReading.sections,
          hread.index]
      · change AcquiredMedia.forbidden reading.acquired ++ others.locators = _
        rw [hlocators, List.flatMap_cons]

/-- A turn of the log, after the workspace has been created. -/
theorem workspaceLog_cons {part : MediaPart} {acquired : AcquiredMedia}
    (hopened : PartOpened B tenantId mediaIndex part acquired) :
    (PartInterrupted B profile mediaIndex acquired →
      workspaceLog B tenantId profile mediaIndex (part :: parts) = [.created mediaIndex]) ∧
    (¬ PartInterrupted B profile mediaIndex acquired →
      workspaceLog B tenantId profile mediaIndex (part :: parts) =
          [.created mediaIndex, .cleanup mediaIndex] ∨
        (∃ reading, PartRead B tenantId profile mediaIndex part reading) ∧
          workspaceLog B tenantId profile mediaIndex (part :: parts) =
            [.created mediaIndex, .cleanup mediaIndex] ++
              workspaceLog B tenantId profile (mediaIndex + 1) parts) := by
  have hacquire := acquireMedia_eq_ok.mpr hopened.acquire
  rw [workspaceLog, hacquire]
  simp only [hopened.workspace]
  constructor
  · intro hinterrupted
    rw [processingResult_eq_baseException_iff.mpr
      (processMedia_eq_baseException_iff.mpr hinterrupted)]
  · intro hnot
    split
    · rename_i hbase
      exact absurd (processMedia_eq_baseException_iff.mp
        (processingResult_eq_baseException_iff.mp hbase)) hnot
    · split
      · rename_i sections _ hresult hcleanup
        obtain ⟨reading, hread, -, -⟩ := exists_turn_iff.mp ⟨hacquire,
          guarded_eq_ok.mpr hopened.workspace, cleanedUp_eq_ok_iff.mpr
            ⟨processingResult_eq_ok_iff.mp hresult, hcleanup⟩⟩
        exact .inr ⟨⟨reading, hread⟩, rfl⟩
      · exact .inl (List.append_nil _)

/-- Without a workspace the log is empty. -/
theorem exists_of_mem_workspaceLog {part : MediaPart} {event : WorkspaceEvent}
    (h : event ∈ workspaceLog B tenantId profile mediaIndex (part :: parts)) :
    ∃ acquired, PartOpened B tenantId mediaIndex part acquired := by
  rw [workspaceLog] at h
  split at h
  · cases h
  · rename_i acquired hacquired
    split at h
    · cases h
    · rename_i hopened
      exact ⟨acquired, acquireMedia_eq_ok.mp hacquired, hopened⟩

/-- The index of a workspace. -/
def WorkspaceEvent.index : WorkspaceEvent → Nat
  | .created mediaIndex => mediaIndex
  | .cleanup mediaIndex => mediaIndex

theorem le_index_of_mem {event : WorkspaceEvent}
    (h : event ∈ workspaceLog B tenantId profile mediaIndex parts) : mediaIndex ≤ event.index := by
  induction parts generalizing mediaIndex with
  | nil => cases h
  | cons part rest ih =>
      obtain ⟨acquired, hopened⟩ := exists_of_mem_workspaceLog h
      obtain ⟨hbroken, hwhole⟩ :=
        @workspaceLog_cons B tenantId profile mediaIndex rest part acquired hopened
      have hhead : event ∈ [.created mediaIndex, .cleanup mediaIndex] →
          mediaIndex ≤ event.index := by
        simp only [List.mem_cons, List.not_mem_nil, or_false]
        rintro (rfl | rfl) <;> exact le_rfl
      by_cases hinterrupted : PartInterrupted B profile mediaIndex acquired
      · rw [hbroken hinterrupted] at h
        obtain rfl := List.mem_singleton.mp h
        exact le_rfl
      · obtain hlog | ⟨-, hlog⟩ := hwhole hinterrupted
        · rw [hlog] at h
          exact hhead h
        · rw [hlog, List.mem_append] at h
          obtain h | h := h
          · exact hhead h
          · exact (Nat.le_succ _).trans (ih h)

/-- Unless a backend is cancelled, every workspace is cleaned up. -/
theorem cleanup_mem_of_not_interrupted (h : ¬ Interrupted B tenantId profile mediaIndex parts)
    {i : Nat} (hcreated : .created i ∈ workspaceLog B tenantId profile mediaIndex parts) :
    .cleanup i ∈ workspaceLog B tenantId profile mediaIndex parts := by
  induction parts generalizing mediaIndex with
  | nil => cases hcreated
  | cons part rest ih =>
      obtain ⟨acquired, hopened⟩ := exists_of_mem_workspaceLog hcreated
      have hnot : ¬ PartInterrupted B profile mediaIndex acquired := fun hinterrupted =>
        h (.here rest hopened hinterrupted)
      have hhead : WorkspaceEvent.created i ∈ [.created mediaIndex, .cleanup mediaIndex] →
          WorkspaceEvent.cleanup i ∈
            [WorkspaceEvent.created mediaIndex, .cleanup mediaIndex] := by
        simp
      obtain hlog | ⟨⟨reading, hread⟩, hlog⟩ :=
        (@workspaceLog_cons B tenantId profile mediaIndex rest part acquired hopened).2 hnot
      · rw [hlog] at hcreated ⊢
        exact hhead hcreated
      · rw [hlog, List.mem_append] at hcreated ⊢
        exact hcreated.imp hhead (ih fun hlater => h (.later hread hlater))

/-- Where a backend is cancelled, the workspace of its part is left behind. -/
theorem exists_left_of_interrupted (h : Interrupted B tenantId profile mediaIndex parts) :
    ∃ i, .created i ∈ workspaceLog B tenantId profile mediaIndex parts ∧
      .cleanup i ∉ workspaceLog B tenantId profile mediaIndex parts := by
  induction parts generalizing mediaIndex with
  | nil => cases h
  | cons part rest ih =>
      cases h with
      | @here _ _ acquired _ hopened hinterrupted =>
          refine ⟨mediaIndex, ?_⟩
          rw [(@workspaceLog_cons B tenantId profile mediaIndex rest part acquired hopened).1
            hinterrupted]
          exact ⟨List.mem_singleton_self _, by simp⟩
      | @later _ _ reading _ hread hlater =>
          obtain ⟨i, hcreated, hleft⟩ := ih hlater
          have hindex : mediaIndex + 1 ≤ i := le_index_of_mem hcreated
          obtain ⟨pages, hpages, hreadings⟩ := hread.pages
          have hprocessed := processMedia_eq_ok_iff.mpr
            ⟨hread.written, pages, reading.readings, hpages, hreadings, rfl⟩
          have hlog : workspaceLog B tenantId profile mediaIndex (part :: rest) =
              [.created mediaIndex, .cleanup mediaIndex] ++
                workspaceLog B tenantId profile (mediaIndex + 1) rest := by
            rw [workspaceLog, acquireMedia_eq_ok.mpr hread.opened.acquire]
            simp only [hread.opened.workspace]
            rw [processingResult_eq_ok_iff.mpr hprocessed, hread.cleaned]
          refine ⟨i, ?_, ?_⟩
          · rw [hlog]
            exact List.mem_append_right _ hcreated
          · rw [hlog, List.mem_append, not_or]
            refine ⟨?_, hleft⟩
            simp only [List.mem_cons, List.not_mem_nil, or_false, reduceCtorEq, false_or,
              WorkspaceEvent.cleanup.injEq]
            omega

/-- After a run that has read everything, all cleanups have worked. -/
theorem cleanup_eq_ok_of_read {readings : List PartReading}
    (h : PartsRead B tenantId profile mediaIndex parts readings) {i : Nat}
    (hcreated : .created i ∈ workspaceLog B tenantId profile mediaIndex parts) :
    B.cleanup i = .ok () := by
  induction h with
  | nil mediaIndex => cases hcreated
  | @cons mediaIndex part rest reading readings first others ih =>
      obtain ⟨acquired, hopened⟩ := exists_of_mem_workspaceLog hcreated
      have hhead : WorkspaceEvent.created i ∈ [.created mediaIndex, .cleanup mediaIndex] →
          B.cleanup i = .ok () := by
        simp only [List.mem_cons, List.not_mem_nil, or_false, reduceCtorEq,
          WorkspaceEvent.created.injEq]
        rintro rfl
        exact first.cleaned
      obtain ⟨hbroken, hwhole⟩ :=
        @workspaceLog_cons B tenantId profile mediaIndex rest part acquired hopened
      by_cases hinterrupted : PartInterrupted B profile mediaIndex acquired
      · rw [hbroken hinterrupted] at hcreated
        exact hhead (List.mem_cons.mpr (.inl (List.mem_singleton.mp hcreated)))
      · obtain hlog | ⟨-, hlog⟩ := hwhole hinterrupted
        · rw [hlog] at hcreated
          exact hhead hcreated
        · rw [hlog, List.mem_append] at hcreated
          exact hcreated.elim hhead ih

end Runs

end Gate

namespace PreRequestGate

open Gate

variable (gate : PreRequestGate) (content : List ContentPart) (profile : ConversionProfile)
  (tenantId : Str)

/-- The workspaces of a call of `extract_context`. -/
def extractionLog : List WorkspaceEvent :=
  if (detectMedia content).mediaCount = 0 then []
  else workspaceLog gate.backends tenantId profile 1 (mediaParts content)

/-- The media of the request, read in their order. -/
def MediaRead (readings : List PartReading) : Prop :=
  PartsRead gate.backends tenantId profile 1 (mediaParts content) readings

/-- The text of the request and the labelled texts of its media. -/
def contextSections (readings : List PartReading) : List Str :=
  (if (joinText content).isEmpty then [] else [joinText content]) ++
    readings.flatMap PartReading.sections

/-- The locators that must not appear in a context. -/
def readingLocators (readings : List PartReading) : List Str :=
  readings.flatMap fun reading => AcquiredMedia.forbidden reading.acquired

/-- A context is complete and in order, a failure gives none, and all workspaces are cleaned up. -/
structure CleanExtraction : Prop where
  complete : ∀ context, gate.extractContext content profile tenantId = .ok context →
    ∃ readings, gate.MediaRead content profile tenantId readings ∧
      sanitizeModelText gate.unicode gate.setOrder
        (Str.join (lit "\n\n") (contextSections content readings)) (readingLocators readings)
        200000 = .ok context.structuredContext
  failing : (¬ ∃ readings, gate.MediaRead content profile tenantId readings) →
    ∃ e, gate.extractContext content profile tenantId = .error e
  cleaned : ∀ i, .created i ∈ gate.extractionLog content profile tenantId →
    .cleanup i ∈ gate.extractionLog content profile tenantId
  verified : ∀ context, gate.extractContext content profile tenantId = .ok context →
    ∀ i, .created i ∈ gate.extractionLog content profile tenantId →
      gate.backends.cleanup i = .ok ()

variable {gate content profile tenantId}

theorem complete_of_extractContext {context : ConvertedContext}
    (h : gate.extractContext content profile tenantId = .ok context) :
    ∃ readings, gate.MediaRead content profile tenantId readings ∧
      sanitizeModelText gate.unicode gate.setOrder
        (Str.join (lit "\n\n") (contextSections content readings)) (readingLocators readings)
        200000 = .ok context.structuredContext := by
  obtain ⟨gathered, hconverts⟩ := extractContext_eq_ok_iff.mp h
  obtain ⟨readings, hreadings, hconverted, hlocators⟩ :=
    exists_readings_of_gather hconverts.answers
  have hstructured := hconverts.structured
  rw [convertedTexts, hconverted, hlocators] at hstructured
  exact ⟨readings, hreadings, hstructured⟩

/-- The extraction is complete and clean exactly where no backend is cancelled while a workspace
is in use. -/
theorem cleanExtraction_iff :
    gate.CleanExtraction content profile tenantId ↔
      ¬ Interrupted gate.backends tenantId profile 1 (mediaParts content) := by
  have hlog : mediaParts content ≠ [] → gate.extractionLog content profile tenantId =
      workspaceLog gate.backends tenantId profile 1 (mediaParts content) := fun hne =>
    if_neg fun hzero => hne (List.eq_nil_of_length_eq_zero hzero)
  by_cases hempty : mediaParts content = []
  · have hnothing : gate.extractionLog content profile tenantId = [] := by
      refine if_pos ?_
      change (mediaParts content).length = 0
      rw [hempty]
      rfl
    refine iff_of_true ⟨fun _ h => complete_of_extractContext h, fun hnone => ?_, ?_, ?_⟩ ?_
    · refine absurd ⟨[], ?_⟩ hnone
      rw [MediaRead, hempty]
      exact .nil 1
    · rw [hnothing]
      exact nofun
    · rw [hnothing]
      exact nofun
    · rw [hempty]
      exact nofun
  · constructor
    · intro h hinterrupted
      obtain ⟨i, hcreated, hleft⟩ := exists_left_of_interrupted hinterrupted
      rw [← hlog hempty] at hcreated hleft
      exact hleft (h.cleaned i hcreated)
    · intro hnot
      refine ⟨fun _ h => complete_of_extractContext h, fun hnone => ?_, ?_, ?_⟩
      · cases hextract : gate.extractContext content profile tenantId with
        | error e => exact ⟨e, rfl⟩
        | ok context =>
            obtain ⟨readings, hreadings, -⟩ := complete_of_extractContext hextract
            exact absurd ⟨readings, hreadings⟩ hnone
      · rw [hlog hempty]
        exact fun i => cleanup_mem_of_not_interrupted hnot
      · intro context hextract
        obtain ⟨readings, hreadings, -⟩ := complete_of_extractContext hextract
        rw [hlog hempty]
        exact fun i => cleanup_eq_ok_of_read hreadings

/-- A gate whose OCR backend is cancelled. -/
def cancelledGate : PreRequestGate where
  unicode := sampleGate.unicode
  platform := sampleGate.platform
  setOrder := sampleGate.setOrder
  registry := sampleGate.registry
  backends := { sampleBackends with ocr := fun _ _ _ _ _ => .error .baseException }
  signer := sampleGate.signer

/-- A call that is cancelled while it waits for the OCR backend leaves its workspace behind. -/
theorem workspace_left_by_cancellation :
    cancelledGate.extractionLog samplePdfRequest.content .generic (lit "tenant") = [.created 1] ∧
      ¬ cancelledGate.CleanExtraction samplePdfRequest.content .generic (lit "tenant") := by
  have hlog : cancelledGate.extractionLog samplePdfRequest.content .generic (lit "tenant") =
      [.created 1] := by decide +kernel
  refine ⟨hlog, fun h => ?_⟩
  have hcleaned := h.cleaned 1
  rw [hlog] at hcleaned
  exact absurd (hcleaned List.mem_cons_self) (by decide)

end PreRequestGate

end MediaBridge.Core
