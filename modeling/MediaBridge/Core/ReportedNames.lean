import MediaBridge.Core.GateBoundary
import MediaBridge.Core.SanitizerLaws
import MediaBridge.Foundation.JsonCharacters

/-!
# Reported names in a converted text

`sanitize_model_text` removes the normal form of every reported name. A name that is not in that
form can still be read in what the gate sends on if the removal of control characters puts it
together after the text was normalized.

## Implementation notes

The texts of a conversion are those of the request and what the recognition backends answer for
its pages, under labels that the gate writes. If each of them stays normal without its control
characters, so does the whole text, since a line feed composes with nothing.
-/

namespace MediaBridge.Core

open Foundation

namespace Sanitizer

variable {U : UnicodeData} {s t : Str}

/-- What the standard also says about a line feed: it is kept, and nothing composes over it. -/
structure LineNfkc (U : UnicodeData) : Prop extends StandardNfkc U where
  lines : ∀ s t, U.nfkc (s ++ lit "\n" ++ t) = U.nfkc s ++ lit "\n" ++ U.nfkc t

theorem staysNormal_nil (hU : StandardNfkc U) : StaysNormal U [] := by
  have hnil : U.nfkc [] = [] := hU.piece _ _ List.nil_infix (hU.idempotent [])
  unfold StaysNormal cleaned
  rw [hnil]
  exact hnil

theorem staysNormal_lines (hU : LineNfkc U) (hs : StaysNormal U s) (ht : StaysNormal U t) :
    StaysNormal U (s ++ lit "\n" ++ t) := by
  have hcleaned : cleaned U (s ++ lit "\n" ++ t) = cleaned U s ++ lit "\n" ++ cleaned U t := by
    unfold cleaned
    rw [hU.lines, List.filter_append, List.filter_append]
    rfl
  unfold StaysNormal
  rw [hcleaned, hU.lines, hs, ht]

/-- Joined paragraphs stay normal if each of them does. -/
theorem staysNormal_join (hU : LineNfkc U) {sections : List Str}
    (h : ∀ s ∈ sections, StaysNormal U s) :
    StaysNormal U (Str.join (lit "\n\n") sections) := by
  induction sections with
  | nil => exact staysNormal_nil hU.toStandardNfkc
  | cons s rest ih =>
      cases rest with
      | nil => exact h s List.mem_cons_self
      | cons t rest =>
          have hrest := ih fun u hu => h u (List.mem_cons_of_mem s hu)
          have hblank := staysNormal_lines hU (staysNormal_nil hU.toStandardNfkc) hrest
          have hjoined := staysNormal_lines hU (h s List.mem_cons_self) hblank
          have heq : Str.join (lit "\n\n") (s :: t :: rest) =
              s ++ lit "\n" ++ ([] ++ lit "\n" ++ Str.join (lit "\n\n") (t :: rest)) := by
            rw [Str.join, List.append_assoc, List.append_assoc]
            rfl
          rw [heq]
          exact hjoined

/-- An ASCII text in brackets stays normal. -/
theorem staysNormal_bracketed (hU : StandardNfkc U) {m : Str}
    (hm : ∀ c ∈ m, c.isAscii = true) : StaysNormal U (lit "[" ++ m ++ lit "]") := by
  have hnil : U.nfkc [] = [] := hU.piece _ _ List.nil_infix (hU.idempotent [])
  have hnormal {m : Str} (hm : ∀ c ∈ m, c.isAscii = true) :
      U.nfkc (lit "[" ++ m ++ lit "]") = lit "[" ++ m ++ lit "]" := by
    simpa using hU.bracketed m [] [] hm hnil hnil
  have hcleaned : cleaned U (lit "[" ++ m ++ lit "]") =
      lit "[" ++ (m.filter fun c => !isControl c) ++ lit "]" := by
    unfold cleaned
    rw [hnormal hm, List.filter_append, List.filter_append]
    rfl
  unfold StaysNormal
  rw [hcleaned]
  exact hnormal fun c hc => hm c (List.mem_of_mem_filter hc)

/-- An ASCII text without control characters stays normal. -/
theorem staysNormal_printable (hU : StandardNfkc U) {m : Str}
    (hm : ∀ c ∈ m, JsonText.IsPrintable c) : StaysNormal U m := by
  have hnil : U.nfkc [] = [] := hU.piece _ _ List.nil_infix (hU.idempotent [])
  have hascii (c : CodePoint) (hc : c ∈ m) : c.isAscii = true := by
    have := (hm c hc).2
    simp only [CodePoint.isAscii, decide_eq_true_eq]
    omega
  have hnormal : U.nfkc m = m := by
    apply hU.piece _ m _ (by simpa using hU.bracketed m [] [] hascii hnil hnil)
    exact ⟨lit "[", lit "]", rfl⟩
  have hcleaned : cleaned U m = m := by
    unfold cleaned
    rw [hnormal, List.filter_eq_self]
    intro c hc
    obtain ⟨hlow, hhigh⟩ := hm c hc
    simp only [isControl, Bool.not_eq_true', Bool.or_eq_false_iff, Bool.and_eq_false_iff,
      decide_eq_false_iff_not, beq_eq_false_iff_ne]
    omega
  unfold StaysNormal
  rw [hcleaned, hnormal]

/-- A name that is not in normal form is not in the result if the text stays normal. -/
theorem not_infix_of_staysNormal {order : SetOrder} {text sanitized name : Str}
    {locators : List Str} {maxLength : Nat} (hU : StandardNfkc U) (hnormal : StaysNormal U text)
    (h : sanitizeModelText U order text locators maxLength = .ok sanitized)
    (hname : U.nfkc name ≠ name) : ¬ name <:+: sanitized := by
  intro hin
  have hfixed : U.nfkc sanitized = sanitized := by
    rw [← (sanitizeModelText_eq_ok_iff.mp h).1]
    exact nfkc_scrub hU hnormal
  exact hname (hU.piece _ _ hin hfixed)

end Sanitizer

namespace Gate

open Sanitizer

variable {B : Backends} {U : UnicodeData} {tenantId : Str} {profile : ConversionProfile}

/-- What the recognition backends answer for a page. -/
inductive PageAnswer (B : Backends) (profile : ConversionProfile) (mediaIndex pageIndex : Nat)
    (isPdf : Bool) (page : RenderedPdfPage) : Str → Prop
  | text {result text} :
      B.ocr mediaIndex pageIndex page.data page.mimeType
        (if isPdf then some page.filename else none) = .ok result →
      result.text = some text → PageAnswer B profile mediaIndex pageIndex isPdf page text
  | description {result description} : profile = .generic →
      B.vision mediaIndex pageIndex page.data page.mimeType profile.value = .ok result →
      result.description = some description →
      PageAnswer B profile mediaIndex pageIndex isPdf page description.strip

/-- A text that was recognised on a page of one of the media items. The index counts them. -/
def Recognized (B : Backends) (tenantId : Str) (profile : ConversionProfile) (mediaIndex : Nat)
    (parts : List MediaPart) (text : Str) : Prop :=
  ∃ i part acquired pages j page, parts[i]? = some part ∧
    B.acquire (mediaIndex + i) part tenantId = .ok acquired ∧
    backendPages B (mediaIndex + i) acquired.data acquired.mediaType = .ok pages ∧
    pages[j]? = some page ∧
    PageAnswer B profile (mediaIndex + i) j (decide (acquired.mediaType = lit "pdf")) page text

theorem isPrintable_pageLabel (mediaIndex : Nat) (isPdf : Bool) (page : RenderedPdfPage) :
    ∀ c ∈ pageLabel mediaIndex isPdf page, JsonText.IsPrintable c := by
  have hmedia : (lit "Media ").all (fun c => decide (JsonText.IsPrintable c)) = true := by decide
  have hpage : (lit " page ").all (fun c => decide (JsonText.IsPrintable c)) = true := by decide
  have hlit {s : Str} (hs : s.all (fun c => decide (JsonText.IsPrintable c)) = true)
      (c : CodePoint) (hc : c ∈ s) : JsonText.IsPrintable c := by
    simpa using List.all_eq_true.mp hs c hc
  have hindex (c : CodePoint) (hc : c ∈ JsonText.natText mediaIndex) :
      JsonText.IsPrintable c :=
    JsonText.isPrintable_of_isDigit (JsonText.natText_isDigit _ c hc)
  intro c hc
  unfold pageLabel at hc
  split at hc
  · simp only [List.mem_append] at hc
    rcases hc with ((hc | hc) | hc) | hc
    · exact hlit hmedia c hc
    · exact hindex c hc
    · exact hlit hpage c hc
    · exact JsonText.isPrintable_intText hc
  · rcases List.mem_append.mp hc with hc | hc
    · exact hlit hmedia c hc
    · exact hindex c hc

/-- A recognised text stays normal under the label that the gate writes. -/
theorem staysNormal_labelled (hU : LineNfkc U) {mediaIndex : Nat} {isPdf : Bool}
    {page : RenderedPdfPage} {text : Str} (kind : Str) (hkind : kind.all CodePoint.isAscii = true)
    (htext : StaysNormal U text) :
    StaysNormal U (lit "[" ++ pageLabel mediaIndex isPdf page ++ (kind ++ lit "]\n") ++ text) := by
  have hlabel (c : CodePoint) (hc : c ∈ pageLabel mediaIndex isPdf page ++ kind) :
      c.isAscii = true := by
    rcases List.mem_append.mp hc with hc | hc
    · have := (isPrintable_pageLabel mediaIndex isPdf page c hc).2
      simp only [CodePoint.isAscii, decide_eq_true_eq]
      omega
    · exact List.all_eq_true.mp hkind c hc
  have hlines := staysNormal_lines hU (staysNormal_bracketed hU.toStandardNfkc hlabel) htext
  have heq : lit "[" ++ pageLabel mediaIndex isPdf page ++ (kind ++ lit "]\n") ++ text =
      lit "[" ++ (pageLabel mediaIndex isPdf page ++ kind) ++ lit "]" ++ lit "\n" ++ text := by
    have hend : lit "]\n" = lit "]" ++ lit "\n" := rfl
    rw [hend]
    simp only [List.append_assoc]
  rw [heq]
  exact hlines

/-- What the gate writes for a page, from the two answers for it. -/
theorem converted_of_pageSections {mediaIndex pageIndex : Nat} {isPdf : Bool}
    {page : RenderedPdfPage} {sections : MediaSections}
    (h : pageSections B mediaIndex pageIndex isPdf profile page = .ok sections) :
    ∃ text description, pageText B mediaIndex pageIndex isPdf page = .ok text ∧
      pageDescription B mediaIndex pageIndex profile page = .ok description ∧
      ∀ s ∈ sections.converted,
        s = lit "[" ++ pageLabel mediaIndex isPdf page ++ lit " OCR]\n" ++ text ∨
          s = lit "[" ++ pageLabel mediaIndex isPdf page ++ lit " Vision]\n" ++ description := by
  have hrest : (do
      let text ← pageText B mediaIndex pageIndex isPdf page
      let label := pageLabel mediaIndex isPdf page
      let converted := lit "[" ++ label ++ lit " OCR]\n" ++ text
      let description ← pageDescription B mediaIndex pageIndex profile page
      if description.isEmpty then return MediaSections.mk [text] [] [converted]
      else return ⟨[text], [description],
        [converted, lit "[" ++ label ++ lit " Vision]\n" ++ description]⟩) = .ok sections := by
    unfold pageSections at h
    split at h
    · exact (ok_of_bind h).choose_spec.2
    · exact h
  obtain ⟨text, htext, hrest⟩ := ok_of_bind hrest
  obtain ⟨description, hdescription, hrest⟩ := ok_of_bind hrest
  refine ⟨text, description, htext, hdescription, ?_⟩
  split at hrest
  · cases hrest
    exact List.forall_mem_singleton.mpr (.inl rfl)
  · cases hrest
    exact List.forall_mem_cons.mpr ⟨.inl rfl, List.forall_mem_singleton.mpr (.inr rfl)⟩

/-- What the gate writes for a page stays normal if the answers for it do. -/
theorem staysNormal_of_pageSections (hU : LineNfkc U) {mediaIndex pageIndex : Nat} {isPdf : Bool}
    {page : RenderedPdfPage} {sections : MediaSections}
    (h : pageSections B mediaIndex pageIndex isPdf profile page = .ok sections)
    (hanswers : ∀ text, PageAnswer B profile mediaIndex pageIndex isPdf page text →
      StaysNormal U text) : ∀ s ∈ sections.converted, StaysNormal U s := by
  obtain ⟨text, description, htext, hdescription, hsections⟩ := converted_of_pageSections h
  have hocr : StaysNormal U text := by
    obtain ⟨result, hresult, htext⟩ := ok_of_bind htext
    split at htext
    · cases htext
    split at htext
    · cases htext
    split at htext
    · rename_i c rest hsome
      cases htext
      exact hanswers _ (.text hresult hsome)
    · cases htext
      refine staysNormal_printable hU.toStandardNfkc fun c hc => ?_
      have hall : (lit "No text detected.").all
          (fun c => decide (JsonText.IsPrintable c)) = true := by decide
      simpa using List.all_eq_true.mp hall c hc
  have hvision : StaysNormal U description := by
    unfold pageDescription at hdescription
    split at hdescription
    · rename_i hgeneric
      obtain ⟨result, hresult, hdescription⟩ := ok_of_bind hdescription
      split at hdescription
      · cases hdescription
      · cases hdescription
        cases hsome : result.description with
        | none => exact staysNormal_nil hU.toStandardNfkc
        | some d => exact hanswers _ (.description hgeneric hresult hsome)
    · cases hdescription
      exact staysNormal_nil hU.toStandardNfkc
  intro s hs
  rcases hsections s hs with rfl | rfl
  · exact staysNormal_labelled hU (lit " OCR") (by decide) hocr
  · exact staysNormal_labelled hU (lit " Vision") (by decide) hvision

theorem staysNormal_of_pagesSections (hU : LineNfkc U) {mediaIndex pageIndex : Nat} {isPdf : Bool}
    {pages : List RenderedPdfPage} {sections : MediaSections}
    (h : pagesSections B mediaIndex isPdf profile pageIndex pages = .ok sections)
    (hanswers : ∀ j page text, pages[j]? = some page →
      PageAnswer B profile mediaIndex (pageIndex + j) isPdf page text → StaysNormal U text) :
    ∀ s ∈ sections.converted, StaysNormal U s := by
  induction pages generalizing pageIndex sections with
  | nil =>
      cases h
      exact fun s hs => absurd hs List.not_mem_nil
  | cons page rest ih =>
      obtain ⟨first, hfirst, h⟩ := ok_of_bind h
      obtain ⟨others, hothers, h⟩ := ok_of_bind h
      cases h
      refine List.forall_mem_append.mpr ⟨?_, ?_⟩
      · exact staysNormal_of_pageSections hU hfirst fun text => hanswers 0 page text rfl
      · refine ih hothers fun j page' text hpage htext => hanswers (j + 1) page' text hpage ?_
        rwa [Nat.add_right_comm] at htext

theorem processMedia_of_cleanedUp {mediaIndex : Nat} {processed : Except GateRaised MediaSections}
    {sections : MediaSections} (h : cleanedUp B mediaIndex processed = .ok sections) :
    processed = .ok sections := by
  unfold cleanedUp at h
  split at h
  · cases h
  · split at h
    · cases h
    · cases h
    · cases processed with
      | ok sections' => exact h
      | error e => cases e <;> cases h

/-- The texts of all media stay normal if every recognised text does. -/
theorem staysNormal_of_gather (hU : LineNfkc U) {mediaIndex : Nat} {parts : List MediaPart}
    {gathered : Gathered} (h : gather B tenantId profile mediaIndex parts = .ok gathered)
    (hrecognized : ∀ text, Recognized B tenantId profile mediaIndex parts text →
      StaysNormal U text) : ∀ s ∈ gathered.sections.converted, StaysNormal U s := by
  induction parts generalizing mediaIndex gathered with
  | nil =>
      cases h
      exact fun s hs => absurd hs List.not_mem_nil
  | cons part rest ih =>
      obtain ⟨acquired, hacquired, h⟩ := ok_of_bind h
      obtain ⟨-, -, h⟩ := ok_of_bind h
      obtain ⟨sections, hsections, h⟩ := ok_of_bind h
      obtain ⟨others, hothers, h⟩ := ok_of_bind h
      cases h
      refine List.forall_mem_append.mpr ⟨?_, ?_⟩
      · obtain ⟨-, -, hprocessed⟩ := ok_of_bind (processMedia_of_cleanedUp hsections)
        obtain ⟨pages, hpages, hprocessed⟩ := ok_of_bind hprocessed
        refine staysNormal_of_pagesSections hU hprocessed fun j page text hpage htext => ?_
        rw [Nat.zero_add] at htext
        exact hrecognized text ⟨0, part, acquired, pages, j, page, rfl,
          acquireMedia_eq_ok.mp hacquired, hpages, hpage, htext⟩
      · refine ih hothers fun text ⟨i, other, acquired', pages, j, page, hother, hrest⟩ => ?_
        refine hrecognized text ⟨i + 1, other, acquired', pages, j, page, hother, ?_⟩
        rwa [Nat.add_right_comm, Nat.add_assoc] at hrest

end Gate

namespace PreRequestGate

open Gate Sanitizer

variable {gate : PreRequestGate} {tenantId : Str} {now : Instant} {signedAt : ℚ}
  {request : PrepareForModelRequest} {outcome : GateOutcome} {payload : DownstreamPayload}

/-- The texts that are converted stay normal without their control characters: those of the
request, as they are joined, and those that are recognised for it. -/
structure StaysNormalTexts (gate : PreRequestGate) (tenantId : Str)
    (request : PrepareForModelRequest) : Prop where
  joined : StaysNormal gate.unicode (joinText request.content)
  recognized : ∀ text, Recognized gate.backends tenantId request.conversionProfile 1
    (mediaParts request.content) text → StaysNormal gate.unicode text

/-- Every reported name can be found after the normalization: it is not empty, and it is in
normal form, or nothing that is not can come up in the converted texts. -/
def FindableNames (gate : PreRequestGate) (tenantId : Str) (request : PrepareForModelRequest) :
    Prop :=
  ∀ name, Reported gate.backends tenantId request.content name → name ≠ [] ∧
    (gate.unicode.nfkc name = name ∨ gate.StaysNormalTexts tenantId request)

/-- The media boundary, with a text in which no reported name is left as it was reported. -/
structure NamelessBoundary (gate : PreRequestGate) (now : Instant) (tenantId : Str)
    (request : PrepareForModelRequest) (outcome : GateOutcome) (payload : DownstreamPayload) :
    Prop extends MediaBoundary gate now tenantId request outcome payload where
  nameless : (∃ part, ContentPart.media part ∈ request.content) →
    (¬ ∃ part, ContentPart.media part ∈ payload.content) → ∀ text,
      payload.content = [.text text] → ∀ name,
        Reported gate.backends tenantId request.content name → ¬ name <:+: text.text.value

/-- A name that is not in normal form is not in a text that was made of texts that stay normal. -/
theorem not_infix_structuredContext (hU : LineNfkc gate.unicode)
    (htexts : gate.StaysNormalTexts tenantId request) {context : ConvertedContext}
    (h : gate.extractContext request.content request.conversionProfile tenantId = .ok context)
    {name : Str} (hname : gate.unicode.nfkc name ≠ name) :
    ¬ name <:+: context.structuredContext := by
  obtain ⟨gathered, hconverts⟩ := extractContext_eq_ok_iff.mp h
  have hsections := staysNormal_of_gather hU hconverts.answers htexts.recognized
  have hnormal : StaysNormal gate.unicode (Str.join (lit "\n\n")
      (convertedTexts request.content gathered)) := by
    refine staysNormal_join hU (List.forall_mem_append.mpr ⟨?_, hsections⟩)
    split
    · exact fun s hs => absurd hs List.not_mem_nil
    · exact List.forall_mem_singleton.mpr htexts.joined
  exact not_infix_of_staysNormal hU.toStandardNfkc hnormal hconverts.structured hname

section Sample

/-- A letter and its accent do not meet over a line feed. -/
theorem composeAcute_lines (s t : Str) :
    composeAcute (s ++ lit "\n" ++ t) = composeAcute s ++ lit "\n" ++ composeAcute t := by
  have hne : accented ≠ [] := by decide
  by_cases hstart : accented <+: s
  · obtain ⟨v, rfl⟩ := hstart
    have hshorter : v.length < (accented ++ v).length := by
      rw [List.length_append]
      exact Nat.lt_add_of_pos_left (by decide)
    have ih := composeAcute_lines v t
    have hleft : composeAcute (accented ++ v ++ lit "\n" ++ t) =
        [cp 0xE9] ++ composeAcute (v ++ lit "\n" ++ t) := by
      rw [List.append_assoc, List.append_assoc, ← List.append_assoc v]
      exact Str.replaceAll_append_self hne _ _
    have hright : composeAcute (accented ++ v) = [cp 0xE9] ++ composeAcute v :=
      Str.replaceAll_append_self hne _ _
    rw [hleft, hright, ih]
    simp only [List.append_assoc]
  · cases s with
    | nil =>
        have hfeed : ¬ accented <+: cp 10 :: t := by
          intro hpre
          exact absurd (List.cons_prefix_cons.mp hpre).1 (by decide)
        exact Str.replaceAll_cons_of_not hne hfeed
    | cons c rest =>
        have ih := composeAcute_lines rest t
        have hstart' : ¬ accented <+: c :: (rest ++ lit "\n" ++ t) := by
          intro hpre
          obtain ⟨hc, hpre⟩ := List.cons_prefix_cons.mp hpre
          cases rest with
          | nil => exact absurd (List.cons_prefix_cons.mp hpre).1 (by decide)
          | cons d rest =>
              obtain ⟨hd, -⟩ := List.cons_prefix_cons.mp hpre
              exact hstart ⟨rest, by rw [← hc, ← hd]; rfl⟩
        change Str.replaceAll (c :: (rest ++ lit "\n" ++ t)) accented [cp 0xE9] =
          Str.replaceAll (c :: rest) accented [cp 0xE9] ++ lit "\n" ++ composeAcute t
        rw [Str.replaceAll_cons_of_not hne hstart', Str.replaceAll_cons_of_not hne hstart]
        exact congrArg (c :: ·) ih
termination_by s.length

theorem lines_composeAcute : LineNfkc (.ascii composeAcute) :=
  { standard_composeAcute with lines := composeAcute_lines }

/-- All that the backends of the examples answer is printable. -/
theorem staysNormal_recognized {profile : ConversionProfile} {parts : List MediaPart} {text : Str}
    (h : Recognized sampleBackends [] profile 1 parts text) :
    StaysNormal (.ascii composeAcute) text := by
  obtain ⟨i, part, acquired, pages, j, page, -, -, -, -, hanswer⟩ := h
  cases hanswer with
  | text hocr htext =>
      cases hocr
      cases htext
      unfold StaysNormal
      decide +kernel
  | description _ hvision hdescription =>
      cases hvision
      cases hdescription
      unfold StaysNormal
      decide +kernel

/-- The only name that is reported for the images of the examples. -/
theorem eq_of_reported {text : TextPart} {name : Str}
    (h : Reported sampleBackends [] (sampleNamedRequest text).content name) :
    name = decomposedName := by
  obtain ⟨i, part, acquired, hpart, hacquired, hname⟩ := h
  cases i with
  | succ i => cases hpart
  | zero =>
      cases hpart
      cases hacquired
      rcases hname with hname | hname
      · cases hname
      · exact (Option.some.inj hname).symm

end Sample

end PreRequestGate

end MediaBridge.Core
