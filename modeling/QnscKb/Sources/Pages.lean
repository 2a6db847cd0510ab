import QnscKb.Lib.Text
import Mathlib.Algebra.GroupWithZero.Nat

/-!
# Sources — the pages of a PDF

`extract_source_pages` and `_extract_pdf_pages` of `src/domain/source_extraction.py` on a PDF.  A
page is its embedded text, whether it has images, and what OCR reads; any of them may raise.  Image
pages are read by one pass where the document has embedded text, all pages by another where it has
none, and each pass collects its own failures.
-/

namespace QnscKb.Sources

/-! ### Pages -/

/-- `re.sub` of the runs of at least `least` of the characters, with the run read so far. -/
def replaceRuns (inRun : Char → Bool) (least : Nat) (run : Text) : Text → Text → Text
  | read, [] => if least ≤ read.length then run else read
  | read, c :: t =>
    if inRun c then replaceRuns inRun least run (read ++ [c]) t
    else (if least ≤ read.length then run else read) ++ c :: replaceRuns inRun least run [] t

def clean (t : Text) : Text :=
  Text.strip (replaceRuns (· == '\n') 3 ['\n', '\n'] []
    (replaceRuns (fun c => c == ' ' || c == '\t') 1 [' '] [] (t.filter (· != '\x00'))))

/-- What OCR does on the image of a page: it may not be installed. -/
inductive Ocr where
  | lines (t : Text)
  | raised
  | unavailable
  deriving DecidableEq

/-- A page; `none` where the call raises. -/
structure PdfPage where
  text : Option Text
  images : Option Bool
  ocr : Ocr

/-- A PDF: whether `pypdf` reads it and whether PyMuPDF opens it, and the text of that failure. -/
structure Pdf where
  reads : Bool
  opens : Bool
  cause : Text
  pages : List PdfPage

/-- An entry of the pages so far. -/
@[ext]
structure Item where
  pageNumber : Nat
  text : Text
  deriving DecidableEq

/-- An entry of the result. -/
structure SourcePage where
  pageNumber : Nat
  text : Text
  extractionFailed : Bool
  deriving DecidableEq

structure SourceSettings where
  maxSourcePages : Nat
  maxSourceTextChars : Nat

namespace PdfPage

variable (page : PdfPage)

/-- The text of the page's item after `extract_text`. -/
def embedded : Text :=
  match page.text with
  | some t => clean t
  | none => []

/-- The text of `_ocr_image`, if it returns. -/
def recognized : Text :=
  match page.ocr with
  | .lines t => clean t
  | .raised | .unavailable => []

end PdfPage

/-! ### Embedded text -/

/-- The loop over `reader.pages`. -/
def readPages : Nat → List PdfPage → List Item × List Nat
  | _, [] => ([], [])
  | n, page :: pages =>
    let (items, failed) := readPages (n + 1) pages
    (⟨n, page.embedded⟩ :: items, if page.text.isNone then n :: failed else failed)

/-- The variables of the OCR pass over the textless pages, and whether it raised. -/
structure Pass where
  items : List Item
  failed : List Nat
  raised : Bool

def Pass.cons (item : Item) (pass : Pass) : Pass := { pass with items := item :: pass.items }

def ocrPass : Nat → List Nat → List PdfPage → Pass
  | _, failed, [] => ⟨[], failed, false⟩
  | n, failed, page :: pages =>
    if page.embedded ≠ [] then .cons ⟨n, page.embedded⟩ (ocrPass (n + 1) failed pages)
    else
      match page.images with
      | none => ⟨(readPages n (page :: pages)).1, failed, true⟩
      | some false => .cons ⟨n, []⟩ (ocrPass (n + 1) failed pages)
      | some true =>
        .cons ⟨n, page.recognized⟩ (ocrPass (n + 1)
          (if page.recognized = [] ∧ n ∉ failed then failed ++ [n] else failed) pages)

/-- The `try` around the OCR pass and its `except`. -/
def readMissing (pdf : Pdf) (items : List Item) (failed : List Nat) : List Item × List Nat :=
  if items.any (·.text = []) then
    let pass := if pdf.opens then ocrPass 1 failed pdf.pages else ⟨items, failed, true⟩
    (pass.items, if pass.raised then
        pass.failed ++ (pass.items.filter fun i => i.text = [] ∧ i.pageNumber ∉ pass.failed).map
          Item.pageNumber
      else pass.failed)
  else (items, failed)

def ocrUnavailable : Text :=
  "PaddleOCR is not available. Install paddlepaddle and paddleocr to process scanned files.".toList

/-- The loop over the pages of a document without embedded text. -/
def ocrPages : Nat → List PdfPage → Except Text (List Item × List Nat)
  | _, [] => .ok ([], [])
  | n, page :: pages =>
    match page.ocr with
    | .unavailable => .error ocrUnavailable
    | .lines _ => do
        let (items, failed) ← ocrPages (n + 1) pages
        return (⟨n, clean page.recognized⟩ :: items, failed)
    | .raised => do
        let (items, failed) ← ocrPages (n + 1) pages
        return (⟨n, clean []⟩ :: items, n :: failed)

/-! ### The extraction -/

variable (settings : SourceSettings) (pdf : Pdf)

/-- The message of `_reject_oversized_pdf`. -/
def tooManyPages : Text :=
  "Documents are limited to ".toList ++ Nat.toDigits 10 settings.maxSourcePages ++ " pages".toList

/-- The full OCR pass of `_extract_pdf_pages`. -/
def ocrDocument : Except Text (List Item × List Nat) :=
  if !pdf.opens then .error ("Could not extract text from PDF: ".toList ++ pdf.cause)
  else if settings.maxSourcePages < pdf.pages.length then .error (tooManyPages settings)
  else ocrPages 1 pdf.pages

def extractPdfPages : Except Text (List Item × List Nat) :=
  if pdf.reads then
    if settings.maxSourcePages < pdf.pages.length then .error (tooManyPages settings)
    else
      let (items, failed) := readPages 1 pdf.pages
      if items.any (·.text ≠ []) then
        let (items, failed) := readMissing pdf items failed
        .ok (items, failed.dedup.insertionSort (· ≤ ·))
      else ocrDocument settings pdf
  else ocrDocument settings pdf

def marked (items : List Item) (failed : List Nat) : List SourcePage :=
  (items.filter fun i => i.text ≠ [] ∨ i.pageNumber ∈ failed).map fun i =>
    ⟨i.pageNumber, i.text, i.pageNumber ∈ failed⟩

/-- `extract_source_pages` on a PDF that is valid and clean. -/
def extractSourcePages : Except Text (List SourcePage) := do
  let (items, failed) ← extractPdfPages settings pdf
  let pages := marked items failed
  if settings.maxSourcePages < pages.length then throw (tooManyPages settings)
  if settings.maxSourceTextChars < (pages.map fun p => p.text.length).sum then
    throw "The extracted document text is too large".toList
  if !pages.any (·.text ≠ []) then
    throw "No readable text was found in the uploaded file.".toList
  return pages

/-! ### What is reported -/

def PdfPage.Stops (page : PdfPage) : Prop := page.embedded = [] ∧ page.images = none

def PdfPage.Blank (page : PdfPage) : Prop :=
  page.text.map clean = some [] ∧ page.images = some false

/-- Some page of a document that `pypdf` reads has embedded text. -/
def Pdf.HasEmbedded : Prop := pdf.reads = true ∧ ∃ page ∈ pdf.pages, page.embedded ≠ []

/-- The OCR pass over the textless pages gets past the pages before one. -/
def Pdf.Reaches (before : List PdfPage) : Prop := pdf.opens = true ∧ ∀ q ∈ before, ¬ q.Stops

instance (page : PdfPage) : Decidable page.Stops := inferInstanceAs (Decidable (_ ∧ _))

instance (page : PdfPage) : Decidable page.Blank := inferInstanceAs (Decidable (_ ∧ _))

instance : Decidable pdf.HasEmbedded := inferInstanceAs (Decidable (_ ∧ _))

instance (before : List PdfPage) : Decidable (pdf.Reaches before) :=
  inferInstanceAs (Decidable (_ ∧ _))

def Pdf.obtained (before : List PdfPage) (page : PdfPage) : Text :=
  if pdf.HasEmbedded then
    if page.embedded ≠ [] then page.embedded
    else if pdf.Reaches before ∧ page.images = some true then page.recognized else []
  else clean page.recognized

/-- Every page with text is there, and the pages marked are those for which no text was obtained,
but for the blank ones. -/
structure Reported (out : List SourcePage) : Prop where
  only : ∀ item ∈ out, ∃ before page, before ++ [page] <+: pdf.pages ∧
    item.pageNumber = before.length + 1 ∧ item.text = pdf.obtained before page
  kept : ∀ before page, before ++ [page] <+: pdf.pages → pdf.obtained before page ≠ [] →
    ∃ item ∈ out, item.pageNumber = before.length + 1 ∧ item.text = pdf.obtained before page
  marked : ∀ before page, before ++ [page] <+: pdf.pages →
    ((∃ item ∈ out, item.pageNumber = before.length + 1 ∧ item.extractionFailed = true) ↔
      pdf.obtained before page = [] ∧ ¬ page.Blank)

/-! ### Places -/

/-- The page of a number, the first one's being `n`, is such, after the pages before it. -/
def At (n : Nat) (pages : List PdfPage) (P : List PdfPage → PdfPage → Prop) (m : Nat) : Prop :=
  ∃ before page, before ++ [page] <+: pages ∧ m = n + before.length ∧ P before page

section Places

variable {n m : Nat} {page : PdfPage} {pages : List PdfPage} {P Q : List PdfPage → PdfPage → Prop}

theorem not_at_nil : ¬ At n [] P m := fun ⟨_, _, hplace, _⟩ => by simp at hplace

theorem at_cons : At n (page :: pages) P m ↔
    (m = n ∧ P [] page) ∨ At (n + 1) pages (fun before => P (page :: before)) m := by
  constructor
  · rintro ⟨_ | ⟨p, before⟩, q, hplace, rfl, hP⟩
    · rw [List.nil_append, List.cons_prefix_cons] at hplace
      exact .inl ⟨rfl, hplace.1 ▸ hP⟩
    · rw [List.cons_append, List.cons_prefix_cons] at hplace
      exact .inr ⟨before, q, hplace.2, by rw [List.length_cons]; omega, hplace.1 ▸ hP⟩
  · rintro (⟨rfl, hP⟩ | ⟨before, q, hplace, rfl, hP⟩)
    · exact ⟨[], page, List.cons_prefix_cons.mpr ⟨rfl, List.nil_prefix⟩, rfl, hP⟩
    · exact ⟨page :: before, q, List.cons_prefix_cons.mpr ⟨rfl, hplace⟩,
        by rw [List.length_cons]; omega, hP⟩

theorem at_congr (h : ∀ before q, P before q ↔ Q before q) : At n pages P m ↔ At n pages Q m :=
  exists_congr fun before => exists_congr fun q => and_congr_right fun _ =>
    and_congr_right fun _ => h before q

variable {before : List PdfPage}

theorem at_iff (hplace : before ++ [page] <+: pages) :
    At n pages P (n + before.length) ↔ P before page := by
  constructor
  · rintro ⟨before', q, hplace', hlength, hP⟩
    have hlength : before.length = before'.length := Nat.add_left_cancel hlength
    have hsame : before ++ [page] = before' ++ [q] :=
      (List.prefix_of_prefix_length_le hplace hplace' (by simp [hlength])).eq_of_length
        (by simp [hlength])
    obtain ⟨rfl, hq⟩ := List.append_inj hsame hlength
    exact List.singleton_inj.mp hq ▸ hP
  · exact fun hP => ⟨before, page, hplace, rfl, hP⟩

variable {item : Item}

theorem mem_cons_item {t : Text} {items : List Item} :
    item ∈ (⟨n, t⟩ :: items : List Item) ↔
      (item.pageNumber = n ∧ item.text = t) ∨ item ∈ items := by
  rw [List.mem_cons, Item.ext_iff]

/-! ### Each pass -/

theorem mem_readPages : item ∈ (readPages n pages).1 ↔
    At n pages (fun _ page => item.text = page.embedded) item.pageNumber := by
  induction pages generalizing n with
  | nil => exact iff_of_false List.not_mem_nil not_at_nil
  | cons page pages ih => rw [readPages, mem_cons_item, at_cons, ih]

theorem mem_failed_readPages : m ∈ (readPages n pages).2 ↔
    At n pages (fun _ page => page.text = none) m := by
  induction pages generalizing n with
  | nil => exact iff_of_false List.not_mem_nil not_at_nil
  | cons page pages ih =>
    rw [readPages, at_cons, ← ih]
    cases page.text with
    | none => exact List.mem_cons.trans (or_congr_left (and_iff_left rfl).symm)
    | some t => exact (or_iff_right fun h => nomatch h.2).symm

def passed (before : List PdfPage) (page : PdfPage) : Text :=
  if page.embedded ≠ [] then page.embedded
  else if (∀ q ∈ before, ¬ q.Stops) ∧ page.images = some true then page.recognized else []

/-- The OCR pass comes to a textless image page and has no text. -/
def Unread (before : List PdfPage) (page : PdfPage) : Prop :=
  (∀ q ∈ before, ¬ q.Stops) ∧ page.embedded = [] ∧ page.images = some true ∧ page.recognized = []

variable {q : PdfPage}

theorem passed_cons (h : ¬ page.Stops) : passed (page :: before) q = passed before q := by
  simp only [passed, List.forall_mem_cons, h, not_false_eq_true, true_and]

theorem unread_cons (h : ¬ page.Stops) : Unread (page :: before) q ↔ Unread before q := by
  simp only [Unread, List.forall_mem_cons, h, not_false_eq_true, true_and]

theorem passed_cons_stops (h : page.Stops) : passed (page :: before) q = q.embedded := by
  rw [passed]
  split_ifs with htext hread
  · rfl
  · exact absurd h (List.forall_mem_cons.mp hread.1).1
  · exact (not_not.mp htext).symm

variable {failed : List Nat}

theorem ocrPass_stops (h : page.Stops) :
    ocrPass n failed (page :: pages) = ⟨(readPages n (page :: pages)).1, failed, true⟩ := by
  rw [ocrPass, if_neg (not_not.mpr h.1), h.2]

theorem ocrPass_cons (n : Nat) (failed : List Nat) (pages : List PdfPage) (h : ¬ page.Stops) :
    ∃ failed', (∀ m, m ∈ failed' ↔ m ∈ failed ∨ (m = n ∧ Unread [] page)) ∧
      ocrPass n failed (page :: pages) =
        .cons ⟨n, passed [] page⟩ (ocrPass (n + 1) failed' pages) := by
  rw [ocrPass]
  by_cases htext : page.embedded = []
  · rw [if_neg (not_not.mpr htext), passed, if_neg (not_not.mpr htext)]
    rcases himages : page.images with _ | _ | _
    · exact absurd ⟨htext, himages⟩ h
    · exact ⟨failed, fun m => (or_iff_left fun hm => nomatch himages ▸ hm.2.2.2.1).symm, rfl⟩
    · have hunread : Unread [] page ↔ page.recognized = [] :=
        ⟨fun hm => hm.2.2.2, fun hm => ⟨List.forall_mem_nil _, htext, himages, hm⟩⟩
      have hreads : (∀ q ∈ ([] : List PdfPage), ¬ q.Stops) ∧ some true = some true :=
        ⟨List.forall_mem_nil _, rfl⟩
      refine ⟨if page.recognized = [] ∧ n ∉ failed then failed ++ [n] else failed, fun m => ?_, rfl⟩
      rw [hunread]
      split_ifs with hnew
      · rw [List.mem_append, List.mem_singleton, and_iff_left hnew.1]
      · refine (or_iff_left_of_imp ?_).symm
        rintro ⟨rfl, hnil⟩
        exact not_not.mp fun hmem => hnew ⟨hnil, hmem⟩
  · rw [if_pos htext, passed, if_pos htext]
    exact ⟨failed, fun m => (or_iff_left fun hm => htext hm.2.2.1).symm, rfl⟩

/-- The texts the pass over the textless pages has. -/
theorem mem_ocrPass :
    item ∈ (ocrPass n failed pages).items ↔
      At n pages (fun before page => item.text = passed before page) item.pageNumber := by
  induction pages generalizing n failed with
  | nil => exact iff_of_false List.not_mem_nil not_at_nil
  | cons page pages ih =>
    by_cases hstops : page.Stops
    · have hembedded : ∀ before q, passed (page :: before) q = q.embedded := fun _ _ =>
      passed_cons_stops hstops
      have hfirst : passed [] page = page.embedded := by
        rw [passed, hstops.1, hstops.2]
        rfl
      rw [ocrPass_stops hstops, mem_readPages, at_cons, at_cons, hfirst]
      simp only [hembedded]
    · obtain ⟨failed', -, hpass⟩ := ocrPass_cons n failed pages hstops
      have hpassed : ∀ before q, passed (page :: before) q = passed before q := fun _ _ =>
        passed_cons hstops
      rw [hpass, Pass.cons, mem_cons_item, at_cons, ih]
      simp only [hpassed]

/-- The pages it reports. -/
theorem mem_failed_ocrPass : m ∈ (ocrPass n failed pages).failed ↔
    m ∈ failed ∨ At n pages Unread m := by
  induction pages generalizing n failed with
  | nil => exact (or_iff_left not_at_nil).symm
  | cons page pages ih =>
    rw [at_cons]
    by_cases hstops : page.Stops
    · rw [ocrPass_stops hstops]
      refine (or_iff_left ?_).symm
      rintro (⟨-, hunread⟩ | ⟨before, q, -, -, hunread⟩)
      · exact nomatch hstops.2.symm.trans hunread.2.2.1
      · exact (List.forall_mem_cons.mp hunread.1).1 hstops
    · obtain ⟨failed', hfailed, hpass⟩ :=
        ocrPass_cons n failed pages hstops
      rw [hpass, Pass.cons, ih, hfailed, or_assoc]
      exact or_congr_right (or_congr_right (at_congr fun _ _ => (unread_cons hstops).symm))

theorem raised_ocrPass : (ocrPass n failed pages).raised = true ↔ ∃ page ∈ pages, page.Stops := by
  induction pages generalizing n failed with
  | nil => exact iff_of_false Bool.false_ne_true fun h => by simp at h
  | cons page pages ih =>
    rw [List.exists_mem_cons_iff]
    by_cases hstops : page.Stops
    · rw [ocrPass_stops hstops]
      exact iff_of_true rfl (.inl hstops)
    · obtain ⟨failed', -, hpass⟩ := ocrPass_cons n failed pages hstops
      rw [hpass, or_iff_right hstops]
      exact ih

/-- The texts and reports of full OCR. -/
theorem mem_ocrPages {items : List Item} (h : ocrPages n pages = .ok (items, failed)) :
    (∀ item, item ∈ items ↔
      At n pages (fun _ page => item.text = clean page.recognized) item.pageNumber) ∧
      (∀ m, m ∈ failed ↔ At n pages (fun _ page => page.ocr = .raised) m) := by
  induction pages generalizing n items failed with
  | nil =>
    cases h
    exact ⟨fun _ => iff_of_false List.not_mem_nil not_at_nil,
      fun _ => iff_of_false List.not_mem_nil not_at_nil⟩
  | cons page pages ih =>
    rw [ocrPages] at h
    rcases hrest : ocrPages (n + 1) pages with e | ⟨items', failed'⟩
    · rw [hrest] at h
      cases hocr : page.ocr <;> rw [hocr] at h <;> cases h
    · obtain ⟨hitems, hfailed⟩ := ih hrest
      rw [hrest] at h
      cases hocr : page.ocr with
      | lines t =>
        rw [hocr] at h
        cases h
        refine ⟨fun item => ?_, fun m => ?_⟩
        · rw [mem_cons_item, at_cons, hitems]
        · rw [at_cons, or_iff_right fun h => (nomatch hocr ▸ h.2), hfailed]
      | raised =>
        rw [hocr] at h
        cases h
        refine ⟨fun item => ?_, fun m => ?_⟩
        · rw [mem_cons_item, at_cons, hitems, PdfPage.recognized, hocr]
        · rw [List.mem_cons, at_cons, hfailed, and_iff_left hocr]
      | unavailable =>
        rw [hocr] at h
        cases h

end Places

/-! ### The whole extraction -/

def Pdf.Completes : Prop := pdf.opens = true ∧ ∀ page ∈ pdf.pages, ¬ page.Stops

def Pdf.Fails (before : List PdfPage) (page : PdfPage) : Prop :=
  if pdf.HasEmbedded then
    page.text = none ∨ (pdf.opens = true ∧ Unread before page) ∨
      (¬ pdf.Completes ∧ pdf.obtained before page = [])
  else page.ocr = .raised

/-- What an extraction gives: a text for each page and the numbers of those it reports. -/
structure Extracted (items : List Item) (failed : List Nat) : Prop where
  items : ∀ item, item ∈ items ↔ At 1 pdf.pages
    (fun before page => item.text = pdf.obtained before page) item.pageNumber
  failed : ∀ m, m ∈ failed ↔ At 1 pdf.pages pdf.Fails m

variable {settings pdf} {items : List Item} {failed : List Nat}

theorem at_or {n m : Nat} {pages : List PdfPage} {P Q : List PdfPage → PdfPage → Prop} :
    At n pages (fun before page => P before page ∨ Q before page) m ↔
      At n pages P m ∨ At n pages Q m := by
  simp only [At, and_or_left, exists_or]

variable {page : PdfPage}

theorem embedded_of_none (h : page.text = none) : page.embedded = [] := by
  rw [PdfPage.embedded, h]

variable {before : List PdfPage}

theorem obtained_of_embedded (hpdf : pdf.HasEmbedded) (h : page.embedded ≠ []) :
    pdf.obtained before page = page.embedded := by
  rw [Pdf.obtained, if_pos hpdf, if_pos h]

theorem obtained_of_opens (hpdf : pdf.HasEmbedded) (hopens : pdf.opens = true) :
    pdf.obtained = passed := by
  funext before page
  rw [Pdf.obtained, if_pos hpdf, passed]
  simp only [Pdf.Reaches, hopens, true_and]

theorem obtained_of_closed (hpdf : pdf.HasEmbedded) (hopens : ¬ pdf.opens = true) :
    pdf.obtained = fun _ page => page.embedded := by
  funext before page
  rw [Pdf.obtained]
  split_ifs with htext hread
  · rfl
  · exact absurd hread.1.1 hopens
  · exact (not_not.mp htext).symm

theorem mem_unread {m : Nat} :
    m ∈ failed ++ (items.filter fun i => i.text = [] ∧ i.pageNumber ∉ failed).map
      Item.pageNumber ↔ m ∈ failed ∨ ⟨m, []⟩ ∈ items := by
  rw [List.mem_append, List.mem_map]
  constructor
  · rintro (hm | ⟨⟨n, t⟩, hi, rfl⟩)
    · exact .inl hm
    · obtain ⟨hmem, hnew⟩ := List.mem_filter.mp hi
      obtain ⟨rfl, -⟩ := of_decide_eq_true hnew
      exact .inr hmem
  · rintro (hm | hm)
    · exact .inl hm
    · by_cases hold : m ∈ failed
      · exact .inl hold
      · exact .inr ⟨⟨m, []⟩, List.mem_filter.mpr ⟨hm, decide_eq_true ⟨rfl, hold⟩⟩, rfl⟩

/-- **The embedded text and the OCR of the textless pages.** -/
theorem extracted_readMissing (hpdf : pdf.HasEmbedded)
    (h : readMissing pdf (readPages 1 pdf.pages).1 (readPages 1 pdf.pages).2 = (items, failed)) :
    Extracted pdf items failed := by
  have hfails : ∀ m, At 1 pdf.pages pdf.Fails m ↔ m ∈ (readPages 1 pdf.pages).2 ∨
      At 1 pdf.pages (fun before page => (pdf.opens = true ∧ Unread before page) ∨
        (¬ pdf.Completes ∧ pdf.obtained before page = [])) m := fun m => by
    rw [mem_failed_readPages, ← at_or]
    exact at_congr fun before page => by rw [Pdf.Fails, if_pos hpdf]
  have hnone : ∀ (its : List Item) m, (∀ item, item ∈ its ↔ At 1 pdf.pages
      (fun before page => item.text = pdf.obtained before page) item.pageNumber) →
        (⟨m, []⟩ ∈ its ↔ At 1 pdf.pages (fun before page => pdf.obtained before page = []) m) :=
    fun its m hits => (hits ⟨m, []⟩).trans (at_congr fun _ _ => eq_comm)
  rw [readMissing] at h
  split_ifs at h with hany hopens
  · -- the pass runs, to its end or not
    obtain ⟨rfl, rfl⟩ := Prod.mk.inj h
    have hitems : ∀ item, item ∈ (ocrPass 1 (readPages 1 pdf.pages).2 pdf.pages).items ↔
        At 1 pdf.pages (fun before page => item.text = pdf.obtained before page)
          item.pageNumber := fun item => by
      rw [mem_ocrPass, obtained_of_opens hpdf hopens]
    refine ⟨hitems, fun m => ?_⟩
    rw [hfails]
    split_ifs with hraised
    · have hstops : ¬ pdf.Completes := fun hcompletes => by
        obtain ⟨page, hpage, hstops⟩ := raised_ocrPass.mp hraised
        exact hcompletes.2 page hpage hstops
      rw [mem_unread, mem_failed_ocrPass, hnone _ m hitems, or_assoc, ← at_or]
      simp only [hopens, hstops, true_and, not_false_eq_true]
    · have hcompletes : pdf.Completes := ⟨hopens, fun page hpage hstops =>
      hraised (raised_ocrPass.mpr ⟨page, hpage, hstops⟩)⟩
      rw [mem_failed_ocrPass]
      simp only [hopens, hcompletes, true_and, not_true_eq_false, false_and, or_false]
  · -- the document does not open
    dsimp only at h
    rw [if_pos rfl] at h
    obtain ⟨rfl, rfl⟩ := Prod.mk.inj h
    have hitems : ∀ item, item ∈ (readPages 1 pdf.pages).1 ↔
        At 1 pdf.pages (fun before page => item.text = pdf.obtained before page)
          item.pageNumber := fun item => by
      rw [mem_readPages, obtained_of_closed hpdf hopens]
    have hstops : ¬ pdf.Completes := fun hcompletes => hopens hcompletes.1
    refine ⟨hitems, fun m => ?_⟩
    rw [hfails, mem_unread, hnone _ m hitems]
    simp only [hopens, hstops, Bool.false_eq_true, false_and, false_or, true_and,
      not_false_eq_true]
  · -- every page has embedded text
    obtain ⟨rfl, rfl⟩ := Prod.mk.inj h
    have hall : ∀ before page, before ++ [page] <+: pdf.pages → page.embedded ≠ [] := by
      intro before page hplace hnil
      have hmem : (⟨1 + before.length, []⟩ : Item) ∈ (readPages 1 pdf.pages).1 :=
        mem_readPages.mpr ((at_iff hplace).mpr hnil.symm)
      exact hany (List.any_eq_true.mpr ⟨_, hmem, decide_eq_true rfl⟩)
    refine ⟨fun item => ?_, fun m => ?_⟩
    · rw [mem_readPages]
      refine exists_congr fun before => exists_congr fun page => and_congr_right fun hplace =>
        and_congr_right fun _ => ?_
      dsimp only
      rw [obtained_of_embedded hpdf (hall before page hplace)]
    · rw [hfails]
      refine (or_iff_left ?_).symm
      rintro ⟨before, page, hplace, -, ⟨-, hunread⟩ | ⟨-, hnil⟩⟩
      · exact hall before page hplace hunread.2.1
      · rw [obtained_of_embedded hpdf (hall before page hplace)] at hnil
        exact hall before page hplace hnil

theorem extracted_ocrDocument (hpdf : ¬ pdf.HasEmbedded)
    (h : ocrDocument settings pdf = .ok (items, failed)) : Extracted pdf items failed := by
  rw [ocrDocument] at h
  split_ifs at h
  obtain ⟨hitems, hfailed⟩ := mem_ocrPages h
  have hobtained : pdf.obtained = fun _ page => clean page.recognized := by
    funext before page
    exact if_neg hpdf
  have hfails : pdf.Fails = fun _ page => page.ocr = .raised := by
    funext before page
    exact if_neg hpdf
  refine ⟨fun item => ?_, fun m => ?_⟩
  · rw [hobtained, hitems]
  · rw [hfails, hfailed]

/-- Either way, the whole extraction. -/
theorem extracted_extractPdfPages (h : extractPdfPages settings pdf = .ok (items, failed)) :
    Extracted pdf items failed := by
  have htext : (readPages 1 pdf.pages).1.any (·.text ≠ []) = true ↔
      ∃ page ∈ pdf.pages, page.embedded ≠ [] := by
    rw [List.any_eq_true]
    constructor
    · rintro ⟨item, hitem, hsome⟩
      obtain ⟨before, page, ⟨after, hplace⟩, -, htext⟩ := mem_readPages.mp hitem
      refine ⟨page, hplace ▸ by simp, fun hnil => of_decide_eq_true hsome (htext.trans hnil)⟩
    · rintro ⟨page, hpage, hsome⟩
      obtain ⟨before, after, hpages⟩ := List.append_of_mem hpage
      have hplace : before ++ [page] <+: pdf.pages := ⟨after, by rw [hpages]; simp⟩
      exact ⟨⟨1 + before.length, page.embedded⟩, mem_readPages.mpr ((at_iff hplace).mpr rfl),
        decide_eq_true hsome⟩
  rw [extractPdfPages] at h
  split_ifs at h with hreads hsize
  · dsimp only at h
    split_ifs at h with hsome
    · cases h
      obtain ⟨hitems, hfailed⟩ := extracted_readMissing ⟨hreads, htext.mp hsome⟩
        Prod.mk.eta.symm
      refine ⟨hitems, fun m => ?_⟩
      rw [List.mem_insertionSort, List.mem_dedup, hfailed]
    · exact extracted_ocrDocument (fun hpdf => hsome (htext.mpr hpdf.2)) h
  · exact extracted_ocrDocument (fun hpdf => hreads hpdf.1) h

/-! ### When the report is exact -/

variable (pdf) in
/-- No page that a pass gets text for has failed before, and none that is blank fails in a pass; a
page that is not blank is not passed over. -/
structure ExactlyRead : Prop where
  embedded : pdf.HasEmbedded → ∀ before page, before ++ [page] <+: pdf.pages →
    page.text = none → pdf.Reaches before → page.images = some true → page.recognized = []
  completes : pdf.HasEmbedded → ¬ pdf.Completes → ∀ page ∈ pdf.pages, ¬ page.Blank
  ocr : ¬ pdf.HasEmbedded → ∀ page ∈ pdf.pages, clean page.recognized = [] →
    (page.ocr = .raised ↔ ¬ page.Blank)

theorem mem_marked {item : SourcePage} : item ∈ marked items failed ↔
    ⟨item.pageNumber, item.text⟩ ∈ items ∧ (item.text ≠ [] ∨ item.pageNumber ∈ failed) ∧
      (item.extractionFailed = true ↔ item.pageNumber ∈ failed) := by
  rw [marked, List.mem_map]
  constructor
  · rintro ⟨i, hi, rfl⟩
    obtain ⟨hmem, hkept⟩ := List.mem_filter.mp hi
    exact ⟨hmem, of_decide_eq_true hkept, decide_eq_true_iff⟩
  · obtain ⟨n, t, f⟩ := item
    rintro ⟨hmem, hkept, hfailed⟩
    refine ⟨⟨n, t⟩, List.mem_filter.mpr ⟨hmem, decide_eq_true hkept⟩, ?_⟩
    exact congrArg _ (Bool.eq_iff_iff.mpr (decide_eq_true_iff.trans hfailed.symm))

theorem extractSourcePages_ok {out : List SourcePage}
    (h : extractSourcePages settings pdf = .ok out) : ∃ items failed,
      extractPdfPages settings pdf = .ok (items, failed) ∧ out = marked items failed := by
  rw [extractSourcePages] at h
  rcases hpages : extractPdfPages settings pdf with e | ⟨items, failed⟩
  · rw [hpages] at h
    cases h
  · rw [hpages] at h
    refine ⟨items, failed, rfl, ?_⟩
    simp only [bind, Except.bind] at h
    split_ifs at h
    exact (Except.ok.inj h).symm

theorem reported_iff_fails (h : Extracted pdf items failed) :
    Reported pdf (marked items failed) ↔ ∀ before page, before ++ [page] <+: pdf.pages →
      (pdf.Fails before page ↔ pdf.obtained before page = [] ∧ ¬ page.Blank) := by
  have hitem : ∀ before page, before ++ [page] <+: pdf.pages →
      (⟨before.length + 1, pdf.obtained before page⟩ : Item) ∈ items := fun before page hplace => by
    rw [h.items, Nat.add_comm]
    exact (at_iff hplace).mpr rfl
  have hmarked : ∀ before page, before ++ [page] <+: pdf.pages →
      ((∃ item ∈ marked items failed, item.pageNumber = before.length + 1 ∧
        item.extractionFailed = true) ↔ pdf.Fails before page) := fun before page hplace => by
    rw [← at_iff (n := 1) (P := pdf.Fails) hplace, ← h.failed, Nat.add_comm 1]
    constructor
    · rintro ⟨item, hmem, hnumber, hfailed⟩
      exact hnumber ▸ (mem_marked.mp hmem).2.2.mp hfailed
    · exact fun hmem => ⟨⟨_, _, true⟩, mem_marked.mpr
        ⟨hitem before page hplace, .inr hmem, iff_of_true rfl hmem⟩, rfl, rfl⟩
  constructor
  · exact fun hreported before page hplace =>
    (hmarked before page hplace).symm.trans (hreported.marked before page hplace)
  · refine fun hexact => ⟨fun item hmem => ?_, fun before page hplace hsome => ?_,
      fun before page hplace => (hmarked before page hplace).trans (hexact before page hplace)⟩
    · obtain ⟨before, page, hplace, hnumber, htext⟩ := (h.items _).mp (mem_marked.mp hmem).1
      exact ⟨before, page, hplace, hnumber.trans (Nat.add_comm _ _), htext⟩
    · exact ⟨⟨_, _, decide (before.length + 1 ∈ failed)⟩, mem_marked.mpr
        ⟨hitem before page hplace, .inl hsome, decide_eq_true_iff⟩, rfl, rfl⟩

theorem not_blank_of_none (h : page.text = none) : ¬ page.Blank := fun hblank => by
  rw [PdfPage.Blank, h] at hblank
  exact nomatch hblank.1

theorem embedded_of_blank (h : page.Blank) : page.embedded = [] := by
  obtain ⟨t, ht, hclean⟩ := Option.map_eq_some_iff.mp h.1
  rw [PdfPage.embedded, ht]
  exact hclean

theorem obtained_of_textless (hpdf : pdf.HasEmbedded) (h : page.embedded = []) :
    pdf.obtained before page =
      if pdf.Reaches before ∧ page.images = some true then page.recognized else [] := by
  rw [Pdf.obtained, if_pos hpdf, if_neg (not_not.mpr h)]

theorem obtained_of_blank (hpdf : pdf.HasEmbedded) (h : page.Blank) :
    pdf.obtained before page = [] := by
  rw [obtained_of_textless hpdf (embedded_of_blank h), h.2]
  exact if_neg fun hread => nomatch hread.2

theorem fails_iff_of_embedded (hpdf : pdf.HasEmbedded) (hplace : before ++ [page] <+: pdf.pages) :
    (pdf.Fails before page ↔ pdf.obtained before page = [] ∧ ¬ page.Blank) ↔
      (page.text = none → pdf.Reaches before → page.images = some true → page.recognized = []) ∧
        (¬ pdf.Completes → ¬ page.Blank) := by
  rw [Pdf.Fails, if_pos hpdf]
  constructor
  · refine fun h => ⟨fun hnone hreaches himages => ?_, fun hstops hblank => ?_⟩
    · have hnil := (h.mp (.inl hnone)).1
      rwa [obtained_of_textless hpdf (embedded_of_none hnone), if_pos ⟨hreaches, himages⟩] at hnil
    · exact (h.mp (.inr (.inr ⟨hstops, obtained_of_blank hpdf hblank⟩))).2 hblank
  · rintro ⟨hmended, hstopped⟩
    constructor
    · rintro (hnone | ⟨hopens, hreaches, htext, himages, hnil⟩ | ⟨hstops, hnil⟩)
      · rw [obtained_of_textless hpdf (embedded_of_none hnone)]
        refine ⟨?_, not_blank_of_none hnone⟩
        split_ifs with hread
        · exact hmended hnone hread.1 hread.2
        · rfl
      · rw [obtained_of_textless hpdf htext, if_pos ⟨⟨hopens, hreaches⟩, himages⟩]
        exact ⟨hnil, fun hblank => nomatch himages.symm.trans hblank.2⟩
      · exact ⟨hnil, hstopped hstops⟩
    · rintro ⟨hnil, hblank⟩
      by_cases hcompletes : pdf.Completes
      · obtain ⟨after, hpages⟩ := hplace
        have htext : page.embedded = [] := by
          by_contra hsome
          exact hsome (obtained_of_embedded hpdf hsome ▸ hnil)
        have hreaches : pdf.Reaches before := ⟨hcompletes.1, fun q hq =>
          hcompletes.2 q (hpages ▸ by simp [hq])⟩
        have hstops : ¬ page.Stops := hcompletes.2 page (hpages ▸ by simp)
        rcases hread : page.text with _ | t
        · exact .inl rfl
        · rcases himages : page.images with _ | _ | _
          · exact absurd ⟨htext, himages⟩ hstops
          · rw [PdfPage.embedded, hread] at htext
            exact absurd ⟨hread ▸ congrArg some htext, himages⟩ hblank
          · rw [obtained_of_textless hpdf htext, if_pos ⟨hreaches, himages⟩] at hnil
            exact .inr (.inl ⟨hcompletes.1, hreaches.2, htext, himages, hnil⟩)
      · exact .inr (.inr ⟨hcompletes, hnil⟩)

theorem fails_iff_of_scanned (hpdf : ¬ pdf.HasEmbedded) :
    (pdf.Fails before page ↔ pdf.obtained before page = [] ∧ ¬ page.Blank) ↔
      (clean page.recognized = [] → (page.ocr = .raised ↔ ¬ page.Blank)) := by
  rw [Pdf.Fails, if_neg hpdf, Pdf.obtained, if_neg hpdf]
  constructor
  · exact fun h hnil => h.trans (and_iff_right hnil)
  · intro h
    constructor
    · intro hraised
      have hnil : clean page.recognized = [] := by
        rw [PdfPage.recognized, hraised]
        rfl
      exact ⟨hnil, (h hnil).mp hraised⟩
    · exact fun hexact => (h hexact.1).mpr hexact.2

/-- **The pages that could not be read are marked and no others when no pass mends what an earlier
one reports, one that stops leaves no blank page, and OCR fails on pages that are not blank alone.**
-/
theorem reported_iff {out : List SourcePage} (h : extractSourcePages settings pdf = .ok out) :
    Reported pdf out ↔ ExactlyRead pdf := by
  obtain ⟨items, failed, hpages, rfl⟩ := extractSourcePages_ok h
  have hplaces : ∀ page ∈ pdf.pages, ∃ before, before ++ [page] <+: pdf.pages := by
    intro page hpage
    obtain ⟨before, after, hsplit⟩ := List.append_of_mem hpage
    exact ⟨before, after, by rw [hsplit, List.append_assoc, List.singleton_append]⟩
  rw [reported_iff_fails (extracted_extractPdfPages hpages)]
  by_cases hpdf : pdf.HasEmbedded
  · constructor
    · intro hexact
      refine ⟨fun _ before page hplace => ?_, fun _ hstops page hpage => ?_,
        fun hscanned => absurd hpdf hscanned⟩
      · exact ((fails_iff_of_embedded hpdf hplace).mp (hexact before page hplace)).1
      · obtain ⟨before, hplace⟩ := hplaces page hpage
        exact ((fails_iff_of_embedded hpdf hplace).mp (hexact before page hplace)).2 hstops
    · exact fun hread before page hplace => (fails_iff_of_embedded hpdf hplace).mpr
        ⟨hread.embedded hpdf before page hplace,
          fun hstops => hread.completes hpdf hstops page (hplace.subset (by simp))⟩
  · constructor
    · refine fun hexact => ⟨fun hembedded => absurd hembedded hpdf,
        fun hembedded => absurd hembedded hpdf, fun _ page hpage => ?_⟩
      obtain ⟨before, hplace⟩ := hplaces page hpage
      exact (fails_iff_of_scanned hpdf).mp (hexact before page hplace)
    · exact fun hread before page hplace => (fails_iff_of_scanned hpdf).mpr
        (hread.ocr hpdf page (hplace.subset (by simp)))

/-- A page of text, one of an image that OCR reads, one of an image it reads nothing on, and a blank
one. -/
def annexed : Pdf where
  reads := true
  opens := true
  cause := []
  pages := [⟨some "Policy".toList, some false, .raised⟩, ⟨some [], some true, .lines "Annex".toList⟩,
    ⟨some [], some true, .raised⟩, ⟨some [], some false, .raised⟩]

theorem reported_iff_annexed : ∃ out, extractSourcePages ⟨500, 2000000⟩ annexed = .ok out ∧
    out = [⟨1, "Policy".toList, false⟩, ⟨2, "Annex".toList, false⟩, ⟨3, [], true⟩] ∧
    (Reported annexed out ↔ ExactlyRead annexed) ∧ ExactlyRead annexed := by
  have hok : extractSourcePages ⟨500, 2000000⟩ annexed = .ok
      [⟨1, "Policy".toList, false⟩, ⟨2, "Annex".toList, false⟩, ⟨3, [], true⟩] := by decide +kernel
  have hread : ∀ page ∈ annexed.pages, page.text ≠ none ∧ ¬ page.Stops := by decide +kernel
  refine ⟨_, hok, rfl, reported_iff hok, ?_, ?_, ?_⟩
  · exact fun _ _ page hplace htext => absurd htext (hread page (hplace.subset (by simp))).1
  · exact fun _ hstops => absurd ⟨rfl, fun page hpage => (hread page hpage).2⟩ hstops
  · exact fun hscanned => absurd (by decide +kernel) hscanned

/-- A page of text, one whose text stream is broken and whose image OCR reads, and a blank one. -/
def repaired : Pdf where
  reads := true
  opens := true
  cause := []
  pages := [⟨some "Policy".toList, some false, .raised⟩, ⟨none, some true, .lines "Annex".toList⟩,
    ⟨some [], some false, .raised⟩]

/-- The page that OCR reads is marked all the same. -/
theorem read_page_marked : ∃ settings pdf out, extractSourcePages settings pdf = .ok out ∧
    ¬ Reported pdf out := by
  refine ⟨⟨500, 2000000⟩, repaired, [⟨1, "Policy".toList, false⟩, ⟨2, "Annex".toList, true⟩],
    by decide +kernel, fun h => ?_⟩
  have hmarked := h.marked [⟨some "Policy".toList, some false, .raised⟩]
    ⟨none, some true, .lines "Annex".toList⟩ ⟨[⟨some [], some false, .raised⟩], rfl⟩
  exact absurd (hmarked.mp ⟨⟨2, "Annex".toList, true⟩, by simp, rfl, rfl⟩).1 (by decide +kernel)

end QnscKb.Sources
