import QnscKb.Review.Splitter

/-!
# Review — Page ranges

Review candidates should point at their pages: the spans cover the text, the body is the text of the
span, and the first and last page are those whose own text overlaps it (`Pointed`).

The spans and bodies do.  The scan for the pages asks of the first page whether the range ends after
its start, and of the last whether it starts before its end, leaves out page breaks and the white
space in front, and so finds the ends of the page list.
-/

namespace QnscKb.Splitter

open Spans (slice Covers)
open Text (isSpace strip)

/-! ### The property -/

def nextPlace (place : Nat) (page : Page) : Nat :=
  if page.text.isEmpty then place else place + page.text.length + pageBreak.length

/-- The pages and where their own texts start in the joined text, from a place on. -/
def placedFrom (place : Nat) : List Page → List (Nat × Page)
  | [] => []
  | page :: pages => (place, page) :: placedFrom (nextPlace place page) pages

/-- The page has a character in the range. -/
def overlaps (start stop : Nat) (placed : Nat × Page) : Bool :=
  decide (max start placed.1 < min stop (placed.1 + placed.2.text.length))

/-- The numbers of the pages that overlap a range of the joined text. -/
def pagesIn (pages : List Page) (start stop : Nat) : List Nat :=
  ((placedFrom 0 pages).filter (overlaps start stop)).map (·.2.pageNumber)

/-- The white space in front of a text, which the offsets do not count. -/
def lead (text : Text) : Nat := (text.takeWhile isSpace).length

/-- The first and the last page of a candidate are those that overlap its span. -/
structure Paged (text : Text) (pages : List Page) (c : Candidate) : Prop where
  start : c.sourcePosition.pageStart =
    (pagesIn pages (lead text + c.sourceStart) (lead text + c.sourceEnd)).head?
  stop : c.sourcePosition.pageEnd =
    (pagesIn pages (lead text + c.sourceStart) (lead text + c.sourceEnd)).getLast?

/-- The candidates of a text cover it, carry its text and name its pages. -/
structure Pointed (text : Text) (pages : List Page) (candidates : List Candidate) : Prop where
  covers : Covers isSpace (strip text) 0 (candidates.map fun c => (c.sourceStart, c.sourceEnd))
  body : ∀ c ∈ candidates, c.bodyMd = strip (slice (strip text) c.sourceStart c.sourceEnd)
  offsets : ∀ c ∈ candidates, c.sourcePosition.offsetStart = c.sourceStart ∧
    c.sourcePosition.offsetEnd = c.sourceEnd
  paged : ∀ c ∈ candidates, Paged text pages c

/-- Every character is white space. -/
def Blank (text : Text) : Prop := ∀ c ∈ text, isSpace c = true

/-- There is no text, at most one page, or one candidate between two pages that are not blank. -/
def Ended (autoSplit : Bool) (text : Text) (pages : List Page) : Prop :=
  Blank text ∨ pages.length ≤ 1 ∨
    (((strip text).length ≤ MAX_REVIEW_CANDIDATE_CHARS ∨ autoSplit = false) ∧
      (∀ p ∈ pages.head?, ¬Blank p.text) ∧ ∀ q ∈ pages.getLast?, ¬Blank q.text)

/-! ### The joined text -/

theorem join_append_cons (sep : Text) (texts : List Text) (t : Text) (rest : List Text) :
    Text.join sep (texts ++ t :: rest) =
      (texts.map (· ++ sep)).flatten ++ Text.join sep (t :: rest) := by
  induction texts with
  | nil => rfl
  | cons first texts ih =>
    obtain ⟨next, others, hnext⟩ : ∃ next others, texts ++ t :: rest = next :: others :=
      List.exists_cons_of_ne_nil (by simp)
    rw [List.cons_append, hnext, Text.join_cons_cons, ← hnext, ih]
    simp

/-- What stands in front of the pages after some. -/
def front (pages : List Page) : Text :=
  (((pages.map (·.text)).filter (!·.isEmpty)).map (· ++ pageBreak)).flatten

theorem front_cons (page : Page) (pages : List Page) (place : Nat) :
    place + (front (page :: pages)).length = nextPlace place page + (front pages).length := by
  rw [nextPlace]
  split_ifs with hempty
  · simp [front, hempty]
  · simp [front, hempty, Nat.add_assoc]

theorem placedFrom_append (place : Nat) (before after : List Page) :
    placedFrom place (before ++ after) =
      placedFrom place before ++ placedFrom (place + (front before).length) after := by
  induction before generalizing place with
  | nil => rfl
  | cons page before ih => rw [List.cons_append, placedFrom, placedFrom, ih, front_cons,
      List.cons_append]

theorem joined_append (before after : List Page) {page : Page} (h : page.text ≠ []) :
    ∃ rest, joined (before ++ page :: after) = front before ++ (page.text ++ rest) ∧
      (after = [] → rest = []) := by
  have htexts : ((page :: after).map (·.text)).filter (!·.isEmpty) =
      page.text :: (after.map (·.text)).filter (!·.isEmpty) := by
    simp [h]
  rw [joined, List.map_append, List.filter_append, htexts, join_append_cons]
  cases hrest : (after.map (·.text)).filter (!·.isEmpty) with
  | nil =>
    exact ⟨[], by simp [front, Text.join], fun _ => rfl⟩
  | cons next others =>
    refine ⟨pageBreak ++ Text.join pageBreak (next :: others), ?_, ?_⟩
    · rw [Text.join_cons_cons, front]
    · rintro rfl
      cases hrest

variable {pages : List Page}

theorem mem_placedFrom {place : Nat} {placed : Nat × Page} (h : placed ∈ placedFrom place pages) :
    ∃ before after,
      pages = before ++ placed.2 :: after ∧ placed.1 = place + (front before).length := by
  induction pages generalizing place with
  | nil => cases h
  | cons page pages ih =>
    rcases List.mem_cons.mp h with rfl | h
    · exact ⟨[], pages, rfl, rfl⟩
    · obtain ⟨before, after, hpages, hplace⟩ := ih h
      refine ⟨page :: before, after, by rw [hpages, List.cons_append], ?_⟩
      rw [hplace, front_cons]

theorem lead_split (text : Text) : ∃ run, Blank run ∧
    text = text.takeWhile isSpace ++ (strip text ++ run) := by
  obtain ⟨run, hrun, hback⟩ := Text.rstrip_prefix (Text.lstrip text)
  refine ⟨run, hrun, ?_⟩
  rw [strip, ← hback, Text.lstrip, List.takeWhile_append_dropWhile]

theorem lead_lt_iff {s t : Text} : lead (s ++ t) < s.length ↔ ¬Blank s := by
  constructor
  · intro hlt hblank
    rw [lead, List.takeWhile_append_of_pos hblank, List.length_append] at hlt
    omega
  · intro hinked
    rw [lead, List.takeWhile_append]
    split_ifs with hall
    · refine absurd (fun c hc => ?_) hinked
      have hsame : s.takeWhile isSpace = s :=
        (List.takeWhile_prefix isSpace).eq_of_length hall
      rw [← hsame] at hc
      exact List.mem_takeWhile_imp hc
    · exact Nat.lt_of_le_of_ne (List.takeWhile_prefix isSpace).length_le hall

theorem lt_lead_iff {s t : Text} (h : ¬Blank (s ++ t)) :
    s.length < lead (s ++ t) + (strip (s ++ t)).length ↔ ¬Blank t := by
  have hreach : lead (s ++ t) + (strip (s ++ t)).length = (Text.rstrip (s ++ t)).length := by
    have hlstrip : ¬Blank (Text.lstrip (s ++ t)) := by
      intro hblank
      refine h fun c hc => ?_
      rw [← List.takeWhile_append_dropWhile (p := isSpace) (l := s ++ t)] at hc
      rcases List.mem_append.mp hc with hc | hc
      · exact List.mem_takeWhile_imp hc
      · exact hblank c hc
    have hsplit := Text.rstrip_append hlstrip ((s ++ t).takeWhile isSpace)
    rw [Text.lstrip, List.takeWhile_append_dropWhile] at hsplit
    rw [hsplit, List.length_append, lead, strip, Text.lstrip]
  rw [hreach]
  constructor
  · intro hlt hblank
    rw [Text.rstrip_append_run hblank] at hlt
    obtain ⟨run, -, hs⟩ := Text.rstrip_prefix s
    have hlength := congrArg List.length hs
    rw [List.length_append] at hlength
    omega
  · intro hinked
    rw [Text.rstrip_append hinked, List.length_append]
    have hrest : Text.rstrip t ≠ [] := by
      intro hnil
      obtain ⟨run, hrun, ht⟩ := Text.rstrip_prefix t
      rw [hnil] at ht
      rw [ht] at hinked
      exact hinked hrun
    have hlength := List.length_pos_iff.mpr hrest
    omega

variable {start stop : Nat}

theorem foldl_scanPage_cursor (scan : Scan) :
    scan.cursor ≤ (pages.foldl (scanPage start stop) scan).cursor ∧
      ∀ page ∈ pages, page.text.length ≤ (pages.foldl (scanPage start stop) scan).cursor := by
  induction pages generalizing scan with
  | nil => exact ⟨le_rfl, fun page h => absurd h List.not_mem_nil⟩
  | cons page pages ih =>
    obtain ⟨hforward, hover⟩ := ih (scanPage start stop scan page)
    have hpage : scan.cursor + page.text.length ≤
        (pages.foldl (scanPage start stop) (scanPage start stop scan page)).cursor := hforward
    exact ⟨(Nat.le_add_right _ _).trans hpage,
      List.forall_mem_cons.mpr ⟨(Nat.le_add_left _ _).trans hpage, hover⟩⟩

theorem foldl_scanPage_first {n : Nat} (pages : List Page) {scan : Scan} (h : scan.first = some n) :
    (pages.foldl (scanPage start stop) scan).first = some n := by
  induction pages generalizing scan with
  | nil => exact h
  | cons page pages ih =>
    have hkept : (scanPage start stop scan page).first = some n := by simp [scanPage, h]
    exact ih hkept

theorem scanned_first (h : 0 < stop) (page : Page) (pages : List Page) :
    (scanned (page :: pages) start stop).first = some page.pageNumber :=
  foldl_scanPage_first pages (if_pos ⟨rfl, h⟩)

theorem scanned_last {page last : Page} (hpage : page ∈ pages ++ [last])
    (h : start < page.text.length) :
    (scanned (pages ++ [last]) start stop).last = some last.pageNumber := by
  rw [scanned, List.foldl_append]
  refine if_pos (h.trans_le ?_)
  rcases List.mem_append.mp hpage with hfirst | hlast
  · exact ((foldl_scanPage_cursor ⟨0, none, none⟩).2 page hfirst).trans (Nat.le_add_right _ _)
  · cases List.mem_singleton.mp hlast
    exact Nat.le_add_left _ _

/-! ### The pages of a candidate -/

section Ends

variable {first last : Page} {pages rest : List Page}

theorem pageNumber_pos (source : PageTexts) {page : Page} (h : page ∈ source.pages) :
    0 < page.pageNumber :=
  (List.pairwise_cons.mp source.numbered).1 _ (List.mem_map_of_mem h)

theorem pageNumber_lt (source : PageTexts) :
    source.pages.Pairwise (·.pageNumber < ·.pageNumber) :=
  List.pairwise_map.mp (List.pairwise_cons.mp source.numbered).2

/-- The pages of a candidate are the ends of the list. -/
theorem position_pageStart (hrest : pages = first :: rest) (start : Nat) {stop : Nat}
    (hstop : 0 < stop) (heading : Option Text) :
    (position pages start stop heading).pageStart = some first.pageNumber := by
  rw [hrest]
  exact scanned_first hstop first rest

variable {source : PageTexts}

theorem position_pageEnd (hrest : source.pages = first :: rest)
    (hpages : source.pages = pages ++ [last]) {start : Nat} (stop : Nat)
    (hstart : start < first.text.length) (heading : Option Text) :
    (position source.pages start stop heading).pageEnd = some last.pageNumber := by
  have hmem : first ∈ pages ++ [last] := by
    rw [← hpages, hrest]
    exact List.mem_cons_self
  have hpos : last.pageNumber ≠ 0 :=
    (pageNumber_pos source (hpages ▸ List.mem_append_right _ List.mem_cons_self)).ne'
  rw [position, hpages]
  rw [scanned_last hmem hstart]
  simp [hpos]

theorem mem_of_placed {place : Nat} {placed : Nat × Page} {pages : List Page}
    (h : placed ∈ placedFrom place pages) : placed.2 ∈ pages := by
  obtain ⟨before, after, hpages, -⟩ := mem_placedFrom h
  rw [hpages]
  exact List.mem_append_right _ List.mem_cons_self

theorem pagesIn_head (hrest : source.pages = first :: rest) (start stop : Nat) :
    (pagesIn source.pages start stop).head? = some first.pageNumber ↔
      overlaps start stop (0, first) = true := by
  rw [pagesIn, hrest, placedFrom]
  constructor
  · intro hhead
    obtain ⟨placed, hplaced, hnumber⟩ := List.mem_map.mp (List.mem_of_head? hhead)
    obtain ⟨hmem, hover⟩ := List.mem_filter.mp hplaced
    rcases List.mem_cons.mp hmem with rfl | hmem
    · exact hover
    -- a later page has a greater number
    · have hlt := pageNumber_lt source
      rw [hrest] at hlt
      have hless := (List.pairwise_cons.mp hlt).1 _ (mem_of_placed hmem)
      omega
  · intro hover
    rw [List.filter_cons_of_pos hover]
    rfl

theorem pagesIn_getLast (hpages : source.pages = pages ++ [last]) (start stop : Nat) :
    (pagesIn source.pages start stop).getLast? = some last.pageNumber ↔
      overlaps start stop ((front pages).length, last) = true := by
  rw [pagesIn, hpages, placedFrom_append, Nat.zero_add]
  constructor
  · intro hlast
    obtain ⟨placed, hplaced, hnumber⟩ := List.mem_map.mp (List.mem_of_getLast? hlast)
    obtain ⟨hmem, hover⟩ := List.mem_filter.mp hplaced
    rcases List.mem_append.mp hmem with hmem | hmem
    -- an earlier page has a smaller number
    · have hlt := pageNumber_lt source
      rw [hpages] at hlt
      have hless := (List.pairwise_append.mp hlt).2.2 _ (mem_of_placed hmem) last
        List.mem_cons_self
      omega
    · rw [List.mem_singleton.mp hmem] at hover
      exact hover
  · intro hover
    rw [placedFrom, placedFrom, List.filter_append, List.filter_cons_of_pos hover]
    simp

theorem paged_iff (hrest : source.pages = first :: rest) (hpages : source.pages = pages ++ [last])
    {text : Text} {part : Part} (hspan : part.sourceStart < part.sourceEnd) :
    Paged text source.pages (part.located source.pages) ↔
      lead text + part.sourceStart < first.text.length ∧
        overlaps (lead text + part.sourceStart) (lead text + part.sourceEnd)
          ((front pages).length, last) = true := by
  have hover : overlaps (lead text + part.sourceStart) (lead text + part.sourceEnd) (0, first) =
      true ↔ lead text + part.sourceStart < first.text.length := by
    rw [overlaps, decide_eq_true_iff]
    dsimp only
    omega
  have hfirst := position_pageStart hrest part.sourceStart (Nat.zero_lt_of_lt hspan) part.heading
  constructor
  · intro h
    have hstart := hover.mp ((pagesIn_head hrest _ _).mp (h.start.symm.trans hfirst))
    have hlast := position_pageEnd hrest hpages part.sourceEnd
      (Nat.lt_of_le_of_lt (Nat.le_add_left _ _) hstart) part.heading
    exact ⟨hstart, (pagesIn_getLast hpages _ _).mp (h.stop.symm.trans hlast)⟩
  · rintro ⟨hstart, hstop⟩
    have hlast := position_pageEnd hrest hpages part.sourceEnd
      (Nat.lt_of_le_of_lt (Nat.le_add_left _ _) hstart) part.heading
    exact ⟨hfirst.trans ((pagesIn_head hrest _ _).mpr (hover.mpr hstart)).symm,
      hlast.trans ((pagesIn_getLast hpages _ _).mpr hstop).symm⟩

end Ends

/-! ### The condition -/

section Condition

variable {autoSplit : Bool} (title : Text) {text : Text}

theorem exists_parts_apart
    (h : ¬((strip text).length ≤ MAX_REVIEW_CANDIDATE_CHARS ∨ autoSplit = false)) :
    ∃ a ∈ parts autoSplit title (strip text), ∃ b ∈ parts autoSplit title (strip text),
      a.sourceEnd ≤ b.sourceStart := by
  obtain ⟨hlong, hsplit⟩ := not_or.mp h
  have hne : strip text ≠ [] := by
    rintro hnil
    rw [hnil] at hlong
    exact hlong (Nat.zero_le _)
  have hparts : parts autoSplit title (strip text) = partsFrom title (strip text) 0 1 := by
    rw [parts, if_neg (by simpa using hne), if_neg h, largeDocumentCandidates]
  have hcover := partsFrom_cover title (strip text) 0 1
  have hlength := List.length_pos_iff.mpr hne
  -- the first and the last character are in two parts, since one is not long enough
  obtain ⟨c, hc⟩ : ∃ c, (strip text)[0]? = some c := ⟨_, List.getElem?_eq_getElem hlength⟩
  obtain ⟨d, hd⟩ : ∃ d, (strip text)[(strip text).length - 1]? = some d :=
    ⟨_, List.getElem?_eq_getElem (Nat.sub_one_lt hlength.ne')⟩
  obtain ⟨_, hamem, hafrom, hato⟩ := hcover.inked 0 c le_rfl hc
    (Text.strip_head text c (by rw [List.head?_eq_getElem?, hc]; rfl))
  obtain ⟨_, hbmem, hbfrom, hbto⟩ := hcover.inked _ d (Nat.zero_le _) hd
    (Text.strip_last text d (by rw [List.getLast?_eq_getElem?, hd]; rfl))
  obtain ⟨a, ha, rfl⟩ := List.mem_map.mp hamem
  obtain ⟨b, hb, rfl⟩ := List.mem_map.mp hbmem
  have hashort := partsFrom_short title (strip text) 0 1 a ha
  rw [hparts]
  refine ⟨a, ha, b, hb, ?_⟩
  rcases hcover.eq_or_apart hamem hbmem with heq | hle | hle
  · rw [Part.span, Part.span, Prod.mk.injEq] at heq
    rw [Part.span] at hafrom hbto
    omega
  · exact hle
  · rw [Part.span, Part.span] at hle
    rw [Part.span] at hafrom hbto
    omega

theorem exists_part (autoSplit : Bool) (h : ¬Blank text) :
    ∃ part, part ∈ parts autoSplit title (strip text) := by
  have hne : strip text ≠ [] := fun hnil => h (Text.strip_nil_iff.mp hnil)
  by_cases hwhole : (strip text).length ≤ MAX_REVIEW_CANDIDATE_CHARS ∨ autoSplit = false
  · refine ⟨wholePart title (strip text), ?_⟩
    rw [parts, if_neg (by simpa using hne), if_pos hwhole]
    exact List.mem_cons_self
  · obtain ⟨a, ha, -⟩ := exists_parts_apart title hwhole
    exact ⟨a, ha⟩

theorem parts_bounds {title : Text} {part : Part} (h : part ∈ parts autoSplit title (strip text)) :
    part.sourceStart < part.sourceEnd ∧ part.sourceEnd ≤ (strip text).length :=
  ((parts_cover autoSplit title (strip text)).bounds part.span (List.mem_map_of_mem h)).2

theorem pointed_iff_paged (pages : List Page) :
    Pointed text pages (splitDocumentCandidates autoSplit title text pages) ↔
      ∀ part ∈ parts autoSplit title (strip text), Paged text pages (part.located pages) := by
  rw [splitDocumentCandidates]
  constructor
  · intro h part hpart
    exact h.paged _ (List.mem_map_of_mem hpart)
  · intro h
    refine ⟨?_, ?_, ?_, List.forall_mem_map.mpr h⟩
    · rw [List.map_map]
      exact parts_cover autoSplit title (strip text)
    · exact List.forall_mem_map.mpr (parts_body autoSplit title text)
    · exact List.forall_mem_map.mpr fun part _ => ⟨rfl, rfl⟩

end Condition

/-! ### The ends of the list in the joined text -/

section Joined

variable {first last : Page} {pages : List Page}

theorem joined_first (rest : List Page) (h : first.text ≠ []) :
    ∃ back, joined (first :: rest) = first.text ++ back := by
  obtain ⟨back, hjoined, -⟩ := joined_append [] rest h
  exact ⟨back, hjoined⟩

theorem joined_last (h : last.text ≠ []) :
    joined (pages ++ [last]) = front pages ++ last.text := by
  obtain ⟨back, hjoined, hback⟩ := joined_append pages [] h
  rw [hjoined, hback rfl, List.append_nil]

theorem joined_single (page : Page) : joined [page] = page.text := by
  by_cases h : page.text = []
  · simp [joined, h, Text.join]
  · simp [joined, h, Text.join]

theorem length_first_le (pages : List Page) (h : first.text ≠ []) :
    first.text.length ≤ (front (first :: pages)).length := by
  have hcons := front_cons first pages 0
  rw [nextPlace, if_neg (by simpa using h)] at hcons
  omega

theorem lead_strip_le (text : Text) : lead text + (strip text).length ≤ text.length := by
  obtain ⟨back, -, htext⟩ := lead_split text
  have hlength := congrArg List.length htext
  simp only [List.length_append] at hlength
  rw [lead]
  omega

end Joined

/-! ### The theorem -/

section Theorem

variable {source : PageTexts} {autoSplit : Bool} {title text : Text} {first last : Page}
  {pages rest : List Page}

variable {part : Part}

theorem Paged.ends (hrest : source.pages = first :: rest) (hpages : source.pages = pages ++ [last])
    (hpart : part ∈ parts autoSplit title (strip text))
    (h : Paged text source.pages (part.located source.pages)) :
    lead text + part.sourceStart < first.text.length ∧
      (front pages).length < lead text + part.sourceEnd ∧ first.text ≠ [] ∧ last.text ≠ [] := by
  obtain ⟨hstart, hstop⟩ := (paged_iff hrest hpages (parts_bounds hpart).1).mp h
  rw [overlaps, decide_eq_true_iff] at hstop
  refine ⟨hstart, by omega, ?_, ?_⟩
  · rintro hnil
    rw [hnil, List.length_nil] at hstart
    omega
  · rintro hnil
    rw [hnil, List.length_nil] at hstop
    omega

theorem single_of_paged {middle : List Page} (hrest : source.pages = first :: rest)
    (hpages : source.pages = (first :: middle) ++ [last])
    (h : ∀ part ∈ parts autoSplit title (strip text),
      Paged text source.pages (part.located source.pages)) :
    (strip text).length ≤ MAX_REVIEW_CANDIDATE_CHARS ∨ autoSplit = false := by
  by_contra hmany
  obtain ⟨a, ha, b, hb, hle⟩ := exists_parts_apart title hmany
  obtain ⟨-, hafter, hfirst, -⟩ := (h a ha).ends hrest hpages ha
  obtain ⟨hbefore, -⟩ := (h b hb).ends hrest hpages hb
  have hfirstLast := length_first_le middle hfirst
  omega

theorem ended_of_paged (htext : source.pages ≠ [] → text = joined source.pages)
    (h : ∀ part ∈ parts autoSplit title (strip text),
      Paged text source.pages (part.located source.pages)) :
    Ended autoSplit text source.pages := by
  by_contra hended
  rw [Ended, not_or, not_or] at hended
  obtain ⟨hinked, htwo, hends⟩ := hended
  obtain ⟨first, rest, hrest⟩ : ∃ first rest, source.pages = first :: rest :=
    List.exists_cons_of_ne_nil fun hnil => htwo (by simp [hnil])
  obtain ⟨middle, last, hlast⟩ : ∃ middle last, rest = middle ++ [last] := by
    rcases List.eq_nil_or_concat' rest with hnil | hconcat
    · exact absurd (by simp [hrest, hnil]) htwo
    · exact hconcat
  have hpages : source.pages = (first :: middle) ++ [last] := by
    rw [hrest, hlast, List.cons_append]
  have hjoined := htext (by simp [hrest])
  obtain ⟨part, hpart⟩ := exists_part title autoSplit hinked
  obtain ⟨hstart, hstop, hfirstText, hlastText⟩ := (h part hpart).ends hrest hpages hpart
  refine hends ⟨single_of_paged hrest hpages h, ?_, ?_⟩
  · rw [hrest]
    rintro p hp
    cases Option.some.inj hp
    obtain ⟨back, hback⟩ := joined_first rest hfirstText
    rw [hrest, hback] at hjoined
    rw [hjoined] at hstart
    exact lead_lt_iff.mp (Nat.lt_of_le_of_lt (Nat.le_add_right _ _) hstart)
  · rw [hpages, List.getLast?_concat]
    rintro q hq
    cases Option.some.inj hq
    rw [hpages, joined_last hlastText] at hjoined
    have hbound := (parts_bounds hpart).2
    rw [hjoined] at hinked hstop hbound
    exact (lt_lead_iff hinked).mp (hstop.trans_le (Nat.add_le_add_left hbound _))

theorem paged_nil (part : Part) : Paged text [] (part.located []) := ⟨rfl, rfl⟩

theorem paged_single {page : Page} (hsource : source.pages = [page])
    (htext : text = joined source.pages) (hpart : part ∈ parts autoSplit title (strip text)) :
    Paged text source.pages (part.located source.pages) := by
  obtain ⟨hspan, hbound⟩ := parts_bounds hpart
  have hlength := lead_strip_le text
  have hpage : text.length = page.text.length := by rw [htext, hsource, joined_single]
  have hpages : source.pages = [] ++ [page] := hsource
  have hfront : (front []).length = 0 := rfl
  refine (paged_iff hsource hpages hspan).mpr ⟨by omega, ?_⟩
  rw [overlaps, decide_eq_true_iff]
  dsimp only
  omega

theorem paged_whole (hrest : source.pages = first :: rest)
    (hpages : source.pages = pages ++ [last]) (htext : text = joined source.pages)
    (hfirst : ¬Blank first.text) (hlast : ¬Blank last.text) :
    Paged text source.pages ((wholePart title (strip text)).located source.pages) := by
  have hfirstText : first.text ≠ [] := fun hnil => hfirst (by simp [hnil, Blank])
  have hlastText : last.text ≠ [] := fun hnil => hlast (by simp [hnil, Blank])
  have hlead : lead text < first.text.length := by
    obtain ⟨back, hback⟩ := joined_first rest hfirstText
    rw [htext, hrest, hback]
    exact lead_lt_iff.mpr hfirst
  have hjoined : text = front pages ++ last.text := by
    rw [htext, hpages, joined_last hlastText]
  have hinked : ¬Blank (front pages ++ last.text) :=
    fun hblank => hlast fun c hc => hblank c (List.mem_append_right _ hc)
  have hreach : (front pages).length < lead text + (strip text).length := by
    rw [hjoined]
    exact (lt_lead_iff hinked).mpr hlast
  have hlength := lead_strip_le text
  have hsize := congrArg List.length hjoined
  rw [List.length_append] at hsize
  have hstrip : 0 < (strip text).length := by
    rw [List.length_pos_iff]
    intro hnil
    rw [hjoined] at hnil
    exact hinked (Text.strip_nil_iff.mp hnil)
  refine (paged_iff hrest hpages hstrip).mpr ⟨hlead, ?_⟩
  rw [overlaps, decide_eq_true_iff, wholePart]
  dsimp only
  omega

theorem paged_of_ended (htext : source.pages ≠ [] → text = joined source.pages)
    (h : Ended autoSplit text source.pages) (hpart : part ∈ parts autoSplit title (strip text)) :
    Paged text source.pages (part.located source.pages) := by
  obtain ⟨hspan, hbound⟩ := parts_bounds hpart
  rcases h with hblank | hone | ⟨hwhole, hfirst, hlast⟩
  · rw [Text.strip_nil_iff.mpr hblank] at hbound
    exact absurd (hspan.trans_le hbound) (Nat.not_lt_zero _)
  · match hsource : source.pages with
    | [] => exact paged_nil part
    | [page] =>
      rw [← hsource]
      exact paged_single hsource (htext (by simp [hsource])) hpart
    | page :: next :: others => simp [hsource] at hone
  · rcases List.eq_nil_or_concat' source.pages with hnil | ⟨pages, last, hpages⟩
    · rw [hnil]
      exact paged_nil part
    · obtain ⟨first, rest, hrest⟩ : ∃ first rest, source.pages = first :: rest :=
        List.exists_cons_of_ne_nil (by simp [hpages])
      have hne : strip text ≠ [] := by
        intro hnil
        rw [hnil] at hbound
        exact absurd (hspan.trans_le hbound) (Nat.not_lt_zero _)
      rw [parts, if_neg (by simpa using hne), if_pos hwhole] at hpart
      rw [List.mem_singleton.mp hpart]
      exact paged_whole hrest hpages (htext (by simp [hrest])) (hfirst first (by simp [hrest]))
        (hlast last (by simp [hpages]))

end Theorem

/-- **The candidates point at their pages** exactly when there is no text, at most one page, or one
candidate between two pages that are not blank. -/
theorem pointed_iff (source : PageTexts) (autoSplit : Bool) (title text : Text)
    (htext : source.pages ≠ [] → text = joined source.pages) :
    Pointed text source.pages (splitDocumentCandidates autoSplit title text source.pages) ↔
      Ended autoSplit text source.pages := by
  rw [pointed_iff_paged]
  exact ⟨ended_of_paged htext, fun hended _ hpart => paged_of_ended htext hended hpart⟩

def bothRead : PageTexts := ⟨[⟨1, "ab".toList⟩, ⟨2, "cd".toList⟩], by decide⟩

def secondRead : PageTexts := ⟨[⟨1, []⟩, ⟨2, "abc".toList⟩], by decide⟩

theorem pointed_bothRead : Pointed "ab\n\ncd".toList bothRead.pages
    (splitDocumentCandidates false "Plan".toList "ab\n\ncd".toList bothRead.pages) :=
  (pointed_iff bothRead false "Plan".toList "ab\n\ncd".toList (fun _ => by decide +kernel)).mpr
    (.inr (.inr ⟨.inl (by decide +kernel), by
      rintro p hp
      cases Option.some.inj hp
      exact fun hblank => absurd (hblank 'a' (by decide +kernel)) (by decide), by
      rintro q hq
      cases Option.some.inj hq
      exact fun hblank => absurd (hblank 'c' (by decide +kernel)) (by decide)⟩))

/-- **The first page of a candidate is not its first page**: the unreadable page is named. -/
theorem textless_first_page : ¬Pointed (joined secondRead.pages) secondRead.pages
    (splitDocumentCandidates false "Plan".toList (joined secondRead.pages) secondRead.pages) := by
  intro h
  have hstart := (h.paged _ (List.mem_of_head? (by rfl))).start
  revert hstart
  decide +kernel

end QnscKb.Splitter
