import Mathlib.Data.List.GetD
import QnscKb.Ask.Context
import QnscKb.Lib.Words

/-!
# Evidence — Tables

The evidence a table of a document becomes (`_table_spec` of `src/domain/evidence_extraction.py`).
Its cells are what the readers of the formats yield: texts, numbers, booleans and blanks.
-/

namespace QnscKb.Evidence

open Ink (ink)
open Text (isSpace words)

def EVIDENCE_MAX_TABLE_ROWS : Nat := 500
def EVIDENCE_MAX_TABLE_COLUMNS : Nat := 40
def EVIDENCE_MAX_CELL_CHARS : Nat := 2000
def EVIDENCE_MAX_SEARCH_TEXT_CHARS : Nat := 20000

/-! ### Cells -/

/-- A value of another type, as `str` shows it; among them only zeros count as false. -/
structure Shown where
  text : Text
  zero : Bool
  zero_text : zero = true → text = "0.0".toList ∨ text = "-0.0".toList ∨ text = "0:00:00".toList

/-- A value of a cell. -/
inductive Cell
  | blank
  | text (t : Text)
  | integer (n : Int)
  | boolean (b : Bool)
  | other (value : Shown)

def Cell.falsy : Cell → Bool
  | .blank => true
  | .text t => t.isEmpty
  | .integer n => n == 0
  | .boolean b => !b
  | .other value => value.zero

/-- `str(value)`. -/
def Cell.str : Cell → Text
  | .blank => "None".toList
  | .text t => t
  | .integer n => Ask.decimalInt n
  | .boolean b => if b then "True".toList else "False".toList
  | .other value => value.text

/-- `" ".join(text.split())`. -/
def squeezed (t : Text) : Text := Text.join [' '] (words t)

def withoutNul (t : Text) : Text := t.filter (· != '\x00')

def cleanCell (cell : Cell) : Text :=
  (squeezed (withoutNul (if cell.falsy then [] else cell.str))).take EVIDENCE_MAX_CELL_CHARS

/-! ### Tables -/

/-- `structured_data`. -/
structure Structured where
  columns : List Text
  rows : List (List Text)
  deriving DecidableEq

/-- The part of the source that is read. -/
def window (rows : List (List Cell)) : List (List Cell) :=
  (rows.take (EVIDENCE_MAX_TABLE_ROWS + 1)).map (·.take EVIDENCE_MAX_TABLE_COLUMNS)

def cleanedRows (rows : List (List Cell)) : List (List Text) :=
  ((window rows).map (·.map cleanCell)).filter fun row => row.any fun cell => !cell.isEmpty

/-- `max((index + 1 for index, value in enumerate(row) if value), default=0)`. -/
def usedWidth (row : List Text) : Nat :=
  ((row.zipIdx.filter fun cell => !cell.1.isEmpty).map fun cell => cell.2 + 1).foldr max 0

def tableWidth (rows : List (List Text)) : Nat := (rows.map usedWidth).foldr max 0

/-- `row[:width] + [""] * max(0, width - len(row))`. -/
def fitted (width : Nat) (row : List Text) : List Text :=
  row.take width ++ List.replicate (width - row.length) []

def columnName (index : Nat) : Text := "Column ".toList ++ Ask.decimal (index + 1)

def columnNames (first : List Text) : List Text :=
  first.zipIdx.map fun cell => if cell.1.isEmpty then columnName cell.2 else cell.1

def structuredData (rows : List (List Cell)) : Option Structured :=
  let cleaned := cleanedRows rows
  let width := tableWidth cleaned
  match cleaned with
  | [] => none
  | first :: rest =>
    if width = 0 then none
    else some ⟨columnNames (fitted width first), rest.map (fitted width)⟩

/-- The evidence of a table; its kind and version are constants. -/
structure TableSpec where
  pageNumber : Nat
  label : Text
  searchText : Text
  structuredData : Structured
  contentHash : Text

/-- `search_text`, before it is cut. -/
def searchText (label : Text) (table : Structured) : Text :=
  label ++ "\n".toList ++
    Text.join "\n".toList ((table.columns :: table.rows).map (Text.join " | ".toList))

def tableSpec (hexdigest : Text → Text) (pageNumber : Nat) (label : Text)
    (rows : List (List Cell)) : Option TableSpec :=
  (structuredData rows).map fun table =>
    { pageNumber := pageNumber
      label := label.take 255
      searchText := (searchText label table).take EVIDENCE_MAX_SEARCH_TEXT_CHARS
      structuredData := table
      contentHash := hexdigest (searchText label table) }

/-! ### The property -/

/-- The text of a cell up to its white space; a missing one has none. -/
def cellText : Cell → Text
  | .blank => []
  | cell => squeezed cell.str

/-- The rows of the source, within the limits, that have a cell that is not blank. -/
def sourceRows (rows : List (List Cell)) : List (List Cell) :=
  (window rows).filter fun row => row.any fun cell => !(cellText cell).isEmpty

/-- The text at a place of a row, none past its end. -/
def textAt (row : List Cell) (column : Nat) : Text := (row[column]?.map cellText).getD []

/-- A column is named after its cell of the first row, or by its number. -/
structure Named (header : List Cell) (columns : List Text) : Prop where
  name : ∀ j < columns.length, columns.getD j [] =
    if textAt header j = [] then columnName j else textAt header j
  all : ∀ j, columns.length ≤ j → textAt header j = []

/-- One row for each row of the source, in order, each cell the text of the source's. -/
structure Rowed (data : List (List Cell)) (rows : List (List Text)) : Prop where
  length : rows.length = data.length
  cell : ∀ i j, (rows.getD i []).getD j [] = textAt (data.getD i []) j

/-- The table holds the rows of its source, the first of them as the names of the columns. -/
def Faithful (rows : List (List Cell)) : Option Structured → Prop
  | none => sourceRows rows = []
  | some table => ∃ header data, sourceRows rows = header :: data ∧
      Named header table.columns ∧ Rowed data table.rows

/-- A cell that keeps its text: it is no zero and not `False`, holds no NUL, and is not cut. -/
structure Sound (cell : Cell) : Prop where
  truthy : cell.falsy = true → cellText cell = []
  plain : '\x00' ∉ cellText cell
  short : (cellText cell).length ≤ EVIDENCE_MAX_CELL_CHARS

/-! ### One cell -/

variable {t : Text} {c : Char}

theorem mem_squeezed (h : c ∈ squeezed t) : c = ' ' ∨ c ∈ t := by
  rcases Text.mem_join h with hsep | ⟨word, hword, hc⟩
  · exact .inl (List.mem_singleton.mp hsep)
  · have hflat : c ∈ (words t).flatten := List.mem_flatten.mpr ⟨word, hword, hc⟩
    rw [Text.words_flatten] at hflat
    exact .inr (List.mem_of_mem_filter hflat)

theorem ink_squeezed (t : Text) : ink isSpace (squeezed t) = ink isSpace t := by
  have hblank : ∀ c ∈ [' '], isSpace c = true := List.forall_mem_singleton.mpr (by decide)
  rw [squeezed, Text.join, Ink.ink_intercalate hblank, ← Ink.ink_flatten, Text.words_flatten]
  exact List.filter_filter.trans (List.filter_congr fun c _ => Bool.and_self _)

theorem squeezed_nil_iff : squeezed t = [] ↔ ∀ c ∈ t, isSpace c = true := by
  constructor
  · intro h
    rw [← Ink.ink_eq_nil_iff, ← ink_squeezed, h, Ink.ink_nil]
  · intro h
    have hwords := Text.words_append_run h []
    rw [List.append_nil] at hwords
    rw [squeezed, hwords]
    rfl

theorem mem_ink : c ∈ ink isSpace t ↔ c ∈ t ∧ isSpace c = false := by
  rw [ink, List.mem_filter, Bool.not_eq_true']

theorem mem_squeezed_iff (h : isSpace c = false) : c ∈ squeezed t ↔ c ∈ t := by
  have hink : c ∈ ink isSpace (squeezed t) ↔ c ∈ ink isSpace t := by rw [ink_squeezed]
  rwa [mem_ink, mem_ink, and_iff_left h, and_iff_left h] at hink

variable {cell : Cell}

theorem cellText_of_truthy (h : cell.falsy = false) : cellText cell = squeezed cell.str := by
  cases cell with
  | blank => cases h
  | text t => rfl
  | integer n => rfl
  | boolean b => rfl
  | other value => rfl

theorem cleanCell_of_falsy (h : cell.falsy = true) : cleanCell cell = [] := by
  rw [cleanCell, if_pos h]
  rfl

theorem cleanCell_of_truthy (h : cell.falsy = false) :
    cleanCell cell = (squeezed (withoutNul cell.str)).take EVIDENCE_MAX_CELL_CHARS := by
  rw [cleanCell, if_neg (Bool.eq_false_iff.mp h)]

theorem not_mem_withoutNul (t : Text) : '\x00' ∉ withoutNul t := by
  rw [withoutNul, List.mem_filter]
  exact fun h => absurd h.2 (by decide)

/-- **A cell becomes its text** exactly when it is sound. -/
theorem cleanCell_eq_iff : cleanCell cell = cellText cell ↔ Sound cell := by
  constructor
  · intro h
    refine ⟨fun hfalsy => h.symm.trans (cleanCell_of_falsy hfalsy), ?_, ?_⟩
    · rw [← h]
      intro hnul
      rcases mem_squeezed (List.mem_of_mem_take hnul) with hspace | hmem
      · exact absurd hspace (by decide)
      · exact not_mem_withoutNul _ hmem
    · rw [← h]
      exact List.length_take_le _ _
  · rintro ⟨htruthy, hplain, hshort⟩
    cases hfalsy : cell.falsy with
    | true => rw [cleanCell_of_falsy hfalsy, htruthy hfalsy]
    | false =>
      rw [cellText_of_truthy hfalsy] at hplain hshort ⊢
      rw [mem_squeezed_iff (by decide)] at hplain
      have hsame : withoutNul cell.str = cell.str :=
        List.filter_eq_self.mpr fun c hc => bne_iff_ne.mpr fun hnul => hplain (hnul ▸ hc)
      rw [cleanCell_of_truthy hfalsy, hsame, List.take_of_length_le hshort]

theorem cleanCell_nil (h : cellText cell = []) : cleanCell cell = [] := by
  cases hfalsy : cell.falsy with
  | true => exact cleanCell_of_falsy hfalsy
  | false =>
    rw [cellText_of_truthy hfalsy, squeezed_nil_iff] at h
    have hnone : squeezed (withoutNul cell.str) = [] :=
      squeezed_nil_iff.mpr fun c hc => h c (List.mem_of_mem_filter hc)
    rw [cleanCell_of_truthy hfalsy, hnone, List.take_nil]

theorem cellText_ne_columnName (h : cleanCell cell = []) (j : Nat) :
    cellText cell ≠ columnName j := by
  intro hname
  have hletter : 'C' ∈ cellText cell := by
    rw [hname]
    exact List.mem_append_left _ (by decide)
  cases hfalsy : cell.falsy with
  | true =>
    -- the values that count as false are shown without the letter
    cases cell with
    | blank => cases hletter
    | text t =>
      rw [List.isEmpty_iff.mp hfalsy] at hletter
      cases hletter
    | integer n =>
      rw [beq_iff_eq.mp hfalsy] at hletter
      revert hletter
      decide
    | boolean b =>
      rw [(by simpa [Cell.falsy] using hfalsy : b = false)] at hletter
      revert hletter
      decide
    | other value =>
      have hstr : 'C' ∈ value.text := (mem_squeezed_iff (by decide)).mp hletter
      rcases value.zero_text hfalsy with htext | htext | htext <;> rw [htext] at hstr <;>
        revert hstr <;> decide
  | false =>
    rw [cellText_of_truthy hfalsy, mem_squeezed_iff (by decide)] at hletter
    have hkept : 'C' ∈ squeezed (withoutNul cell.str) :=
      (mem_squeezed_iff (by decide)).mpr (List.mem_filter.mpr ⟨hletter, by decide⟩)
    rw [cleanCell_of_truthy hfalsy, List.take_eq_nil_iff] at h
    rcases h with hzero | hnil
    · exact absurd hzero (by decide)
    · rw [hnil] at hkept
      cases hkept

/-! ### Rows of cells -/

def keptRows (rows : List (List Cell)) : List (List Cell) :=
  (window rows).filter fun row => row.any fun cell => !(cleanCell cell).isEmpty

theorem cleanedRows_eq (rows : List (List Cell)) :
    cleanedRows rows = (keptRows rows).map (·.map cleanCell) := by
  rw [cleanedRows, List.filter_map]
  congr 1
  refine List.filter_congr fun row _ => ?_
  rw [Function.comp_apply, List.any_map]
  rfl

theorem keptRows_eq_filter (rows : List (List Cell)) : keptRows rows =
    (sourceRows rows).filter fun row => row.any fun cell => !(cleanCell cell).isEmpty := by
  rw [sourceRows, List.filter_filter]
  refine List.filter_congr fun row _ => ?_
  cases hkept : row.any fun cell => !(cleanCell cell).isEmpty with
  | false => rfl
  | true =>
    obtain ⟨cell, hcell, hclean⟩ := List.any_eq_true.mp hkept
    have hshown : (row.any fun cell => !(cellText cell).isEmpty) = true := by
      refine List.any_eq_true.mpr ⟨cell, hcell, ?_⟩
      have hne : cleanCell cell ≠ [] := by simpa using hclean
      simpa using fun hnil => hne (cleanCell_nil hnil)
    rw [hshown, Bool.and_self]

theorem le_foldr_max {n : Nat} {numbers : List Nat} (h : n ∈ numbers) :
    n ≤ numbers.foldr max 0 := by
  induction numbers with
  | nil => cases h
  | cons m numbers ih =>
    rcases List.mem_cons.mp h with rfl | h
    · exact Nat.le_max_left _ _
    · exact (ih h).trans (Nat.le_max_right _ _)

variable {row : List Text}

theorem getD_of_usedWidth_le {j : Nat} (h : usedWidth row ≤ j) : row.getD j [] = [] := by
  by_contra hne
  have hsome : row[j]? = some (row.getD j []) := by
    rw [List.getD_eq_getElem?_getD] at hne ⊢
    cases hj : row[j]? with
    | none => exact absurd (by rw [hj]; rfl) hne
    | some cell => rfl
  have hle : j + 1 ≤ usedWidth row := by
    refine le_foldr_max (List.mem_map.mpr ⟨(row.getD j [], j), List.mem_filter.mpr ⟨?_, ?_⟩, rfl⟩)
    · rw [List.mem_zipIdx_iff_getElem?]
      exact hsome
    · simpa using hne
  omega

theorem getD_fitted {width : Nat} (h : usedWidth row ≤ width) (j : Nat) :
    (fitted width row).getD j [] = row.getD j [] := by
  rw [fitted]
  by_cases hj : j < width
  · by_cases hlength : j < row.length
    · rw [List.getD_append _ _ _ _ (by rw [List.length_take]; omega), List.getD_eq_getElem?_getD,
        List.getElem?_take_of_lt hj, List.getD_eq_getElem?_getD]
    · rw [List.getD_append_right _ _ _ _ (by rw [List.length_take]; omega),
        List.getD_eq_default _ _ (Nat.le_of_not_lt hlength), List.getD_eq_getElem?_getD,
        List.getElem?_replicate]
      split <;> rfl
  · rw [getD_of_usedWidth_le (h.trans (Nat.le_of_not_lt hj)), List.getD_eq_default]
    simp only [List.length_append, List.length_take, List.length_replicate]
    omega

theorem length_fitted (width : Nat) (row : List Text) : (fitted width row).length = width := by
  simp only [fitted, List.length_append, List.length_take, List.length_replicate]
  omega

theorem usedWidth_le_tableWidth {rows : List (List Text)} (h : row ∈ rows) :
    usedWidth row ≤ tableWidth rows :=
  le_foldr_max (List.mem_map_of_mem h)

theorem getD_columnNames {first : List Text} {j : Nat} (h : j < first.length) :
    (columnNames first).getD j [] =
      if first.getD j [] = [] then columnName j else first.getD j [] := by
  rw [columnNames, List.getD_eq_getElem?_getD, List.getElem?_map, List.getElem?_zipIdx,
    List.getElem?_eq_getElem h, List.getD_eq_getElem?_getD, List.getElem?_eq_getElem h]
  simp [List.isEmpty_iff]

/-! ### The table of a source -/

def cleanAt (row : List Cell) (column : Nat) : Text := (row.map cleanCell).getD column []

theorem cleanAt_eq (row : List Cell) (j : Nat) :
    cleanAt row j = (row[j]?.map cleanCell).getD [] := by
  rw [cleanAt, List.getD_eq_getElem?_getD, List.getElem?_map]

def keptWidth (rows : List (List Cell)) : Nat :=
  tableWidth ((keptRows rows).map (·.map cleanCell))

variable {rows : List (List Cell)} {row : List Cell}

theorem getD_kept (h : row ∈ keptRows rows) (j : Nat) :
    (fitted (keptWidth rows) (row.map cleanCell)).getD j [] = cleanAt row j :=
  getD_fitted (usedWidth_le_tableWidth (List.mem_map_of_mem h)) j

theorem cleanAt_eq_iff : (∀ j, cleanAt row j = textAt row j) ↔ ∀ cell ∈ row, Sound cell := by
  constructor
  · intro h cell hcell
    obtain ⟨j, hj⟩ := List.mem_iff_getElem?.mp hcell
    have hsame := h j
    rw [cleanAt_eq, textAt, hj] at hsame
    exact cleanCell_eq_iff.mp hsame
  · intro h j
    rw [cleanAt_eq, textAt]
    cases hj : row[j]? with
    | none => rfl
    | some cell => exact cleanCell_eq_iff.mpr (h cell (List.mem_of_getElem? hj))

theorem structuredData_nil (h : keptRows rows = []) : structuredData rows = none := by
  rw [structuredData, cleanedRows_eq, h]
  rfl

theorem keptWidth_pos (h : row ∈ keptRows rows) : keptWidth rows ≠ 0 := by
  obtain ⟨cell, hcell, hclean⟩ := List.any_eq_true.mp (List.mem_filter.mp h).2
  obtain ⟨j, hj⟩ := List.mem_iff_getElem?.mp hcell
  intro hzero
  have hnone := getD_of_usedWidth_le (j := j)
    ((usedWidth_le_tableWidth (List.mem_map_of_mem h)).trans (hzero.le.trans (Nat.zero_le j)))
  rw [List.getD_eq_getElem?_getD, List.getElem?_map, hj] at hnone
  rw [show cleanCell cell = [] from hnone] at hclean
  cases hclean

theorem structuredData_cons {header : List Cell} {data : List (List Cell)}
    (h : keptRows rows = header :: data) :
    structuredData rows = some
      ⟨columnNames (fitted (keptWidth rows) (header.map cleanCell)),
        data.map fun row => fitted (keptWidth rows) (row.map cleanCell)⟩ := by
  have hwidth := keptWidth_pos (h ▸ List.mem_cons_self : header ∈ keptRows rows)
  rw [structuredData, cleanedRows_eq, ← keptWidth, h, List.map_cons]
  dsimp only
  rw [if_neg hwidth, List.map_map]
  rfl

/-- A column is named alike by the cleaned cell and by its text when these are the same. -/
theorem columnName_eq_iff {j : ℕ} :
    (if cleanAt row j = [] then columnName j else cleanAt row j) =
        (if textAt row j = [] then columnName j else textAt row j) ↔
      cleanAt row j = textAt row j := by
  refine ⟨fun hsame => ?_, fun hsame => by rw [hsame]⟩
  cases hcell : row[j]? with
  | none => rw [cleanAt_eq, textAt, hcell]; rfl
  | some cell =>
    rw [cleanAt_eq, textAt, hcell] at hsame ⊢
    split_ifs at hsame with hclean htext htext
    · exact hclean.trans htext.symm
    · exact absurd hsame.symm (cellText_ne_columnName hclean j)
    · exact absurd (cleanCell_nil htext) hclean
    · exact hsame

theorem cleanAt_behind (h : row ∈ keptRows rows) {j : ℕ} (hj : keptWidth rows ≤ j) :
    cleanAt row j = [] := by
  rw [← getD_kept h, List.getD_eq_default]
  rwa [length_fitted]

theorem named_iff {header : List Cell} (h : header ∈ keptRows rows) :
    Named header (columnNames (fitted (keptWidth rows) (header.map cleanCell))) ↔
      ∀ j, cleanAt header j = textAt header j := by
  have hlength : (columnNames (fitted (keptWidth rows) (header.map cleanCell))).length =
      keptWidth rows := by
    rw [columnNames, List.length_map, List.length_zipIdx, length_fitted]
  have hname : ∀ j < keptWidth rows,
      (columnNames (fitted (keptWidth rows) (header.map cleanCell))).getD j [] =
        if cleanAt header j = [] then columnName j else cleanAt header j := by
    intro j hj
    rw [getD_columnNames (by rw [length_fitted]; exact hj), getD_kept h]
  constructor
  · rintro ⟨hnames, hall⟩ j
    rw [hlength] at hnames hall
    by_cases hj : j < keptWidth rows
    · have hsame := hnames j hj
      rw [hname j hj] at hsame
      exact columnName_eq_iff.mp hsame
    · rw [cleanAt_behind h (Nat.le_of_not_lt hj), hall j (Nat.le_of_not_lt hj)]
  · intro h'
    refine ⟨fun j hj => ?_, fun j hj => ?_⟩
    · rw [hname j (hlength ▸ hj)]
      exact columnName_eq_iff.mpr (h' j)
    · rw [← h' j]
      exact cleanAt_behind h (hlength ▸ hj)

/-- **The table's rows** are those of a source when there are as many and their cells read alike. -/
theorem rowed_iff {data source : List (List Cell)} (h : ∀ row ∈ data, row ∈ keptRows rows) :
    Rowed source (data.map fun row => fitted (keptWidth rows) (row.map cleanCell)) ↔
      data.length = source.length ∧
        ∀ i j, cleanAt (data.getD i []) j = textAt (source.getD i []) j := by
  have hcell : ∀ i j, ((data.map fun row =>
      fitted (keptWidth rows) (row.map cleanCell)).getD i []).getD j [] =
        cleanAt (data.getD i []) j := by
    intro i j
    rw [List.getD_eq_getElem?_getD (l := List.map _ data), List.getElem?_map,
      List.getD_eq_getElem?_getD (l := data)]
    cases hi : data[i]? with
    | none => rfl
    | some row => exact getD_kept (h row (List.mem_of_getElem? hi)) j
  constructor
  · rintro ⟨hlength, hcells⟩
    rw [List.length_map] at hlength
    exact ⟨hlength, fun i j => (hcell i j).symm.trans (hcells i j)⟩
  · rintro ⟨hlength, hcells⟩
    exact ⟨by rw [List.length_map, hlength], fun i j => (hcell i j).trans (hcells i j)⟩

/-! ### Faithful tables -/

/-- Every cell that is read keeps its text. -/
def AllSound (rows : List (List Cell)) : Prop := ∀ row ∈ window rows, ∀ cell ∈ row, Sound cell

theorem keptRows_of_sound (h : AllSound rows) : keptRows rows = sourceRows rows := by
  refine List.filter_congr fun row hrow => ?_
  rw [Bool.eq_iff_iff, List.any_eq_true, List.any_eq_true]
  refine exists_congr fun cell => and_congr_right fun hcell => ?_
  rw [cleanCell_eq_iff.mpr (h row hrow cell hcell)]

theorem sound_of_blank (hrow : row ∈ window rows) (h : row ∉ sourceRows rows) :
    ∀ cell ∈ row, Sound cell := by
  intro cell hcell
  have hblank : cellText cell = [] := by
    by_contra hne
    refine h (List.mem_filter.mpr ⟨hrow, List.any_eq_true.mpr ⟨cell, hcell, ?_⟩⟩)
    simpa using hne
  rw [← cleanCell_eq_iff, hblank]
  exact cleanCell_nil hblank

theorem faithful_of_sound (h : AllSound rows) : Faithful rows (structuredData rows) := by
  have hkept := keptRows_of_sound h
  cases hrows : keptRows rows with
  | nil =>
    rw [structuredData_nil hrows, Faithful, ← hkept, hrows]
  | cons header data =>
    have hmem : ∀ row ∈ header :: data, row ∈ keptRows rows := fun row hrow => hrows ▸ hrow
    have hread : ∀ row ∈ header :: data, ∀ j, cleanAt row j = textAt row j := fun row hrow =>
      cleanAt_eq_iff.mpr (h row (List.mem_of_mem_filter (hmem row hrow)))
    rw [structuredData_cons hrows]
    refine ⟨header, data, hkept ▸ hrows, ?_, ?_⟩
    · exact (named_iff (hmem header List.mem_cons_self)).mpr (hread header List.mem_cons_self)
    · refine (rowed_iff fun row hrow => hmem row (List.mem_cons_of_mem _ hrow)).mpr ⟨rfl, ?_⟩
      intro i j
      rw [List.getD_eq_getElem?_getD]
      cases hi : data[i]? with
      | none => rfl
      | some row => exact hread row (List.mem_cons_of_mem _ (List.mem_of_getElem? hi)) j

theorem sound_of_faithful (h : Faithful rows (structuredData rows)) : AllSound rows := by
  intro row hrow
  by_cases hsource : row ∈ sourceRows rows
  · cases hrows : keptRows rows with
    | nil =>
      rw [structuredData_nil hrows] at h
      rw [h] at hsource
      cases hsource
    | cons header data =>
      have hmem : ∀ row ∈ header :: data, row ∈ keptRows rows := fun row hrow => hrows ▸ hrow
      rw [structuredData_cons hrows] at h
      obtain ⟨header', data', hsame, hnamed, hrowed⟩ := h
      obtain ⟨hlength, hcells⟩ :=
        (rowed_iff fun row hrow => hmem row (List.mem_cons_of_mem _ hrow)).mp hrowed
      -- no row of the source is left out, since there are as many
      have hall : keptRows rows = sourceRows rows := by
        rw [keptRows_eq_filter, List.filter_eq_self, ← List.length_filter_eq_length_iff,
          ← keptRows_eq_filter, hrows, hsame, List.length_cons, List.length_cons, hlength]
      rw [hrows, hsame] at hall
      obtain ⟨rfl, rfl⟩ := List.cons.inj hall
      rw [hsame] at hsource
      rw [← cleanAt_eq_iff]
      rcases List.mem_cons.mp hsource with rfl | hdata
      · exact (named_iff (hmem row List.mem_cons_self)).mp hnamed
      · obtain ⟨i, hi⟩ := List.mem_iff_getElem?.mp hdata
        intro j
        have hcell := hcells i j
        rwa [List.getD_eq_getElem?_getD, hi] at hcell
  · exact sound_of_blank hrow hsource

/-- **A table holds what its source does** exactly when every cell that is read keeps its text. -/
theorem faithful_rows_iff (rows : List (List Cell)) :
    Faithful rows (structuredData rows) ↔ AllSound rows :=
  ⟨sound_of_faithful, faithful_of_sound⟩

end QnscKb.Evidence
