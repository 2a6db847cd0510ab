import Mathlib.Algebra.Order.Field.Rat
import Mathlib.Tactic.Linarith
import Mathlib.Tactic.Positivity
import Mathlib.Tactic.Ring
import QnscKb.Ask.Citations

/-!
# Ask — Numbers

The two readings of a table's cell as a number: `parse_decimal` (`src/domain/evidence_analytics.py`)
and `column_values` (`src/domain/agent/tools.py`), which takes the dots of a column grouped in
threes for thousands separators.  A `Decimal` is a rational; a chart's `float` is left out.
-/

namespace QnscKb.Ask

/-- The characters that `parse_decimal` and the pattern of grouped numbers name. -/
def numberMarks : List Char := ['.', ',', '-', '+', '=', '@', '%', '₫', '$', '€', '£']

/-- The decimal digits of Unicode, as `\d` knows them; no mark is one of them. -/
structure Numerals extends Unicode where
  digit_plain : ∀ c, (digit c).isSome = true → c ∉ numberMarks

def asciiNumerals : Numerals where
  toUnicode := ascii
  digit_plain c h := by
    have hdigit : c.isDigit = true := by simpa [ascii] using h
    intro hmark
    simp only [numberMarks, List.mem_cons, List.not_mem_nil, or_false] at hmark
    rcases hmark with rfl | rfl | rfl | rfl | rfl | rfl | rfl | rfl | rfl | rfl | rfl <;>
      exact absurd hdigit (by decide)

/-! ### Reading a number -/

def unsigned (t : Text) : Text := if t.head? = some '-' then t.tail else t

def natOf (digits : Text) : Nat := digits.foldl (fun n c => 10 * n + (c.toNat - '0'.toNat)) 0

/-- The number of some digits, the last `places` of them after the point. -/
def scaled (negative : Bool) (digits : Text) (places : Nat) : ℚ :=
  (if negative then -1 else 1) * natOf digits / 10 ^ places

/-- `Decimal(text)`, for a text of digits and points. -/
def readDecimal (t : Text) : Option ℚ :=
  let negative := t.head? == some '-'
  let whole := (unsigned t).takeWhile Char.isDigit
  match (unsigned t).dropWhile Char.isDigit with
  | [] => some (scaled negative whole 0)
  | '.' :: places =>
    if places.all Char.isDigit then some (scaled negative (whole ++ places) places.length) else none
  | _ :: _ => none

/-- `re.sub(r"[\s%₫$€£]", "", text)` keeps it. -/
def keptOfNumber (c : Char) : Bool :=
  !Text.isSpace c && !List.contains ['%', '₫', '$', '€', '£'] c

/-- `-?[0-9][0-9.,]*`, the whole text. -/
def plainNumber (t : Text) : Bool :=
  match unsigned t with
  | [] => false
  | c :: t => c.isDigit && t.all fun d => d.isDigit || d == '.' || d == ','

def withoutDots (t : Text) : Text := t.filter fun c => c != '.'

def withoutCommas (t : Text) : Text := t.filter fun c => c != ','

def commasToDots (t : Text) : Text := t.map fun c => if c = ',' then '.' else c

/-- The later of the last comma and the last dot. -/
def lastSeparator (t : Text) : Option Char := t.reverse.find? fun c => c == ',' || c == '.'

/-- The text `Decimal` is given: which of the separators is the point. -/
def pointed (t : Text) : Text :=
  if ',' ∈ t ∧ '.' ∈ t then
    if lastSeparator t = some ',' then commasToDots (withoutDots t) else withoutCommas t
  else if t.count ',' = 1 ∧ (t.reverse.takeWhile fun c => c != ',').length ≠ 3 then commasToDots t
  else withoutCommas t

/-- `parse_decimal`; `none` is its `ValueError`. -/
def parseDecimal (value : Text) : Option ℚ :=
  let t := Text.strip value
  if t.isEmpty || t.head?.any fun c => c == '=' || c == '+' || c == '@' then none
  else
    let t := t.filter keptOfNumber
    if plainNumber t then readDecimal (pointed t) else none

/-! ### Reading a column -/

section

variable (N : Numerals)

def Numerals.isDecimal (c : Char) : Bool := (N.digit c).isSome

/-- `(?:\.\d{3})*(?:,\d+)?$`. -/
def groupsThenFraction : Text → Bool
  | [] => true
  | '.' :: a :: b :: c :: t =>
    N.isDecimal a && N.isDecimal b && N.isDecimal c && groupsThenFraction t
  | ',' :: places => !places.isEmpty && places.all N.isDecimal
  | _ => false

def dotGrouped (t : Text) : Bool :=
  let first := (unsigned t).takeWhile N.isDecimal
  let rest := (unsigned t).dropWhile N.isDecimal
  1 ≤ first.length && first.length ≤ 3 && rest.head? == some '.' && groupsThenFraction N rest

/-- `str(cell).strip() if cell is not None else ""`. -/
def cellStripped (cell : Option Text) : Text := cell.elim [] Text.strip

def dotsAreThousands (cells : List (Option Text)) : Bool :=
  let dotted := (cells.map cellStripped).filter fun t => t.contains '.'
  !dotted.isEmpty && dotted.all (dotGrouped N)

/-- A text of a column whose dots are thousands separators. -/
def ungrouped (t : Text) : Text := if '.' ∈ t then commasToDots (withoutDots t) else t

/-- `column_values`, before `float`. -/
def columnValues (cells : List (Option Text)) : List (Option ℚ) :=
  cells.map fun cell =>
    parseDecimal (if dotsAreThousands N cells then ungrouped (cellStripped cell)
      else cellStripped cell)

end

theorem natOf_append (a b : Text) : natOf (a ++ b) = natOf a * 10 ^ b.length + natOf b := by
  induction b using List.reverseRecOn with
  | nil => simp [natOf]
  | append_singleton b c ih =>
    have hlast : ∀ t : Text, natOf (t ++ [c]) = 10 * natOf t + (c.toNat - '0'.toNat) := by
      intro t
      rw [natOf, List.foldl_append]
      rfl
    rw [← List.append_assoc, hlast, hlast, ih, List.length_append, List.length_singleton]
    ring

theorem natOf_eq_zero_iff {digits : Text} (h : ∀ c ∈ digits, c.isDigit = true) :
    natOf digits = 0 ↔ ∀ c ∈ digits, c = '0' := by
  induction digits with
  | nil => simp [natOf]
  | cons c digits ih =>
    obtain ⟨hc, hdigits⟩ := List.forall_mem_cons.mp h
    obtain ⟨hlo, -⟩ : 48 ≤ c.toNat ∧ c.toNat ≤ 57 := Char.isDigit_iff_toNat.mp hc
    have hzero : natOf [c] = 0 ↔ c = '0' := by
      rw [natOf, List.foldl_cons, List.foldl_nil]
      constructor
      · intro heq
        refine Char.toNat_inj.mp ?_
        have hval : '0'.toNat = 48 := rfl
        omega
      · rintro rfl
        rfl
    rw [show c :: digits = [c] ++ digits from rfl, natOf_append, Nat.add_eq_zero_iff, ih hdigits,
      Nat.mul_eq_zero, hzero, List.singleton_append, List.forall_mem_cons]
    exact and_congr_left fun _ => or_iff_left (Nat.pos_iff_ne_zero.mp (by positivity))

theorem scaled_thousand {negative : Bool} {digits : Text} :
    scaled negative digits 3 = scaled negative digits 0 ↔ natOf digits = 0 := by
  rw [scaled, scaled]
  constructor
  · intro heq
    have hzero : (natOf digits : ℚ) = 0 := by
      cases negative <;> norm_num at heq <;> linarith
    exact_mod_cast hzero
  · intro heq
    rw [heq]
    simp

theorem parseDecimal_strip (t : Text) : parseDecimal (Text.strip t) = parseDecimal t := by
  rw [parseDecimal, Text.strip_strip, parseDecimal]

/-! ### A number grouped in threes -/

def IsSign (sign : Text) : Prop := sign = [] ∨ sign = ['-']

/-- The parts of a number grouped in threes. -/
structure Grouped (N : Numerals) (t sign first rest : Text) : Prop where
  isSign : IsSign sign
  parts : t = sign ++ (first ++ rest)
  first_ne : first ≠ []
  first_decimal : ∀ c ∈ first, N.isDecimal c = true
  rest_dot : rest.head? = some '.'
  rest_groups : groupsThenFraction N rest = true

section

variable {N : Numerals} {t sign first rest : Text}

theorem Numerals.ne_mark (N : Numerals) {c m : Char} (h : N.isDecimal c = true)
    (hm : m ∈ numberMarks) : c ≠ m := fun heq => N.digit_plain c h (heq ▸ hm)

theorem Numerals.kept (N : Numerals) {c : Char} (h : N.isDecimal c = true) :
    keptOfNumber c = true := by
  rw [keptOfNumber, N.digit_visible c h, Bool.not_false, Bool.true_and, Bool.not_eq_true',
    List.contains_eq_mem, decide_eq_false_iff_not]
  intro hmem
  exact N.digit_plain c h (List.mem_append_right ['.', ',', '-', '+', '=', '@'] hmem)

theorem unsigned_sign {body : Text} (hsign : IsSign sign) (hbody : body.head? ≠ some '-') :
    unsigned (sign ++ body) = body := by
  rcases hsign with rfl | rfl
  · exact if_neg hbody
  · rfl

theorem Grouped.of_dotGrouped (h : dotGrouped N t = true) :
    ∃ sign first rest, Grouped N t sign first rest := by
  simp only [dotGrouped, Bool.and_eq_true, beq_iff_eq] at h
  obtain ⟨⟨⟨hfirst, -⟩, hdot⟩, hgroups⟩ := h
  have hparts : ∃ sign, IsSign sign ∧ t = sign ++ unsigned t := by
    by_cases hminus : t.head? = some '-'
    · refine ⟨['-'], .inr rfl, ?_⟩
      cases t with
      | nil => cases hminus
      | cons c t =>
        obtain rfl := Option.some.inj hminus
        rfl
    · exact ⟨[], .inl rfl, (if_neg hminus).symm⟩
  obtain ⟨sign, hsign, ht⟩ := hparts
  refine ⟨sign, (unsigned t).takeWhile N.isDecimal, _, hsign, ?_, ?_,
    fun c hc => List.mem_takeWhile_imp hc, hdot, hgroups⟩
  · rw [List.takeWhile_append_dropWhile]
    exact ht
  · intro hnil
    rw [hnil] at hfirst
    exact absurd hfirst (by decide)

theorem groups_chars {rest : Text} (h : groupsThenFraction N rest = true) :
    ∀ c ∈ rest, N.isDecimal c = true ∨ c = '.' ∨ c = ',' := by
  fun_induction groupsThenFraction N rest with
  | case1 => exact fun c hc => absurd hc List.not_mem_nil
  | case2 a b c t ih =>
    simp only [Bool.and_eq_true] at h
    obtain ⟨⟨⟨ha, hb⟩, hc⟩, ht⟩ := h
    simp only [List.forall_mem_cons]
    exact ⟨.inr (.inl trivial), .inl ha, .inl hb, .inl hc, ih ht⟩
  | case3 places =>
    simp only [Bool.and_eq_true, List.all_eq_true] at h
    exact List.forall_mem_cons.mpr ⟨.inr (.inr rfl), fun c hc => .inl (h.2 c hc)⟩
  | case4 => cases h

theorem groups_comma {rest : Text} (h : groupsThenFraction N rest = true) (hcomma : ',' ∈ rest) :
    lastSeparator rest = some ',' := by
  have hskip : ∀ {c : Char}, N.isDecimal c = true → (c == ',' || c == '.') = false := by
    intro c hc
    rw [Bool.or_eq_false_iff, beq_eq_false_iff_ne, beq_eq_false_iff_ne]
    exact ⟨N.ne_mark hc (by decide), N.ne_mark hc (by decide)⟩
  fun_induction groupsThenFraction N rest with
  | case1 => cases hcomma
  | case2 a b c t ih =>
    simp only [Bool.and_eq_true] at h
    obtain ⟨⟨⟨ha, hb⟩, hc⟩, ht⟩ := h
    have hmem : ',' ∈ t := by
      simp only [List.mem_cons] at hcomma
      rcases hcomma with hdot | rfl | rfl | rfl | hin
      · exact absurd hdot (by decide)
      · exact absurd rfl (N.ne_mark ha (by decide))
      · exact absurd rfl (N.ne_mark hb (by decide))
      · exact absurd rfl (N.ne_mark hc (by decide))
      · exact hin
    rw [lastSeparator, show '.' :: a :: b :: c :: t = ['.', a, b, c] ++ t from rfl,
      List.reverse_append, List.find?_append]
    have hlast := ih ht hmem
    rw [lastSeparator] at hlast
    rw [hlast]
    rfl
  | case3 places =>
    simp only [Bool.and_eq_true, List.all_eq_true] at h
    rw [lastSeparator, List.reverse_cons, List.find?_append, List.find?_eq_none.mpr]
    · rfl
    · intro c hc
      rw [hskip (h.2 c (List.mem_reverse.mp hc))]
      exact Bool.false_ne_true
  | case4 => cases h

/-- `[0-9.,]`. -/
def numberChar (c : Char) : Bool := c.isDigit || c == '.' || c == ','

theorem Grouped.first_head (h : Grouped N t sign first rest) (tail : Text) {m : Char}
    (hm : m ∈ numberMarks) : (first ++ tail).head? ≠ some m := by
  obtain ⟨c, more, hfirst⟩ := List.exists_cons_of_ne_nil h.first_ne
  rw [hfirst]
  intro heq
  exact N.ne_mark (h.first_decimal c (hfirst ▸ List.mem_cons_self ..)) hm (Option.some.inj heq)

theorem Grouped.unsigned (h : Grouped N t sign first rest) (tail : Text) :
    unsigned (sign ++ (first ++ tail)) = first ++ tail :=
  unsigned_sign h.isSign (h.first_head tail (by decide))

theorem Grouped.plainNumber (h : Grouped N t sign first rest) (tail : Text) :
    plainNumber (sign ++ (first ++ tail)) = (first ++ tail).all numberChar := by
  rw [Ask.plainNumber, h.unsigned]
  obtain ⟨c, more, hfirst⟩ := List.exists_cons_of_ne_nil h.first_ne
  have hc : N.isDecimal c = true := h.first_decimal c (hfirst ▸ List.mem_cons_self ..)
  have hdot : (c == '.') = false := beq_eq_false_iff_ne.mpr (N.ne_mark hc (by decide))
  have hcomma : (c == ',') = false := beq_eq_false_iff_ne.mpr (N.ne_mark hc (by decide))
  rw [hfirst, List.cons_append, List.all_cons, numberChar, hdot, hcomma, Bool.or_false,
    Bool.or_false]
  rfl

theorem Grouped.parseDecimal (h : Grouped N t sign first rest) {tail : Text}
    (htail : ∀ c ∈ tail, N.isDecimal c = true ∨ c = '.' ∨ c = ',') :
    parseDecimal (sign ++ (first ++ tail)) =
      if (first ++ tail).all numberChar then readDecimal (pointed (sign ++ (first ++ tail)))
      else none := by
  have hbody : ∀ c ∈ sign ++ (first ++ tail), keptOfNumber c = true := by
    intro c hc
    rcases List.mem_append.mp hc with hin | hin
    · rcases h.isSign with rfl | rfl
      · cases hin
      · exact List.mem_singleton.mp hin ▸ by decide
    · rcases List.mem_append.mp hin with hin | hin
      · exact N.kept (h.first_decimal c hin)
      · rcases htail c hin with hdec | rfl | rfl
        · exact N.kept hdec
        · decide
        · decide
  have hspace : ∀ c ∈ sign ++ (first ++ tail), Text.isSpace c = false := by
    intro c hc
    have hkept := hbody c hc
    rw [keptOfNumber, Bool.and_eq_true, Bool.not_eq_true'] at hkept
    exact hkept.1
  have hstrip : Text.strip (sign ++ (first ++ tail)) = sign ++ (first ++ tail) :=
    Text.strip_eq_self (fun c hc => hspace c (List.mem_of_mem_head? hc))
      (fun c hc => hspace c (List.mem_of_getLast? hc))
  have hmark : ∀ c ∈ (sign ++ (first ++ tail)).head?, c ≠ '=' ∧ c ≠ '+' ∧ c ≠ '@' := by
    rcases h.isSign with hnone | hminus
    · rw [hnone]
      intro c hc
      exact ⟨fun heq => h.first_head tail (m := '=') (by decide) (heq ▸ hc),
        fun heq => h.first_head tail (m := '+') (by decide) (heq ▸ hc),
        fun heq => h.first_head tail (m := '@') (by decide) (heq ▸ hc)⟩
    · rw [hminus]
      rintro c hc
      obtain rfl := Option.some.inj hc
      decide
  have hstart : ¬((sign ++ (first ++ tail)).isEmpty ||
      (sign ++ (first ++ tail)).head?.any fun c => c == '=' || c == '+' || c == '@') = true := by
    rw [Bool.or_eq_true, List.isEmpty_iff, Option.any_eq_true]
    rintro (hnil | ⟨c, hc, heq⟩)
    · exact h.first_ne (List.append_eq_nil_iff.mp (List.append_eq_nil_iff.mp hnil).2).1
    · obtain ⟨hequals, hplus, hat⟩ := hmark c hc
      simp [hequals, hplus, hat] at heq
  rw [Ask.parseDecimal, hstrip, if_neg hstart, List.filter_eq_self.mpr hbody]
  dsimp only
  rw [h.plainNumber]

/-! ### Without its dots -/

theorem pointed_of_no_comma {t : Text} (h : ',' ∉ t) : pointed t = t := by
  have hcount : t.count ',' = 0 := List.count_eq_zero.mpr h
  rw [pointed, if_neg fun hboth => h hboth.1, if_neg fun hone => by omega, withoutCommas,
    List.filter_eq_self]
  exact fun c hc => bne_iff_ne.mpr fun heq => h (heq ▸ hc)

theorem not_mem_commasToDots (t : Text) : ',' ∉ commasToDots t := by
  rw [commasToDots, List.mem_map]
  rintro ⟨c, -, heq⟩
  by_cases hc : c = ','
  · rw [if_pos hc] at heq
    exact absurd heq (by decide)
  · rw [if_neg hc] at heq
    exact hc heq

theorem ungroup_run {run : Text} (h : ∀ c ∈ run, c ≠ '.' ∧ c ≠ ',') (tail : Text) :
    commasToDots (withoutDots (run ++ tail)) = run ++ commasToDots (withoutDots tail) := by
  have hdots : run.filter (fun c => c != '.') = run :=
    List.filter_eq_self.mpr fun c hc => bne_iff_ne.mpr (h c hc).1
  have hcommas : run.map (fun c => if c = ',' then '.' else c) = run := by
    rw [List.map_congr_left fun c hc => if_neg (h c hc).2, List.map_id']
  rw [withoutDots, List.filter_append, hdots, commasToDots, List.map_append, hcommas]
  rfl

theorem all_ungroup (tail : Text) :
    (commasToDots (withoutDots tail)).all numberChar = tail.all numberChar := by
  induction tail with
  | nil => rfl
  | cons c tail ih =>
    by_cases hdot : c = '.'
    · subst hdot
      exact ih
    · have hkeep : withoutDots (c :: tail) = c :: withoutDots tail :=
        List.filter_cons_of_pos (bne_iff_ne.mpr hdot)
      rw [hkeep, commasToDots, List.map_cons, List.all_cons, List.all_cons, ← ih]
      by_cases hcomma : c = ','
      · subst hcomma
        rfl
      · rw [if_neg hcomma]
        rfl

theorem Grouped.sign_run (h : Grouped N t sign first rest) : ∀ c ∈ sign, c ≠ '.' ∧ c ≠ ',' := by
  intro c hc
  rcases h.isSign with rfl | rfl
  · cases hc
  · exact List.mem_singleton.mp hc ▸ by decide

theorem Grouped.first_run (h : Grouped N t sign first rest) : ∀ c ∈ first, c ≠ '.' ∧ c ≠ ',' :=
  fun c hc => ⟨N.ne_mark (h.first_decimal c hc) (by decide),
    N.ne_mark (h.first_decimal c hc) (by decide)⟩

theorem Grouped.dot_mem (h : Grouped N t sign first rest) : '.' ∈ t := by
  rw [h.parts]
  exact List.mem_append_right _ (List.mem_append_right _ (List.mem_of_mem_head? h.rest_dot))

theorem Grouped.ungrouped (h : Grouped N t sign first rest) :
    ungrouped t = sign ++ (first ++ commasToDots (withoutDots rest)) := by
  rw [Ask.ungrouped, if_pos h.dot_mem, h.parts, ungroup_run h.sign_run, ungroup_run h.first_run]

theorem Grouped.comma_iff (h : Grouped N t sign first rest) : ',' ∈ t ↔ ',' ∈ rest := by
  rw [h.parts, List.mem_append, List.mem_append]
  constructor
  · rintro (hin | hin | hin)
    · exact absurd rfl (h.sign_run _ hin).2
    · exact absurd rfl (h.first_run _ hin).2
    · exact hin
  · exact fun hin => .inr (.inr hin)

theorem Grouped.readings (h : Grouped N t sign first rest) :
    Ask.parseDecimal t = (if (first ++ rest).all numberChar then readDecimal (pointed t)
      else none) ∧
    Ask.parseDecimal (Ask.ungrouped t) =
      if (first ++ rest).all numberChar then readDecimal (Ask.ungrouped t) else none := by
  have hchars := groups_chars h.rest_groups
  have htail : ∀ c ∈ commasToDots (withoutDots rest), N.isDecimal c = true ∨ c = '.' ∨ c = ',' := by
    intro c hc
    obtain ⟨d, hd, rfl⟩ := List.mem_map.mp hc
    by_cases hcomma : d = ','
    · exact .inr (.inl (if_pos hcomma))
    · rw [if_neg hcomma]
      exact hchars d (List.mem_of_mem_filter hd)
  constructor
  · have hread := h.parseDecimal hchars
    rwa [← h.parts] at hread
  · have hread := h.parseDecimal htail
    have hpointed : pointed (Ask.ungrouped t) = Ask.ungrouped t := by
      refine pointed_of_no_comma ?_
      rw [Ask.ungrouped, if_pos h.dot_mem]
      exact not_mem_commasToDots _
    rw [← h.ungrouped, hpointed, List.all_append, all_ungroup, ← List.all_append] at hread
    exact hread

/-- **With a comma, a number grouped in threes reads the same either way.** -/
theorem parseDecimal_ungroup (h : dotGrouped N t = true) (hcomma : ',' ∈ t) :
    parseDecimal (ungrouped t) = parseDecimal t := by
  obtain ⟨sign, first, rest, hparts⟩ := Grouped.of_dotGrouped h
  obtain ⟨hplain, hungrouped⟩ := hparts.readings
  have hlast : lastSeparator t = some ',' := by
    have hrest := groups_comma hparts.rest_groups (hparts.comma_iff.mp hcomma)
    rw [lastSeparator] at hrest
    rw [lastSeparator, hparts.parts, List.reverse_append, List.reverse_append, List.find?_append,
      List.find?_append, hrest]
    rfl
  have hpointed : pointed t = ungrouped t := by
    rw [pointed, if_pos ⟨hcomma, hparts.dot_mem⟩, if_pos hlast, ungrouped, if_pos hparts.dot_mem]
  rw [hplain, hungrouped, hpointed]

/-! ### Without a comma -/

/-- A number grouped in threes that `parse_decimal` reads apart: more than one group, or one that is
not all zeros. -/
def ReadsApart (t : Text) : Prop :=
  '.' ∈ t ∧ ',' ∉ t ∧ plainNumber t = true ∧
    (2 ≤ t.count '.' ∨ (t.any fun c => c.isDigit && c != '0') = true)

instance (t : Text) : Decidable (ReadsApart t) :=
  inferInstanceAs (Decidable (_ ∧ _ ∧ _ ∧ (_ ∨ _ = true)))

theorem head_sign {body : Text} (hsign : IsSign sign) (hbody : body.head? ≠ some '-') :
    ((sign ++ body).head? == some '-') = (sign == ['-']) := by
  rcases hsign with rfl | rfl
  · exact beq_eq_false_iff_ne.mpr hbody
  · rfl

theorem readDecimal_whole {digits : Text} (hsign : IsSign sign)
    (hdigits : ∀ c ∈ digits, c.isDigit = true) :
    readDecimal (sign ++ digits) = some (scaled (sign == ['-']) digits 0) := by
  have hbody : digits.head? ≠ some '-' := fun hhead =>
    absurd (hdigits _ (List.mem_of_mem_head? hhead)) (by decide)
  rw [readDecimal, unsigned_sign hsign hbody, head_sign hsign hbody,
    List.takeWhile_eq_self_iff.mpr hdigits, List.dropWhile_eq_nil_iff.mpr hdigits]

theorem readDecimal_point {digits places : Text} (hsign : IsSign sign)
    (hdigits : ∀ c ∈ digits, c.isDigit = true) :
    readDecimal (sign ++ (digits ++ '.' :: places)) = if places.all Char.isDigit then
      some (scaled (sign == ['-']) (digits ++ places) places.length) else none := by
  have hbody : (digits ++ '.' :: places).head? ≠ some '-' := by
    intro hhead
    cases digits with
    | nil => exact absurd (Option.some.inj hhead) (by decide)
    | cons c digits =>
      obtain rfl := Option.some.inj hhead
      exact absurd (hdigits _ (List.mem_cons_self ..)) (by decide)
  have hwhole : (digits ++ '.' :: places).takeWhile Char.isDigit = digits := by
    rw [List.takeWhile_append_of_pos hdigits, List.takeWhile_cons_of_neg (by decide),
      List.append_nil]
  have hrest : (digits ++ '.' :: places).dropWhile Char.isDigit = '.' :: places := by
    rw [List.dropWhile_append_of_pos hdigits, List.dropWhile_cons_of_neg (by decide)]
  rw [readDecimal, unsigned_sign hsign hbody, head_sign hsign hbody, hwhole, hrest]
  rfl

theorem groups_dot {tail : Text} (h : groupsThenFraction N ('.' :: tail) = true) :
    ∃ a b c more, tail = a :: b :: c :: more ∧ (∀ d ∈ [a, b, c], d ≠ '.') ∧
      groupsThenFraction N more = true := by
  match tail, h with
  | [], h => cases h
  | [a], h => cases h
  | [a, b], h => cases h
  | a :: b :: c :: more, h =>
    simp only [groupsThenFraction, Bool.and_eq_true] at h
    obtain ⟨⟨⟨ha, hb⟩, hc⟩, hmore⟩ := h
    refine ⟨a, b, c, more, rfl, ?_, hmore⟩
    simp only [List.forall_mem_cons]
    exact ⟨N.ne_mark ha (by decide), N.ne_mark hb (by decide), N.ne_mark hc (by decide),
      List.forall_mem_nil _⟩

theorem groups_more {more : Text} (h : groupsThenFraction N more = true) (hcomma : ',' ∉ more) :
    more = [] ∨ '.' ∈ more := by
  fun_cases groupsThenFraction N more with
  | case1 => exact .inl rfl
  | case2 => exact .inr (List.mem_cons_self ..)
  | case3 => exact absurd (List.mem_cons_self ..) hcomma
  | case4 => simp_all [groupsThenFraction]

theorem Grouped.digits (h : Grouped N t sign first rest) (hcomma : ',' ∉ rest)
    (hplain : (first ++ rest).all numberChar = true) :
    (∀ c ∈ first, c.isDigit = true) ∧ (∀ c ∈ rest, c ≠ '.' → c.isDigit = true) ∧
      commasToDots (withoutDots rest) = withoutDots rest := by
  have hall := List.all_eq_true.mp hplain
  have hdigit : ∀ c ∈ first ++ rest, c ≠ '.' → c ≠ ',' → c.isDigit = true := by
    intro c hc hdot hno
    have hchar := hall c hc
    rw [numberChar, beq_eq_false_iff_ne.mpr hdot, beq_eq_false_iff_ne.mpr hno, Bool.or_false,
      Bool.or_false] at hchar
    exact hchar
  refine ⟨fun c hc => ?_, fun c hc hdot => ?_, ?_⟩
  · exact hdigit c (List.mem_append_left _ hc) (h.first_run c hc).1 (h.first_run c hc).2
  · exact hdigit c (List.mem_append_right _ hc) hdot fun heq => hcomma (heq ▸ hc)
  · rw [commasToDots, List.map_congr_left fun c hc => if_neg ?_, List.map_id']
    exact fun heq => hcomma (heq ▸ List.mem_of_mem_filter hc)

theorem Grouped.zeros_iff {a b c : Char} (hparts : Grouped N t sign first ['.', a, b, c])
    (hcomma : ',' ∉ t) (hall : Ask.plainNumber t = true)
    (hdigits : ∀ d ∈ first ++ [a, b, c], d.isDigit = true) (hcount : t.count '.' = 1) :
    (∀ d ∈ first ++ [a, b, c], d = '0') ↔ ¬ReadsApart t := by
  constructor
  · rintro hzeros ⟨-, -, -, htwo | hany⟩
    · rw [hcount] at htwo
      exact absurd htwo (by decide)
    · obtain ⟨d, hd, hnonzero⟩ := List.any_eq_true.mp hany
      rw [Bool.and_eq_true, bne_iff_ne] at hnonzero
      obtain ⟨hdigit, hne⟩ := hnonzero
      rw [hparts.parts, List.mem_append, List.mem_append] at hd
      rcases hd with hin | hin | hin
      · rcases hparts.isSign with rfl | rfl
        · cases hin
        · rw [List.mem_singleton.mp hin] at hdigit
          exact absurd hdigit (by decide)
      · exact hne (hzeros d (List.mem_append_left _ hin))
      · rcases List.mem_cons.mp hin with rfl | hin
        · exact absurd hdigit (by decide)
        · exact hne (hzeros d (List.mem_append_right _ hin))
  · intro happart d hd
    by_contra hne
    refine happart ⟨hparts.dot_mem, hcomma, hall, .inr ?_⟩
    refine List.any_eq_true.mpr ⟨d, ?_, ?_⟩
    rotate_left
    · rw [hdigits d hd, Bool.true_and, bne_iff_ne]
      exact hne
    rw [hparts.parts, List.mem_append, List.mem_append, List.mem_cons]
    rcases List.mem_append.mp hd with hin | hin
    · exact .inr (.inl hin)
    · exact .inr (.inr (.inr hin))

/-- **Where a number grouped in threes is read apart.** -/
theorem parseDecimal_readsApart (h : dotGrouped N t = true) :
    parseDecimal (ungrouped t) = parseDecimal t ↔ ¬ReadsApart t := by
  by_cases hcomma : ',' ∈ t
  · exact ⟨fun _ hapart => hapart.2.1 hcomma, fun _ => parseDecimal_ungroup h hcomma⟩
  obtain ⟨sign, first, rest, hparts⟩ := Grouped.of_dotGrouped h
  obtain ⟨hread, hungrouped⟩ := hparts.readings
  have hno : ',' ∉ rest := fun hin => hcomma (hparts.comma_iff.mpr hin)
  have hplain : plainNumber t = (first ++ rest).all numberChar := by
    conv_lhs => rw [hparts.parts]
    exact hparts.plainNumber rest
  by_cases hall : (first ++ rest).all numberChar = true
  · rw [hread, hungrouped, if_pos hall, if_pos hall, pointed_of_no_comma hcomma]
    obtain ⟨hfirst, hrest, hmap⟩ := hparts.digits hno hall
    have hdigits : ∀ c ∈ first ++ withoutDots rest, c.isDigit = true := by
      intro c hc
      rcases List.mem_append.mp hc with hin | hin
      · exact hfirst c hin
      · obtain ⟨hin, hdot⟩ := List.mem_filter.mp hin
        exact hrest c hin (bne_iff_ne.mp hdot)
    rw [hparts.ungrouped, hmap, readDecimal_whole hparts.isSign hdigits]
    obtain ⟨tail, rfl⟩ : ∃ tail, rest = '.' :: tail := by
      cases rest with
      | nil => exact absurd hparts.rest_dot nofun
      | cons c tail => exact ⟨tail, by rw [Option.some.inj hparts.rest_dot]⟩
    obtain ⟨a, b, c, more, rfl, hgroup, hmore⟩ := groups_dot hparts.rest_groups
    have hzero : ∀ {run : Text}, (∀ c ∈ run, c ≠ '.') → run.count '.' = 0 :=
      fun hrun => List.count_eq_zero.mpr fun hin => hrun _ hin rfl
    have hcount : t.count '.' = 1 + more.count '.' := by
      rw [hparts.parts, show '.' :: a :: b :: c :: more = ['.'] ++ ([a, b, c] ++ more) from rfl,
        List.count_append, List.count_append, List.count_append, List.count_append,
        hzero fun c hc => (hparts.sign_run c hc).1, hzero fun c hc => (hparts.first_run c hc).1,
        hzero hgroup, Nat.zero_add, Nat.zero_add, Nat.zero_add]
      rfl
    have hread' : readDecimal (sign ++ (first ++ '.' :: a :: b :: c :: more)) = _ :=
      readDecimal_point hparts.isSign hfirst
    rw [← hparts.parts] at hread'
    rcases groups_more hmore fun hin => hno (by simp [hin]) with rfl | hdot
    · have hplaces : withoutDots ['.', a, b, c] = [a, b, c] :=
        List.filter_eq_self.mpr fun d hd => bne_iff_ne.mpr (hgroup d hd)
      have hlast : ([a, b, c].all Char.isDigit) = true := by
        refine List.all_eq_true.mpr fun d hd => hrest d (List.mem_cons_of_mem _ hd) (hgroup d hd)
      rw [hplaces] at hdigits ⊢
      rw [hread', if_pos hlast, Option.some_inj, eq_comm]
      change scaled _ _ 3 = _ ↔ _
      rw [scaled_thousand, natOf_eq_zero_iff hdigits]
      exact hparts.zeros_iff hcomma (hplain ▸ hall) hdigits (by rw [hcount]; rfl)
    · have hplaces : ((a :: b :: c :: more).all Char.isDigit) = false := by
        refine Bool.eq_false_iff.mpr fun hdig => ?_
        have hin : '.' ∈ a :: b :: c :: more := by simp [hdot]
        exact absurd (List.all_eq_true.mp hdig _ hin) (by decide)
      rw [hread', hplaces]
      refine iff_of_false nofun (not_not.mpr ⟨hparts.dot_mem, hcomma, hplain ▸ hall, .inl ?_⟩)
      have hmany := List.count_pos_iff.mpr hdot
      omega
  · rw [hread, hungrouped, if_neg hall, if_neg hall]
    exact iff_of_true rfl fun hapart => hall (hplain ▸ hapart.2.2.1)

end

end QnscKb.Ask
