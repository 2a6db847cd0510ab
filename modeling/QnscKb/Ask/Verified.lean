import QnscKb.Ask.Numbers
import QnscKb.Lib.Ways

/-!
# Ask — Verified

The check of an answer's numbers against its sources (`src/domain/agent/verify.py`).  A number is
read every way its separators allow, and a quantity is reported where no reading is one of a source
or of the question.  A `Decimal` is its sign, digits and exponent.
-/

namespace QnscKb.Verify

open Ask (Numerals intOf unsigned lastSeparator numberMarks IsSign)
open Ways (one seq alt opt upTo times between many plus literal pattern Splits)

/-! ### Decimals -/

/-- `Decimal`, of a finite number. -/
structure Decimal where
  negative : Bool
  coefficient : Nat
  exponent : Int
deriving DecidableEq

def digitCount (n : Nat) : Nat := (Nat.toDigits 10 n).length

/-- A result rounded to the 28 digits of the default context, half to even. -/
def Decimal.rounded (d : Decimal) : Decimal :=
  let excess := digitCount d.coefficient - 28
  let unit := 10 ^ excess
  let kept := d.coefficient / unit
  let lost := d.coefficient % unit
  if excess = 0 then d
  else if unit < 2 * lost ∨ (unit = 2 * lost ∧ kept % 2 = 1) then
    ⟨d.negative, kept + 1, d.exponent + excess⟩
  else ⟨d.negative, kept, d.exponent + excess⟩

def stripZeros : Nat → Nat → Int → Nat × Int
  | 0, coefficient, exponent => (coefficient, exponent)
  | fuel + 1, coefficient, exponent =>
    if coefficient % 10 = 0 then stripZeros fuel (coefficient / 10) (exponent + 1)
    else (coefficient, exponent)

/-- `Decimal.normalize`: one form for each value, and one zero for both signs, which are equal. -/
def Decimal.normalize (d : Decimal) : Decimal :=
  let r := d.rounded
  if r.coefficient = 0 then ⟨false, 0, 0⟩
  else
    let stripped := stripZeros (digitCount r.coefficient) r.coefficient r.exponent
    ⟨r.negative, stripped.1, stripped.2⟩

def Decimal.hundredth (d : Decimal) : Decimal :=
  Decimal.rounded ⟨d.negative, d.coefficient, d.exponent - 2⟩

def Decimal.abs (d : Decimal) : Decimal := { d with negative := false }

def Decimal.isHundred (d : Decimal) : Bool :=
  if 0 ≤ d.exponent then 100 ≤ d.coefficient * 10 ^ d.exponent.toNat
  else 100 * 10 ^ (-d.exponent).toNat ≤ d.coefficient

variable (N : Numerals)

/-- `_decimal`, of a sign, digits and points. -/
def decimalOf (t : Text) : Option Decimal :=
  let whole := (unsigned t).takeWhile (· != '.')
  let places := ((unsigned t).dropWhile (· != '.')).tail
  if (whole ++ places).isEmpty then none
  else (intOf N.toUnicode (whole ++ places)).map fun n =>
    ⟨t.head? == some '-', n, -places.length⟩

/-! ### Patterns -/

def digit : Ways.Matcher Char := one N.isDecimal

/-- A literal whose letters may stand in either case. -/
def anyCase (t : Text) : Ways.Matcher Char := literal (fun p c => N.fold c == p) t

def citation : Ways.Matcher Char :=
  seq (one (· == '['))
    (seq (alt (seq (anyCase N "c".toList) (between 1 3 (digit N)))
        (alt (seq (anyCase N "source id:".toList) (seq (many (one Text.isSpace)) (plus (digit N))))
          (between 1 2 (digit N))))
      (seq (upTo (one (· != ']')) 200) (one (· == ']'))))

/-- `_LIST_MARKER`, behind the beginning of a line. -/
def listMarker : Ways.Matcher Char :=
  seq (many (one Text.isSpace))
    (seq (alt (one fun c => c == '-' || c == '*')
        (seq (between 1 2 (digit N)) (one fun c => c == '.' || c == ')')))
      (plus (one Text.isSpace)))

/-- `[.,]`. -/
def separator : Ways.Matcher Char := one fun c => c == '.' || c == ','

def numberEnd : Ways.Matcher Char :=
  seq (opt (seq separator (plus (digit N)))) (opt (one (· == '%')))

/-- `_NUMBER`, between its lookarounds: grouped in threes, or not. -/
def number : Ways.Matcher Char :=
  alt
    (seq (opt (one (· == '-'))) (seq (between 1 3 (digit N))
      (seq (plus (seq separator (times (digit N) 3))) (numberEnd N))))
    (seq (opt (one (· == '-'))) (seq (plus (digit N)) (numberEnd N)))

/-- No word character, separator, slash or hyphen stands before a number. -/
def startsFree (prev : Option Char) : Bool :=
  !prev.any fun c => N.word c || c == '.' || c == ',' || c == '/' || c == '-'

def endsFree (t : Text) : Bool := !t.head?.any fun c => N.word c || c == '/' || c == '-'

def numberPattern : Substitution.Pattern Char := pattern (startsFree N) (number N) (endsFree N) []

def tokens (t : Text) : List Text := (Substitution.hits (numberPattern N) t).map Prod.fst

def citationPattern : Substitution.Pattern Char :=
  pattern (fun _ => true) (citation N) (fun _ => true) [' ']

def listMarkerPattern : Substitution.Pattern Char :=
  pattern (fun prev => !prev.any (· != '\n')) (listMarker N) (fun _ => true) []

/-- The answer without its citations and list markers. -/
def cleaned (answer : Text) : Text :=
  Substitution.subst (listMarkerPattern N) (Substitution.subst (citationPattern N) answer)

/-! ### Readings -/

/-- `(?:[.,]\d{3})+$`, or nothing. -/
def threes : Text → Bool
  | [] => true
  | m :: a :: b :: c :: t =>
    (m == '.' || m == ',') && N.isDecimal a && N.isDecimal b && N.isDecimal c && threes t
  | _ => false

def grouped (t : Text) : Bool :=
  let first := (unsigned t).takeWhile N.isDecimal
  let rest := (unsigned t).dropWhile N.isDecimal
  1 ≤ first.length && first.length ≤ 3 && !rest.isEmpty && threes N rest

def without (mark : Char) (t : Text) : Text := t.filter (· != mark)

def toPoint (mark : Char) (t : Text) : Text := t.map fun c => if c = mark then '.' else c

/-- `token.rstrip("%").strip()`. -/
def numberText (token : Text) : Text :=
  Text.strip (token.reverse.dropWhile (· == '%')).reverse

def values (t : Text) : List Decimal :=
  if '.' ∈ t ∧ ',' ∈ t then
    -- the later separator is the decimal point
    if lastSeparator t = some '.' then (decimalOf N (toPoint '.' (without ',' t))).toList
    else (decimalOf N (toPoint ',' (without '.' t))).toList
  else if '.' ∈ t ∨ ',' ∈ t then
    let mark := if '.' ∈ t then '.' else ','
    (if t.count mark = 1 then (decimalOf N (toPoint mark t)).toList else []) ++
      if grouped N t then (decimalOf N (without ',' (without '.' t))).toList else []
  else (decimalOf N t).toList

def interpretations (token : Text) : List Decimal :=
  let all := values N (numberText token)
  (all ++ if token.getLast? = some '%' then all.map Decimal.hundredth else []).map Decimal.normalize

def numbersIn (t : Text) : List Decimal := (tokens N t).flatMap (interpretations N)

/-- `_YEAR`. -/
def isYear (t : Text) : Bool :=
  match t with
  | [a, b, c, d] =>
    ((a == '1' && b == '9') || (a == '2' && b == '0')) && N.isDecimal c && N.isDecimal d
  | _ => false

def isQuantity (token : Text) : Bool :=
  if token.getLast? = some '%' ∨ '.' ∈ token ∨ ',' ∈ token then true
  else
    let plain := token.dropWhile (· == '-')
    if isYear N plain then false else (decimalOf N plain).any Decimal.isHundred

/-! ### Sources -/

/-- What is read of a retrieved passage, each cell of its table as `str` writes it. -/
structure ContextResult where
  contextText : Text
  parentText : Text
  chunkText : Text
  title : Text
  rows : List (List Text)

/-- What is read of a calculation. -/
structure Analytics where
  result : Text
  formula : Text
  operands : List Text

structure Sources where
  context : List ContextResult
  analytics : List Analytics
  /-- The numbers of the charts' series. -/
  series : List Decimal

/-- The texts whose numbers an answer may quote. -/
def Sources.texts (s : Sources) : List Text :=
  s.context.flatMap (fun r =>
      r.contextText :: r.parentText :: r.chunkText :: r.title :: r.rows.flatten) ++
    s.analytics.flatMap fun a => (a.result ++ ' ' :: a.formula) :: a.operands

def sourceNumbers (s : Sources) : List Decimal :=
  s.texts.flatMap (numbersIn N) ++ s.series.map Decimal.normalize

def isUnverified (allowed : List Decimal) (token : Text) : Bool :=
  isQuantity N token && !(interpretations N token).isEmpty &&
    (interpretations N token).all fun r => !allowed.contains r && !allowed.contains r.abs

def findUnverifiedNumbers (answer : Text) (s : Sources) (question : Text) : List Text :=
  let allowed := sourceNumbers N s ++ numbersIn N question
  (tokens N (cleaned N answer)).foldl
    (fun unverified token =>
      if isUnverified N allowed token && !unverified.contains token then unverified ++ [token]
      else unverified) []

/-! ### Figures -/

/-- A number: its digits, those before the point in threes from the right, and those behind it. -/
structure Figure (N : Numerals) where
  negative : Bool
  first : Text
  groups : List Text
  places : Text
  first_length : 1 ≤ first.length ∧ first.length ≤ 3
  groups_length : ∀ g ∈ groups, g.length = 3
  first_decimal : ∀ c ∈ first, N.isDecimal c = true
  groups_decimal : ∀ g ∈ groups, ∀ c ∈ g, N.isDecimal c = true
  places_decimal : ∀ c ∈ places, N.isDecimal c = true

/-- How a number is spelled: in the English or the Vietnamese way, its thousands set apart or not,
with a percent sign or without. -/
structure Style where
  english : Bool
  thousands : Bool
  percent : Bool

/-- The separator of the thousands. -/
def Style.mark (s : Style) : Char := if s.english then ',' else '.'

def Style.point (s : Style) : Char := if s.english then '.' else ','

theorem Style.pair (s : Style) :
    (s.mark = '.' ∧ s.point = ',') ∨ (s.mark = ',' ∧ s.point = '.') := by
  rw [Style.mark, Style.point]
  cases s.english with
  | true => exact .inr ⟨rfl, rfl⟩
  | false => exact .inl ⟨rfl, rfl⟩

/-! ### The readings of a text -/

variable {N}

variable {t token : Text}

theorem values_of_none (hdot : '.' ∉ t) (hcomma : ',' ∉ t) :
    values N t = (decimalOf N t).toList := by
  rw [values, if_neg fun h => hdot h.1, if_neg fun h => h.elim hdot hcomma]

theorem values_of_one {m o : Char} (hpair : (m = '.' ∧ o = ',') ∨ (m = ',' ∧ o = '.')) (hm : m ∈ t)
    (ho : o ∉ t) :
    values N t = (if t.count m = 1 then (decimalOf N (toPoint m t)).toList else []) ++
      if grouped N t then (decimalOf N (without ',' (without '.' t))).toList else [] := by
  rcases hpair with ⟨rfl, rfl⟩ | ⟨rfl, rfl⟩
  · rw [values, if_neg fun h => ho h.2, if_pos (.inl hm)]
    simp only [if_pos hm]
  · rw [values, if_neg fun h => ho h.1, if_pos (.inr hm)]
    simp only [if_neg ho]

/-- Where both separators stand, the last one is the decimal point. -/
theorem values_of_both {m o : Char} (hpair : (m = '.' ∧ o = ',') ∨ (m = ',' ∧ o = '.')) (hm : m ∈ t)
    (ho : o ∈ t) (hlast : lastSeparator t = some o) :
    values N t = (decimalOf N (toPoint o (without m t))).toList := by
  rcases hpair with ⟨rfl, rfl⟩ | ⟨rfl, rfl⟩
  · rw [values, if_pos ⟨hm, ho⟩, hlast, if_neg (by decide)]
  · rw [values, if_pos ⟨ho, hm⟩, hlast, if_pos rfl]

theorem without_run {m : Char} {run : Text} (h : ∀ c ∈ run, c ≠ m) : without m run = run :=
  List.filter_eq_self.mpr fun c hc => bne_iff_ne.mpr (h c hc)

theorem without_append (m : Char) (a b : Text) :
    without m (a ++ b) = without m a ++ without m b :=
  List.filter_append a b

theorem toPoint_run {m : Char} {run : Text} (h : ∀ c ∈ run, c ≠ m) : toPoint m run = run := by
  rw [toPoint, List.map_congr_left fun c hc => if_neg (h c hc), List.map_id']

theorem toPoint_append (m : Char) (a b : Text) :
    toPoint m (a ++ b) = toPoint m a ++ toPoint m b :=
  List.map_append

namespace Figure

def digits (n : Figure N) : Text := n.first ++ n.groups.flatten

def sign (n : Figure N) : Text := if n.negative then ['-'] else []

def whole (n : Figure N) (s : Style) : Text :=
  n.first ++ n.groups.flatMap fun g => if s.thousands then s.mark :: g else g

def fraction (n : Figure N) (point : Char) : Text :=
  if n.places.isEmpty then [] else point :: n.places

def body (n : Figure N) (s : Style) : Text := n.sign ++ (n.whole s ++ n.fraction s.point)

def write (n : Figure N) (s : Style) : Text := n.body s ++ if s.percent then ['%'] else []

def unsigned (n : Figure N) : Figure N := { n with negative := false }

def decimal (n : Figure N) : Decimal :=
  ⟨n.negative, (intOf N.toUnicode (n.digits ++ n.places)).getD 0, -n.places.length⟩

variable (n : Figure N) (s : Style)

theorem isSign_sign : IsSign n.sign := by
  rw [sign]
  split
  · exact .inr rfl
  · exact .inl rfl

theorem digits_decimal : ∀ c ∈ n.digits, N.isDecimal c = true := by
  intro c hc
  rcases List.mem_append.mp hc with hc | hc
  · exact n.first_decimal c hc
  · obtain ⟨g, hg, hc⟩ := List.mem_flatten.mp hc
    exact n.groups_decimal g hg c hc

theorem digits_ne : n.digits ≠ [] := by
  intro hnil
  have hlen := n.first_length.1
  rw [(List.append_eq_nil_iff.mp hnil).1] at hlen
  exact absurd hlen (by decide)

theorem mem_body {c : Char} (h : c ∈ n.body s) : N.isDecimal c = true ∨ c ∈ ['-', '.', ','] := by
  have hmark : s.mark ∈ ['-', '.', ','] ∧ s.point ∈ ['-', '.', ','] := by
    rw [Style.mark, Style.point]
    cases s.english <;> simp
  rw [body, whole, List.mem_append, List.mem_append, List.mem_append] at h
  rcases h with hsign | (hfirst | hgroups) | hfraction
  · rcases n.isSign_sign with hnone | hminus
    · rw [hnone] at hsign
      cases hsign
    · rw [hminus] at hsign
      exact .inr (List.mem_singleton.mp hsign ▸ List.mem_cons_self)
  · exact .inl (n.first_decimal c hfirst)
  · obtain ⟨g, hg, hc⟩ := List.mem_flatMap.mp hgroups
    split at hc
    · rcases List.mem_cons.mp hc with rfl | hc
      · exact .inr hmark.1
      · exact .inl (n.groups_decimal g hg c hc)
    · exact .inl (n.groups_decimal g hg c hc)
  · rw [fraction] at hfraction
    split at hfraction
    · cases hfraction
    · rcases List.mem_cons.mp hfraction with rfl | hc
      · exact .inr hmark.2
      · exact .inl (n.places_decimal c hc)

/-- A figure is read as its body is written. -/
theorem numberText_write : numberText (n.write s) = n.body s := by
  have hbody : ∀ c ∈ n.body s, c ≠ '%' ∧ Text.isSpace c = false := by
    intro c hc
    rcases n.mem_body s hc with hdecimal | hmark
    · exact ⟨N.ne_mark hdecimal (by decide), N.digit_visible c hdecimal⟩
    · have hall : (['-', '.', ','].all fun c => c != '%' && !Text.isSpace c) = true := rfl
      simpa using List.all_eq_true.mp hall c hmark
  have hpercent : ∀ c ∈ (if s.percent then ['%'] else []).reverse, (c == '%') = true := by
    intro c hc
    split at hc
    · exact beq_iff_eq.mpr (List.mem_singleton.mp hc)
    · cases hc
  rw [numberText, write, List.reverse_append, Text.dropWhile_run hpercent, List.reverse_reverse]
  · exact Text.strip_eq_self (fun c hc => (hbody c (List.mem_of_mem_head? hc)).2)
      (fun c hc => (hbody c (List.mem_of_getLast? hc)).2)
  · intro c hc
    exact beq_eq_false_iff_ne.mpr (hbody c (List.mem_reverse.mp (List.mem_of_mem_head? hc))).1

theorem unsigned_sign_append {t : Text} (h : ∀ c ∈ t.head?, N.isDecimal c = true) :
    Ask.unsigned (n.sign ++ t) = t := by
  refine Ask.unsigned_sign n.isSign_sign fun hminus => ?_
  exact N.ne_mark (h '-' hminus) (by decide) rfl

theorem head_digits_append (t : Text) : ∀ c ∈ (n.digits ++ t).head?, N.isDecimal c = true := by
  obtain ⟨d, rest, hdigits⟩ := List.exists_cons_of_ne_nil n.digits_ne
  rw [hdigits]
  intro c hc
  obtain rfl := Option.some.inj hc
  exact n.digits_decimal d (hdigits ▸ List.mem_cons_self)

theorem intOf_isSome {t : Text} (h : ∀ c ∈ t, N.isDecimal c = true) :
    ∃ v, intOf N.toUnicode t = some v := by
  have hfold : ∀ a : Nat, ∃ v, t.foldl
      (fun n c => n.bind fun n => (N.digit c).map fun d => 10 * n + d) (some a) = some v := by
    induction t with
    | nil => exact fun a => ⟨a, rfl⟩
    | cons c t ih =>
      obtain ⟨hc, ht⟩ := List.forall_mem_cons.mp h
      intro a
      obtain ⟨d, hd⟩ := Option.isSome_iff_exists.mp hc
      rw [List.foldl_cons, hd]
      exact ih ht _
  exact hfold 0

theorem decimalOf_pointed :
    decimalOf N (n.sign ++ (n.digits ++ n.fraction '.')) = some n.decimal := by
  have hdigits : ∀ c ∈ n.digits, (c != '.') = true :=
    fun c hc => bne_iff_ne.mpr (N.ne_mark (n.digits_decimal c hc) (by decide))
  have hfraction : ∀ c ∈ (n.fraction '.').head?, (c != '.') = false := by
    intro c hc
    rw [fraction] at hc
    split at hc
    · cases hc
    · obtain rfl := Option.some.inj hc
      rfl
  have htail : (n.fraction '.').tail = n.places := by
    rw [fraction]
    split
    · next hempty => exact (List.isEmpty_iff.mp hempty).symm
    · rfl
  have hall : ∀ c ∈ n.digits ++ n.places, N.isDecimal c = true := fun c hc =>
    (List.mem_append.mp hc).elim (n.digits_decimal c) (n.places_decimal c)
  obtain ⟨v, hv⟩ := intOf_isSome hall
  have hsign : ((n.sign ++ (n.digits ++ n.fraction '.')).head? == some '-') = n.negative := by
    rw [sign]
    split
    · next hnegative => exact hnegative.symm
    · next hpositive =>
      have hfalse : n.negative = false := by simpa using hpositive
      rw [hfalse, beq_eq_false_iff_ne]
      intro hminus
      exact N.ne_mark (n.head_digits_append _ '-' hminus) (by decide) rfl
  have hne : (n.digits ++ n.places).isEmpty = false := by
    rw [List.isEmpty_eq_false_iff]
    exact fun hnil => n.digits_ne (List.append_eq_nil_iff.mp hnil).1
  rw [decimalOf, hsign, n.unsigned_sign_append (n.head_digits_append _),
    Text.takeWhile_run hdigits hfraction, Text.dropWhile_run hdigits hfraction, htail, hne,
    if_neg Bool.false_ne_true, hv, decimal, hv]
  rfl

/-! ### The separators of a number -/

variable {n s} {m : Char}

theorem separator_mark (hm : m ∈ ['.', ',']) : m ∈ numberMarks := by
  rw [List.mem_pair] at hm
  rcases hm with rfl | rfl <;> decide

theorem digits_ne_separator (hm : m ∈ ['.', ',']) : ∀ c ∈ n.digits, c ≠ m :=
  fun c hc => N.ne_mark (n.digits_decimal c hc) (separator_mark hm)

theorem places_ne_separator (hm : m ∈ ['.', ',']) : ∀ c ∈ n.places, c ≠ m :=
  fun c hc => N.ne_mark (n.places_decimal c hc) (separator_mark hm)

theorem sign_ne_separator (hm : m ∈ ['.', ',']) : ∀ c ∈ n.sign, c ≠ m := by
  intro c hc
  rcases n.isSign_sign with hnone | hminus
  · rw [hnone] at hc
    cases hc
  · rw [hminus] at hc
    obtain rfl := List.mem_singleton.mp hc
    rintro rfl
    exact absurd hm (by decide)

theorem without_whole : without s.mark (n.whole s) = n.digits := by
  have hm : s.mark ∈ ['.', ','] := by
    rcases s.pair with ⟨hmark, -⟩ | ⟨hmark, -⟩ <;> simp [hmark]
  have hgroup : ∀ g ∈ n.groups,
      without s.mark (if s.thousands then s.mark :: g else g) = g := by
    intro g hg
    have hg' : without s.mark g = g := without_run fun c hc =>
      digits_ne_separator hm c
        (List.mem_append_right _ (List.mem_flatten.mpr ⟨g, hg, hc⟩))
    split
    · rw [without, List.filter_cons_of_neg (by simp)]
      exact hg'
    · exact hg'
  rw [whole, without_append, without_run fun c hc =>
    digits_ne_separator hm c (List.mem_append_left _ hc), digits, without, List.filter_flatMap,
    List.flatten_eq_flatMap]
  exact congrArg (n.first ++ ·) (List.flatMap_congr fun g hg => hgroup g hg)

theorem whole_eq_digits (h : s.thousands = false ∨ n.groups = []) : n.whole s = n.digits := by
  rw [whole, digits]
  rcases h with hplain | hnone
  · simp [hplain]
  · simp [hnone]

theorem fraction_eq_nil {point : Char} (h : n.places = []) : n.fraction point = [] := by
  rw [fraction, h]
  rfl

theorem fraction_eq_cons {point : Char} (h : n.places ≠ []) :
    n.fraction point = point :: n.places := by
  rw [fraction, List.isEmpty_eq_false_iff.mpr h]
  rfl

theorem toPoint_fraction (hm : m ∈ ['.', ',']) : toPoint m (n.fraction m) = n.fraction '.' := by
  by_cases hplaces : n.places = []
  · rw [fraction_eq_nil hplaces, fraction_eq_nil hplaces]
    rfl
  · have hrun : toPoint m n.places = n.places := toPoint_run (places_ne_separator hm)
    rw [fraction_eq_cons hplaces, fraction_eq_cons hplaces, toPoint, List.map_cons, if_pos rfl]
    exact congrArg ('.' :: ·) hrun

theorem mark_mem (s : Style) : s.mark ∈ ['.', ','] := by
  rcases s.pair with ⟨hmark, -⟩ | ⟨hmark, -⟩ <;> simp [hmark]

theorem point_mem (s : Style) : s.point ∈ ['.', ','] := by
  rcases s.pair with ⟨-, hpoint⟩ | ⟨-, hpoint⟩ <;> simp [hpoint]

theorem point_ne_mark (s : Style) : s.point ≠ s.mark := by
  rcases s.pair with ⟨hmark, hpoint⟩ | ⟨hmark, hpoint⟩ <;>
    · rw [hmark, hpoint]
      decide

theorem not_mem_whole (hm : m ∈ ['.', ',']) (hne : m ≠ s.mark) : m ∉ n.whole s := by
  intro hmem
  rcases List.mem_append.mp hmem with hfirst | hgroups
  · exact digits_ne_separator hm m (List.mem_append_left _ hfirst) rfl
  · obtain ⟨g, hg, hin⟩ := List.mem_flatMap.mp hgroups
    have hdigit : m ∉ g := fun hin =>
      N.ne_mark (n.groups_decimal g hg m hin) (separator_mark hm) rfl
    split at hin
    · exact (List.mem_cons.mp hin).elim hne hdigit
    · exact hdigit hin

theorem mark_mem_whole (hset : s.thousands = true) (hgroups : n.groups ≠ []) :
    s.mark ∈ n.whole s := by
  obtain ⟨g, rest, hg⟩ := List.exists_cons_of_ne_nil hgroups
  rw [whole, hg, hset]
  simp

theorem not_mem_sign (hm : m ∈ ['.', ',']) : m ∉ n.sign := fun h => sign_ne_separator hm m h rfl

theorem not_mem_digits (hm : m ∈ ['.', ',']) : m ∉ n.digits :=
  fun h => digits_ne_separator hm m h rfl

theorem threes_groups (hm : m ∈ ['.', ',']) {groups : List Text}
    (hlength : ∀ g ∈ groups, g.length = 3)
    (hdecimal : ∀ g ∈ groups, ∀ c ∈ g, N.isDecimal c = true) :
    threes N (groups.flatMap fun g => m :: g) = true := by
  induction groups with
  | nil => rfl
  | cons g groups ih =>
    obtain ⟨hg, hlengths⟩ := List.forall_mem_cons.mp hlength
    obtain ⟨hdigits, hdecimals⟩ := List.forall_mem_cons.mp hdecimal
    obtain ⟨a, b, c, rfl⟩ := List.length_eq_three.mp hg
    have hmark : (m == '.' || m == ',') = true := by
      rw [List.mem_pair] at hm
      rcases hm with rfl | rfl <;> rfl
    rw [List.flatMap_cons, List.cons_append, List.cons_append, List.cons_append, List.cons_append,
      List.nil_append, threes, hmark, ih hlengths hdecimals, hdigits a (by simp),
      hdigits b (by simp), hdigits c (by simp)]
    rfl

/-- Digits in groups of three read as grouped. -/
theorem grouped_whole (hset : s.thousands = true) (hgroups : n.groups ≠ []) :
    grouped N (n.sign ++ n.whole s) = true := by
  obtain ⟨g, rest, hg⟩ := List.exists_cons_of_ne_nil hgroups
  have hwhole : n.whole s = n.first ++ n.groups.flatMap fun g => s.mark :: g := by
    rw [whole, hset]
    rfl
  have hmarked : ∀ c ∈ (n.groups.flatMap fun g => s.mark :: g).head?, N.isDecimal c = false := by
    rw [hg]
    intro c hc
    obtain rfl := Option.some.inj hc
    rw [Bool.eq_false_iff]
    exact fun hdecimal => N.ne_mark hdecimal (separator_mark (mark_mem s)) rfl
  have hhead : ∀ c ∈ (n.whole s).head?, N.isDecimal c = true := by
    obtain ⟨d, digits, hfirst⟩ : ∃ d digits, n.first = d :: digits := by
      cases hfirst : n.first with
      | nil =>
        have hlen := n.first_length.1
        rw [hfirst] at hlen
        exact absurd hlen (by decide)
      | cons d digits => exact ⟨d, digits, rfl⟩
    rw [hwhole, hfirst]
    intro c hc
    obtain rfl := Option.some.inj hc
    exact n.first_decimal d (hfirst ▸ List.mem_cons_self)
  have hrest : (n.groups.flatMap fun g => s.mark :: g).isEmpty = false := by
    rw [hg]
    rfl
  rw [grouped, n.unsigned_sign_append hhead, hwhole,
    Text.takeWhile_run n.first_decimal hmarked, Text.dropWhile_run n.first_decimal hmarked, hrest,
    threes_groups (mark_mem s) n.groups_length n.groups_decimal]
  simpa using n.first_length

theorem lastSeparator_fraction (hplaces : n.places ≠ []) (t : Text) :
    lastSeparator (t ++ n.fraction s.point) = some s.point := by
  have hskip : n.places.reverse.find? (fun c => c == ',' || c == '.') = none := by
    rw [List.find?_eq_none]
    intro c hc
    have hne : ∀ m ∈ ['.', ','], c ≠ m := fun m hm =>
      places_ne_separator hm c (List.mem_reverse.mp hc)
    simp [hne '.' (by simp), hne ',' (by simp)]
  have hpoint : (s.point == ',' || s.point == '.') = true := by
    rcases s.pair with ⟨-, hpoint⟩ | ⟨-, hpoint⟩ <;> simp [hpoint]
  rw [lastSeparator, fraction_eq_cons hplaces, List.reverse_append, List.reverse_cons,
    List.append_assoc, List.find?_append, hskip, List.singleton_append,
    List.find?_cons_of_pos (p := fun c => c == ',' || c == '.') hpoint]
  rfl

theorem decimal_mem_decimalOf :
    n.decimal ∈ (decimalOf N (n.sign ++ (n.digits ++ n.fraction '.'))).toList := by
  rw [decimalOf_pointed]
  exact List.mem_singleton.mpr rfl

theorem decimal_mem_grouped (hset : s.thousands = true) (hgroups : n.groups ≠ [])
    (hplaces : n.places = []) : n.decimal ∈ values N (n.body s) := by
  have hread := decimal_mem_decimalOf (n := n)
  have hbody : n.body s = n.sign ++ n.whole s := by
    rw [body, fraction_eq_nil hplaces, List.append_nil]
  have hmark : s.mark ∈ n.body s :=
    List.mem_append_right _ (List.mem_append_left _ (mark_mem_whole hset hgroups))
  have hpoint : s.point ∉ n.body s := by
    rw [hbody]
    exact fun hin => (List.mem_append.mp hin).elim (not_mem_sign (point_mem s))
      (not_mem_whole (point_mem s) (point_ne_mark s))
  have hdigits : without ',' (without '.' (n.body s)) = n.sign ++ n.digits := by
    have hsign : ∀ m ∈ ['.', ','], without m n.sign = n.sign := fun m hm =>
      without_run (sign_ne_separator hm)
    rw [hbody, without_append, without_append, hsign '.' (by simp), hsign ',' (by simp)]
    rcases s.pair with ⟨hdot, hcomma⟩ | ⟨hcomma, hdot⟩
    · rw [← hdot, without_whole, without_run (digits_ne_separator (by simp))]
    · have hnone : without '.' (n.whole s) = n.whole s := without_run fun c hc hdot' =>
      not_mem_whole (point_mem s) (point_ne_mark s) (hdot ▸ hdot' ▸ hc)
      rw [hnone, ← hcomma, without_whole]
  rw [values_of_one s.pair hmark hpoint, hdigits, hbody, grouped_whole hset hgroups]
  rw [fraction_eq_nil hplaces, List.append_nil] at hread
  exact List.mem_append_right _ hread

theorem decimal_mem_pointed (hset : s.thousands = true) (hgroups : n.groups ≠ [])
    (hplaces : n.places ≠ []) : n.decimal ∈ values N (n.body s) := by
  have hmark : s.mark ∈ n.body s :=
    List.mem_append_right _ (List.mem_append_left _ (mark_mem_whole hset hgroups))
  have hpoint : s.point ∈ n.body s := by
    rw [body, fraction_eq_cons hplaces]
    simp
  have hlast : lastSeparator (n.body s) = some s.point := by
    rw [body, ← List.append_assoc]
    exact lastSeparator_fraction hplaces _
  have hdigits : toPoint s.point (without s.mark (n.body s)) =
      n.sign ++ (n.digits ++ n.fraction '.') := by
    have hfraction : without s.mark (n.fraction s.point) = n.fraction s.point := by
      rw [fraction_eq_cons hplaces]
      exact without_run (List.forall_mem_cons.mpr
        ⟨point_ne_mark s, places_ne_separator (mark_mem s)⟩)
    rw [body, without_append, without_append, without_whole, hfraction,
      without_run (sign_ne_separator (mark_mem s)), toPoint_append, toPoint_append,
      toPoint_run (sign_ne_separator (point_mem s)),
      toPoint_run (digits_ne_separator (point_mem s)), toPoint_fraction (point_mem s)]
  rw [values_of_both s.pair hmark hpoint hlast, hdigits]
  exact decimal_mem_decimalOf

theorem decimal_mem_plain (hplain : s.thousands = false ∨ n.groups = []) :
    n.decimal ∈ values N (n.body s) := by
  have hread := decimal_mem_decimalOf (n := n)
  have hbody : n.body s = n.sign ++ (n.digits ++ n.fraction s.point) := by
    rw [body, whole_eq_digits hplain]
  have hother : ∀ m ∈ ['.', ','], m ∉ n.sign ++ n.digits := fun m hm hin =>
    (List.mem_append.mp hin).elim (not_mem_sign hm) (not_mem_digits hm)
  by_cases hplaces : n.places = []
  · rw [fraction_eq_nil hplaces, List.append_nil] at hbody hread
    rw [hbody, values_of_none (hother '.' (by simp)) (hother ',' (by simp))]
    exact hread
  · have hpoint : s.point ∈ n.body s := by
      rw [hbody, fraction_eq_cons hplaces]
      simp
    have hmark : s.mark ∉ n.body s := by
      rw [hbody, fraction_eq_cons hplaces, ← List.append_assoc]
      intro hin
      rcases List.mem_append.mp hin with hin | hin
      · exact hother _ (mark_mem s) hin
      · rcases List.mem_cons.mp hin with heq | hin
        · exact point_ne_mark s heq.symm
        · exact places_ne_separator (mark_mem s) _ hin rfl
    have hcount : (n.body s).count s.point = 1 := by
      rw [hbody, fraction_eq_cons hplaces, List.count_append, List.count_append,
        List.count_cons_self, List.count_eq_zero.mpr (not_mem_sign (point_mem s)),
        List.count_eq_zero.mpr (not_mem_digits (point_mem s)),
        List.count_eq_zero.mpr fun h => places_ne_separator (point_mem s) _ h rfl]
    have hdigits : toPoint s.point (n.body s) = n.sign ++ (n.digits ++ n.fraction '.') := by
      rw [hbody, toPoint_append, toPoint_append, toPoint_run (sign_ne_separator (point_mem s)),
        toPoint_run (digits_ne_separator (point_mem s)), toPoint_fraction (point_mem s)]
    rw [values_of_one (s.pair.symm.imp And.symm And.symm) hpoint hmark, if_pos hcount, hdigits]
    exact List.mem_append_left _ hread

/-- A figure is among the readings of its text, in either style. -/
theorem decimal_mem_values : n.decimal ∈ values N (n.body s) := by
  by_cases hset : s.thousands = true ∧ n.groups ≠ []
  · by_cases hplaces : n.places = []
    · exact decimal_mem_grouped hset.1 hset.2 hplaces
    · exact decimal_mem_pointed hset.1 hset.2 hplaces
  · refine decimal_mem_plain ?_
    rw [not_and_or, Bool.not_eq_true, not_not] at hset
    exact hset

/-- **The reading of a number's digits** is one of every way to spell it. -/
theorem reading_mem (n : Figure N) (s : Style) :
    n.decimal.normalize ∈ interpretations N (n.write s) := by
  rw [interpretations, numberText_write]
  exact List.mem_map_of_mem (List.mem_append_left _ decimal_mem_values)

end Figure

theorem Decimal.rounded_abs (d : Decimal) : d.abs.rounded = d.rounded.abs := by
  obtain ⟨negative, coefficient, exponent⟩ := d
  have habs : Decimal.abs ⟨negative, coefficient, exponent⟩ = ⟨false, coefficient, exponent⟩ := rfl
  rw [habs, Decimal.rounded, Decimal.rounded]
  split_ifs <;> rfl

theorem Decimal.normalize_abs (d : Decimal) : d.abs.normalize = d.normalize.abs := by
  rw [Decimal.normalize, Decimal.rounded_abs, Decimal.normalize]
  have hcoefficient : d.rounded.abs.coefficient = d.rounded.coefficient := rfl
  rw [hcoefficient]
  split <;> rfl

/-! ### What is reported -/

theorem splits_numberEnd (N : Numerals) : Splits (numberEnd N) :=
  (((Ways.splits_one _).seq (Ways.splits_one _).plus).opt).seq (Ways.splits_one _).opt

theorem splits_number (N : Numerals) : Splits (number N) :=
  have hdigit : Splits (digit N) := Ways.splits_one _
  have hsign : Splits (opt (one fun c : Char => c == '-')) := (Ways.splits_one _).opt
  have hgroup : Splits (seq separator (times (digit N) 3)) :=
    (Ways.splits_one _).seq (hdigit.times 3)
  (hsign.seq ((hdigit.between 1 3).seq (hgroup.plus.seq (splits_numberEnd N)))).alt
    (hsign.seq (hdigit.plus.seq (splits_numberEnd N)))

theorem infix_of_mem_tokens (h : token ∈ tokens N t) : token <:+: t := by
  obtain ⟨hit, hhit, rfl⟩ := List.mem_map.mp h
  exact Ways.infix_of_mem_hits (Ways.sound_pattern (splits_number N)) hhit

/-- What is reported is a number of the answer that no source accounts for. -/
theorem mem_findUnverifiedNumbers {answer question : Text} {s : Sources} :
    token ∈ findUnverifiedNumbers N answer s question ↔ token ∈ tokens N (cleaned N answer) ∧
      isUnverified N (sourceNumbers N s ++ numbersIn N question) token = true := by
  have hfold : ∀ all unverified : List Text, token ∈ all.foldl
      (fun unverified token =>
        if isUnverified N (sourceNumbers N s ++ numbersIn N question) token &&
          !unverified.contains token then unverified ++ [token] else unverified) unverified ↔
      token ∈ unverified ∨ token ∈ all ∧
        isUnverified N (sourceNumbers N s ++ numbersIn N question) token = true := by
    intro all
    induction all with
    | nil => simp
    | cons head all ih =>
      intro unverified
      rw [List.foldl_cons, ih]
      by_cases hhead : isUnverified N (sourceNumbers N s ++ numbersIn N question) head = true
      · by_cases hseen : head ∈ unverified
        · rw [if_neg (by simp [hseen])]
          simp only [List.mem_cons]
          refine ⟨fun h => h.imp_right fun h => ⟨.inr h.1, h.2⟩, ?_⟩
          rintro (h | ⟨rfl | h, htoken⟩)
          · exact .inl h
          · exact .inl hseen
          · exact .inr ⟨h, htoken⟩
        · rw [if_pos (by simp [hhead, hseen])]
          simp only [List.mem_append, List.mem_cons, List.not_mem_nil, or_false]
          refine ⟨?_, ?_⟩
          · rintro ((h | rfl) | ⟨h, htoken⟩)
            · exact .inl h
            · exact .inr ⟨.inl rfl, hhead⟩
            · exact .inr ⟨.inr h, htoken⟩
          · rintro (h | ⟨rfl | h, htoken⟩)
            · exact .inl (.inl h)
            · exact .inl (.inr rfl)
            · exact .inr ⟨h, htoken⟩
      · rw [if_neg (by simp [hhead])]
        simp only [List.mem_cons]
        refine or_congr_right ⟨fun h => ⟨.inr h.1, h.2⟩, ?_⟩
        rintro ⟨rfl | h, htoken⟩
        · exact absurd htoken hhead
        · exact ⟨h, htoken⟩
  rw [findUnverifiedNumbers, hfold]
  simp

theorem isUnverified_iff {allowed : List Decimal} :
    isUnverified N allowed token = true ↔ isQuantity N token = true ∧
      interpretations N token ≠ [] ∧
        ∀ r ∈ interpretations N token, r ∉ allowed ∧ r.abs ∉ allowed := by
  simp [isUnverified, and_assoc]

variable (N) in
def allowedNumbers (s : Sources) (question : Text) : List Decimal :=
  sourceNumbers N s ++ numbersIn N question

/-- Every reading of a number in the sources is allowed. -/
theorem mem_allowedNumbers {s : Sources} {question text : Text} {r : Decimal}
    (htext : text ∈ question :: s.texts) (htoken : token ∈ tokens N text)
    (hr : r ∈ interpretations N token) : r ∈ allowedNumbers N s question := by
  have hin : r ∈ numbersIn N text := List.mem_flatMap.mpr ⟨token, htoken, hr⟩
  rcases List.mem_cons.mp htext with rfl | htext
  · exact List.mem_append_right _ hin
  · exact List.mem_append_left _ (List.mem_append_left _ (List.mem_flatMap.mpr ⟨text, htext, hin⟩))

variable (N) in
/-- The numbers reported of an answer stand in it as quantities that can be read, none of whose
readings is allowed; no number of a source or of the question is among them, nor one with its
digits. -/
structure Verified (answer : Text) (s : Sources) (question : Text) : Prop where
  occurs : ∀ token ∈ findUnverifiedNumbers N answer s question, token <:+: cleaned N answer
  reported : ∀ token, token ∈ findUnverifiedNumbers N answer s question ↔
    token ∈ tokens N (cleaned N answer) ∧ isQuantity N token = true ∧
      interpretations N token ≠ [] ∧ ∀ r ∈ interpretations N token,
        r ∉ allowedNumbers N s question ∧ r.abs ∉ allowedNumbers N s question
  verbatim : ∀ text ∈ question :: s.texts, ∀ token ∈ tokens N text,
    token ∉ findUnverifiedNumbers N answer s question
  regrouped : ∀ text ∈ question :: s.texts, ∀ (n : Figure N) (a b : Style),
    n.write a ∈ tokens N text ∨ n.unsigned.write a ∈ tokens N text →
      n.write b ∉ findUnverifiedNumbers N answer s question

/-- **The check of an answer's numbers** reports the quantities that no source has, whatever way the
separators are read, and no number of a source. -/
theorem answer_verified (N : Numerals) (answer : Text) (s : Sources) (question : Text) :
    Verified N answer s question := by
  have hreported : ∀ token, token ∈ findUnverifiedNumbers N answer s question ↔
      token ∈ tokens N (cleaned N answer) ∧ isQuantity N token = true ∧
        interpretations N token ≠ [] ∧ ∀ r ∈ interpretations N token,
          r ∉ allowedNumbers N s question ∧ r.abs ∉ allowedNumbers N s question := fun token =>
    mem_findUnverifiedNumbers.trans (and_congr_right fun _ => isUnverified_iff)
  refine ⟨fun token h => infix_of_mem_tokens ((hreported token).mp h).1, hreported, ?_, ?_⟩
  · intro text htext token htoken h
    obtain ⟨-, -, hne, hnone⟩ := (hreported token).mp h
    obtain ⟨r, hr⟩ := List.exists_mem_of_ne_nil _ hne
    exact (hnone r hr).1 (mem_allowedNumbers htext htoken hr)
  · intro text htext n a b hsource h
    obtain ⟨-, -, -, hnone⟩ := (hreported _).mp h
    obtain ⟨hreading, habs⟩ := hnone _ (n.reading_mem b)
    rcases hsource with hsource | hsource
    · exact hreading (mem_allowedNumbers htext hsource (n.reading_mem a))
    · have hsame : n.unsigned.decimal.normalize = n.decimal.normalize.abs :=
        n.decimal.normalize_abs
      exact habs (hsame ▸ mem_allowedNumbers htext hsource (n.unsigned.reading_mem a))

def passage (t : String) : Sources := ⟨[⟨t.toList, [], [], [], []⟩], [], []⟩

/-- A year, a number with another sign and one that cannot be read are in no source and not
reported; a number in a longer word of the source is. -/
theorem unchecked_numbers :
    ("1999".toList ∈ tokens Ask.asciiNumerals (cleaned Ask.asciiNumerals "In 1999".toList) ∧
      allowedNumbers Ask.asciiNumerals (passage "") [] = [] ∧
      findUnverifiedNumbers Ask.asciiNumerals "In 1999".toList (passage "") [] = []) ∧
    findUnverifiedNumbers Ask.asciiNumerals "It is -500".toList (passage "500") [] = [] ∧
    findUnverifiedNumbers Ask.asciiNumerals "It is 1.234.56".toList (passage "") [] = [] ∧
    findUnverifiedNumbers Ask.asciiNumerals "1234 kg".toList (passage "1234kg") [] =
      ["1234".toList] := by
  decide +kernel

end QnscKb.Verify
