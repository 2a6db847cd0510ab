import QnscKb.Ask.Citations
import QnscKb.Ask.Context
import Mathlib.Algebra.Group.Nat.Defs

/-!
# Ask — Json

The values `json.loads` gives and what Python's conversions make of them, for the readers of stored
citations.  `str` of a container, the case mappings, `str.isdigit` and `uuid.UUID` are a parameter,
and `asciiPython` is what they are on ASCII.
-/

namespace QnscKb.Ask

/-! ### Values -/

/-- A float: its `repr`, the integer it truncates to, and whether it is zero. -/
inductive JsonFloat where
  | nan
  | infinity (negative : Bool)
  | finite (repr : Text) (truncated : Int) (zero : Bool)
  deriving DecidableEq

inductive Json where
  | null
  | bool (b : Bool)
  | int (n : Int)
  | float (x : JsonFloat)
  | text (t : Text)
  | list (items : List Json)
  | object (fields : List (String × Json))

abbrev Fields := List (String × Json)

def Fields.get (fields : Fields) (key : String) : Json := (fields.lookup key).getD .null

def Json.truthy : Json → Bool
  | .null => false
  | .bool b => b
  | .int n => n != 0
  | .float (.finite _ _ zero) => !zero
  | .float _ => true
  | .text t => !t.isEmpty
  | .list items => !items.isEmpty
  | .object fields => !fields.isEmpty

def Json.or (a b : Json) : Json := if a.truthy then a else b

/-! ### Conversions -/

/-- The library: case mappings, `str.isdigit` on one character, `repr`, and `uuid.UUID` with the
canonical text of an id. -/
structure Python where
  unicode : Unicode
  upper : Text → Text
  lower : Text → Text
  isdigit : Char → Bool
  repr : Json → Text
  uuid : Text → Option Nat
  uuidText : Nat → Text
  upper_sourceId : ∀ n, upper (sourceId n) = sourceId n
  isdigit_of_isDigit : ∀ c, c.isDigit = true → isdigit c = true
  uuid_uuidText : ∀ t n, uuid t = some n → uuid (uuidText n) = some n
  uuid_nil : uuid [] = none

variable (P : Python)

def Json.str : Json → Text
  | .null => "None".toList
  | .bool true => "True".toList
  | .bool false => "False".toList
  | .int n => decimalInt n
  | .float .nan => "nan".toList
  | .float (.infinity false) => "inf".toList
  | .float (.infinity true) => "-inf".toList
  | .float (.finite repr _ _) => repr
  | .text t => t
  | .list items => P.repr (.list items)
  | .object fields => P.repr (.object fields)

/-- The most digits `int` reads. -/
def maxIntDigits : Nat := 4300

/-- `int` of unsigned digits, with single underscores between them. -/
def intOfDigits (t : Text) : Option Nat :=
  let groups := t.splitOn '_'
  if groups.all (!·.isEmpty) && groups.flatten.length ≤ maxIntDigits then
    intOf P.unicode groups.flatten
  else none

/-- `int` of a text; `none` is a `ValueError`. -/
def intOfText (t : Text) : Option Int :=
  match Text.strip t with
  | '-' :: digits => (intOfDigits P digits).map fun n => -(n : Int)
  | '+' :: digits => (intOfDigits P digits).map fun n => (n : Int)
  | digits => (intOfDigits P digits).map fun n => (n : Int)

/-- The exceptions a conversion leaves to its callers. -/
inductive PyError where
  | valueError
  | overflowError
  deriving DecidableEq, Repr

/-- `int(…)`, with `TypeError` and `ValueError` caught for zero. -/
def Json.intOrZero : Json → Except PyError Int
  | .bool b => .ok (if b then 1 else 0)
  | .int n => .ok n
  | .float (.finite _ truncated _) => .ok truncated
  | .float .nan => .ok 0
  | .float (.infinity _) => .error .overflowError
  | .text t => .ok ((intOfText P t).getD 0)
  | .null | .list _ | .object _ => .ok 0

/-! ### The library on ASCII -/

def hexValue (c : Char) : Option Nat :=
  if c.isDigit then some (c.toNat - '0'.toNat)
  else if 'a' ≤ c ∧ c ≤ 'f' then some (c.toNat - 'a'.toNat + 10)
  else if 'A' ≤ c ∧ c ≤ 'F' then some (c.toNat - 'A'.toNat + 10)
  else none

/-- `int(…, 16)` of hexadecimal digits, after `n`. -/
def readHex : Nat → Text → Option Nat
  | n, [] => some n
  | n, c :: t => (hexValue c).bind fun d => readHex (16 * n + d) t

/-- The last `width` hexadecimal digits of a number. -/
def hexDigits : Nat → Nat → Text
  | 0, _ => []
  | width + 1, n => hexDigits width (n / 16) ++ [Nat.digitChar (n % 16)]

def dashed : List Nat → Text → Text
  | [], t => t
  | width :: widths, t => t.take width ++ '-' :: dashed widths (t.drop width)

/-- `str(uuid.UUID(…))`. -/
def canonicalUuid (n : Nat) : Text := dashed [8, 4, 4, 4] (hexDigits 32 n)

/-- `uuid.UUID`, of hexadecimal digits with dashes among them. -/
def readUuid (t : Text) : Option Nat :=
  if (t.filter (· ≠ '-')).length = 32 then readHex 0 (t.filter (· ≠ '-')) else none

theorem hexValue_digitChar {d : Nat} (h : d < 16) : hexValue (Nat.digitChar d) = some d := by
  revert h d
  decide

theorem hexValue_lt {c : Char} {d : Nat} (h : hexValue c = some d) : d < 16 := by
  simp only [hexValue] at h
  split at h
  · rename_i hdigit
    have hhi : c.toNat ≤ 57 := (Char.isDigit_iff_toNat.mp hdigit).2
    have hzero : '0'.toNat = 48 := rfl
    cases h
    omega
  · split at h
    · rename_i hlower
      have hhi : c.toNat ≤ 102 := hlower.2
      have hzero : 'a'.toNat = 97 := rfl
      cases h
      omega
    · split at h
      · rename_i hupper
        have hhi : c.toNat ≤ 70 := hupper.2
        have hzero : 'A'.toNat = 65 := rfl
        cases h
        omega
      · cases h

theorem readHex_append (n : Nat) (s t : Text) :
    readHex n (s ++ t) = (readHex n s).bind fun m => readHex m t := by
  induction s generalizing n with
  | nil => rfl
  | cons c s ih => cases hc : hexValue c <;> simp [readHex, hc, ih]

variable {t : Text}

theorem readHex_lt {n m : Nat} (h : readHex n t = some m) : m < (n + 1) * 16 ^ t.length := by
  induction t generalizing n with
  | nil =>
    cases h
    simp
  | cons c t ih =>
    obtain ⟨d, hd, h⟩ := Option.bind_eq_some_iff.mp h
    have hwidth : 16 * n + d + 1 ≤ (n + 1) * 16 := by
      have := hexValue_lt hd
      omega
    calc m < (16 * n + d + 1) * 16 ^ t.length := ih h
      _ ≤ (n + 1) * 16 * 16 ^ t.length := Nat.mul_le_mul_right _ hwidth
      _ = (n + 1) * 16 ^ (c :: t).length := by
          rw [List.length_cons, Nat.pow_succ', Nat.mul_assoc]

theorem readHex_hexDigits (width n : Nat) : readHex 0 (hexDigits width n) = some (n % 16 ^ width) := by
  induction width generalizing n with
  | zero => simp [hexDigits, readHex, Nat.mod_one]
  | succ width ih =>
    rw [hexDigits, readHex_append, ih]
    simp only [readHex, hexValue_digitChar (Nat.mod_lt n (by decide)), Option.bind_some,
      Option.some.injEq]
    rw [Nat.pow_succ', Nat.mod_mul, Nat.add_comm]

theorem length_hexDigits (width n : Nat) : (hexDigits width n).length = width := by
  induction width generalizing n with
  | zero => rfl
  | succ width ih => simp [hexDigits, ih]

theorem dash_notMem_hexDigits (width n : Nat) : ∀ c ∈ hexDigits width n, c ≠ '-' := by
  induction width generalizing n with
  | zero => simp [hexDigits]
  | succ width ih =>
    intro c hc
    rcases List.mem_append.mp hc with hc | hc
    · exact ih _ c hc
    · rw [List.mem_singleton.mp hc]
      have hlt : n % 16 < 16 := Nat.mod_lt n (by decide)
      revert hlt
      generalize n % 16 = d
      revert d
      decide

theorem filter_dashed (widths : List Nat) (h : ∀ c ∈ t, c ≠ '-') :
    (dashed widths t).filter (· ≠ '-') = t := by
  induction widths generalizing t with
  | nil => exact List.filter_eq_self.mpr fun c hc => by simpa using h c hc
  | cons width widths ih =>
    have htake : (t.take width).filter (· ≠ '-') = t.take width :=
      List.filter_eq_self.mpr fun c hc => by simpa using h c (List.mem_of_mem_take hc)
    rw [dashed, List.filter_append, htake, List.filter_cons_of_neg (by simp),
      ih fun c hc => h c (List.mem_of_mem_drop hc), List.take_append_drop]

theorem readUuid_canonicalUuid {n : Nat} (h : readUuid t = some n) :
    readUuid (canonicalUuid n) = some n := by
  have hlt : n < 16 ^ 32 := by
    rw [readUuid] at h
    split at h
    · rename_i hlength
      have := readHex_lt h
      rwa [hlength, Nat.zero_add, Nat.one_mul] at this
    · cases h
  rw [readUuid, canonicalUuid, filter_dashed _ (dash_notMem_hexDigits 32 n), length_hexDigits,
    if_pos rfl, readHex_hexDigits, Nat.mod_eq_of_lt hlt]

/-- The library on texts of ASCII characters, but for the `repr` of containers. -/
def asciiPython : Python where
  unicode := ascii
  upper t := t.map Char.toUpper
  lower t := t.map Char.toLower
  isdigit := Char.isDigit
  repr _ := []
  uuid := readUuid
  uuidText := canonicalUuid
  upper_sourceId n := by
    refine (List.map_congr_left fun c hc => ?_).trans (List.map_id _)
    rcases List.mem_cons.mp hc with rfl | hc
    · rfl
    · have hdigit : 48 ≤ c.toNat ∧ c.toNat ≤ 57 :=
        Char.isDigit_iff_toNat.mp (isDigit_of_mem_decimal hc)
      refine dif_neg ?_
      rintro ⟨hlower, -⟩
      have hlo : 97 ≤ c.toNat := hlower
      omega
  isdigit_of_isDigit _ h := h
  uuid_uuidText _ _ h := readUuid_canonicalUuid h
  uuid_nil := rfl

end QnscKb.Ask
