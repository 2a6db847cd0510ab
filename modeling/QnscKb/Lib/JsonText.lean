import QnscKb.Lib.Text

/-!
# JsonText — JSON as text

`dumps` writes a value as `json.dumps(…, ensure_ascii=False, indent=2)` does, and `loads` reads a
text as `json.loads` does, but for `NaN` and the infinities, which no JSON text holds.
-/

namespace QnscKb.JsonText

/-! ### Numbers -/

/-- The digits of a number's integer part: no leading zero. -/
def isInteger (t : Text) : Bool :=
  match t with
  | [] => false
  | ['0'] => true
  | c :: t => c.isDigit && c != '0' && t.all Char.isDigit

def isExponent (t : Text) : Bool :=
  match t with
  | [] => true
  | e :: '+' :: t => (e == 'e' || e == 'E') && !t.isEmpty && t.all Char.isDigit
  | e :: '-' :: t => (e == 'e' || e == 'E') && !t.isEmpty && t.all Char.isDigit
  | e :: t => (e == 'e' || e == 'E') && !t.isEmpty && t.all Char.isDigit

/-- What may follow a number's integer part. -/
def isFraction (t : Text) : Bool :=
  match t with
  | '.' :: t => !(t.takeWhile Char.isDigit).isEmpty && isExponent (t.dropWhile Char.isDigit)
  | t => isExponent t

def isNumber (t : Text) : Bool :=
  let t := match t with
    | '-' :: t => t
    | t => t
  isInteger (t.takeWhile Char.isDigit) && isFraction (t.dropWhile Char.isDigit)

/-- The characters a number is made of. -/
def isNumeral (c : Char) : Bool :=
  c.isDigit || c == '-' || c == '+' || c == '.' || c == 'e' || c == 'E'

/-- A number, by its text. -/
structure Number where
  text : Text
  ok : isNumber text = true
  numerals : ∀ c ∈ text, isNumeral c = true

namespace Number

/-- The value of a number written without a fraction or an exponent, which `json.loads` makes an
`int`. -/
def int? (n : Number) : Option Int :=
  match n.text with
  | '-' :: t => if t.all Char.isDigit then some (-(Nat.ofDigitChars 10 t 0 : Int)) else none
  | t => if t.all Char.isDigit then some (Nat.ofDigitChars 10 t 0 : Int) else none

theorem toDigits_head {n : Nat} (h : 0 < n) : ∃ c t, Nat.toDigits 10 n = c :: t ∧ c ≠ '0' := by
  induction n using Nat.strongRecOn with
  | ind n ih =>
    by_cases hsmall : n < 10
    · refine ⟨Nat.digitChar n, [], Nat.toDigits_of_lt_base hsmall, fun hzero => ?_⟩
      have := Nat.digitChar_eq_zero.mp hzero
      omega
    · obtain ⟨c, t, hdigits, hne⟩ := ih (n / 10) (by omega) (by omega)
      refine ⟨c, t ++ [Nat.digitChar (n % 10)], ?_, hne⟩
      rw [Nat.toDigits_of_base_le (by decide) (by omega), hdigits, List.cons_append]

theorem isDigit_toDigits (n : Nat) : ∀ c ∈ Nat.toDigits 10 n, c.isDigit = true :=
  fun _ hc => Nat.isDigit_of_mem_toDigits (by decide) (by decide) hc

theorem isInteger_toDigits (n : Nat) : isInteger (Nat.toDigits 10 n) = true := by
  rcases Nat.eq_zero_or_pos n with rfl | hpos
  · rfl
  · obtain ⟨c, t, hdigits, hne⟩ := toDigits_head hpos
    have hall := isDigit_toDigits n
    rw [hdigits] at hall ⊢
    have hc : c.isDigit = true := hall c List.mem_cons_self
    have ht : t.all Char.isDigit = true :=
      List.all_eq_true.mpr fun x hx => hall x (List.mem_cons_of_mem c hx)
    unfold isInteger
    split
    · rename_i heq
      cases heq
    · rfl
    · rename_i heq
      cases heq
      simp [hc, hne, ht]

theorem isNumber_toDigits (n : Nat) : isNumber (Nat.toDigits 10 n) = true := by
  have hall := isDigit_toDigits n
  have htake : (Nat.toDigits 10 n).takeWhile Char.isDigit = Nat.toDigits 10 n :=
    List.takeWhile_eq_self_iff.mpr hall
  have hdrop : (Nat.toDigits 10 n).dropWhile Char.isDigit = [] :=
    List.dropWhile_eq_nil_iff.mpr hall
  unfold isNumber
  split
  · rename_i t heq
    have hminus := hall '-' (heq ▸ List.mem_cons_self)
    exact absurd hminus (by decide)
  · simp only [htake, hdrop, isInteger_toDigits, isFraction, isExponent, Bool.and_self]

def ofNat (n : Nat) : Number where
  text := Nat.toDigits 10 n
  ok := isNumber_toDigits n
  numerals c hc := by simp [isNumeral, isDigit_toDigits n c hc]

theorem int?_ofNat (n : Nat) : (ofNat n).int? = some (n : Int) := by
  have hall := isDigit_toDigits n
  unfold int? ofNat
  dsimp only
  split
  · rename_i t heq
    have hminus := hall '-' (heq ▸ List.mem_cons_self)
    exact absurd hminus (by decide)
  · rw [if_pos (List.all_eq_true.mpr hall), Nat.ofDigitChars_ten_toDigits]

theorem ofNat_inj {m n : Nat} (h : ofNat m = ofNat n) : m = n := by
  have hm := int?_ofNat m
  rw [h, int?_ofNat] at hm
  exact (Int.ofNat_inj.mp (Option.some.inj hm)).symm

end Number

/-! ### Values -/

mutual

inductive Value
  | null
  | bool (b : Bool)
  | number (n : Number)
  | string (t : Text)
  | array (items : Items)
  | object (fields : Fields)

inductive Items
  | nil
  | cons (head : Value) (tail : Items)

inductive Fields
  | nil
  | cons (key : Text) (value : Value) (tail : Fields)

end

/-- `dict.get`, of an object that names no key twice. -/
def Fields.get (key : Text) : Fields → Option Value
  | .nil => none
  | .cons k value tail => if k = key then some value else tail.get key

def Fields.ofList : List (Text × Value) → Fields
  | [] => .nil
  | (key, value) :: fields => .cons key value (.ofList fields)

theorem Fields.get_ofList (key : Text) (fields : List (Text × Value)) :
    (Fields.ofList fields).get key = fields.lookup key := by
  induction fields with
  | nil => rfl
  | cons field fields ih =>
    obtain ⟨k, value⟩ := field
    by_cases hk : k = key
    · subst hk
      rw [ofList, get, if_pos rfl, List.lookup_cons, beq_self_eq_true]
    · rw [ofList, get, if_neg hk, List.lookup_cons, beq_eq_false_iff_ne.mpr (Ne.symm hk)]
      exact ih

/-! ### Writing -/

def escapeChar (c : Char) : Text :=
  if c = '"' then ['\\', '"']
  else if c = '\\' then ['\\', '\\']
  else if c = '\n' then ['\\', 'n']
  else if c = '\r' then ['\\', 'r']
  else if c = '\t' then ['\\', 't']
  else if c = '\x08' then ['\\', 'b']
  else if c = '\x0c' then ['\\', 'f']
  else if c.toNat < 32 then
    ['\\', 'u', '0', '0', Nat.digitChar (c.toNat / 16), Nat.digitChar (c.toNat % 16)]
  else [c]

def quote (t : Text) : Text := '"' :: (t.flatMap escapeChar ++ ['"'])

/-- A line break and the indentation after it. -/
def newline (depth : Nat) : Text := '\n' :: List.replicate (2 * depth) ' '

mutual

def Value.render (depth : Nat) : Value → Text
  | .null => ['n', 'u', 'l', 'l']
  | .bool true => ['t', 'r', 'u', 'e']
  | .bool false => ['f', 'a', 'l', 's', 'e']
  | .number n => n.text
  | .string t => quote t
  | .array .nil => ['[', ']']
  | .array (.cons head tail) =>
    '[' :: (newline (depth + 1) ++ (head.render (depth + 1) ++
      (tail.render (depth + 1) ++ (newline depth ++ [']']))))
  | .object .nil => ['{', '}']
  | .object (.cons key value tail) =>
    '{' :: (newline (depth + 1) ++ (quote key ++ (':' :: ' ' :: (value.render (depth + 1) ++
      (tail.render (depth + 1) ++ (newline depth ++ ['}']))))))

def Items.render (depth : Nat) : Items → Text
  | .nil => []
  | .cons head tail =>
    ',' :: (newline depth ++ (head.render depth ++ tail.render depth))

def Fields.render (depth : Nat) : Fields → Text
  | .nil => []
  | .cons key value tail =>
    ',' :: (newline depth ++ (quote key ++ (':' :: ' ' :: (value.render depth ++
      tail.render depth))))

end

def dumps (v : Value) : Text := v.render 0

/-! ### Reading -/

def isWhitespace (c : Char) : Bool :=
  c == ' ' || c == '\n' || c == '\r' || c == '\t'

def skip (t : Text) : Text := t.dropWhile isWhitespace

def hexValue (c : Char) : Option Nat :=
  if c.isDigit then some (c.toNat - '0'.toNat)
  else if 'a' ≤ c ∧ c ≤ 'f' then some (c.toNat - 'a'.toNat + 10)
  else if 'A' ≤ c ∧ c ≤ 'F' then some (c.toNat - 'A'.toNat + 10)
  else none

/-- The character of a `\u` escape; half a surrogate pair, which no text here writes, reads as NUL. -/
def unescape (a b c d : Char) : Option Char :=
  match hexValue a, hexValue b, hexValue c, hexValue d with
  | some a, some b, some c, some d => some (Char.ofNat (((a * 16 + b) * 16 + c) * 16 + d))
  | _, _, _, _ => none

def shortEscape (c : Char) : Option Char :=
  if c = '"' then some '"'
  else if c = '\\' then some '\\'
  else if c = '/' then some '/'
  else if c = 'n' then some '\n'
  else if c = 'r' then some '\r'
  else if c = 't' then some '\t'
  else if c = 'b' then some '\x08'
  else if c = 'f' then some '\x0c'
  else none

/-- A string's characters up to its closing quote, and what follows it. -/
def readString : Text → Option (Text × Text)
  | [] => none
  | '"' :: rest => some ([], rest)
  | '\\' :: 'u' :: a :: b :: c :: d :: rest =>
    (unescape a b c d).bind fun char => (readString rest).map fun out => (char :: out.1, out.2)
  | '\\' :: c :: rest =>
    (shortEscape c).bind fun char => (readString rest).map fun out => (char :: out.1, out.2)
  | c :: rest =>
    if c.toNat < 32 then none else (readString rest).map fun out => (c :: out.1, out.2)

def readScalar (t : Text) : Option (Value × Text) :=
  match t with
  | 'n' :: 'u' :: 'l' :: 'l' :: rest => some (.null, rest)
  | 't' :: 'r' :: 'u' :: 'e' :: rest => some (.bool true, rest)
  | 'f' :: 'a' :: 'l' :: 's' :: 'e' :: rest => some (.bool false, rest)
  | t =>
    if h : isNumber (t.takeWhile isNumeral) = true then
      some (.number ⟨t.takeWhile isNumeral, h, fun _ hc => List.mem_takeWhile_imp hc⟩,
        t.dropWhile isNumeral)
    else none

mutual

def readValue : Nat → Text → Option (Value × Text)
  | 0, _ => none
  | fuel + 1, t =>
    match skip t with
    | '"' :: t => (readString t).map fun out => (.string out.1, out.2)
    | '[' :: t =>
      match skip t with
      | ']' :: rest => some (.array .nil, rest)
      | _ => (readItems fuel t).map fun out => (.array out.1, out.2)
    | '{' :: t =>
      match skip t with
      | '}' :: rest => some (.object .nil, rest)
      | _ => (readFields fuel t).map fun out => (.object out.1, out.2)
    | t => readScalar t

/-- One value at least, up to the closing bracket. -/
def readItems : Nat → Text → Option (Items × Text)
  | 0, _ => none
  | fuel + 1, t =>
    match readValue fuel t with
    | none => none
    | some (head, rest) =>
      match skip rest with
      | ',' :: rest => (readItems fuel rest).map fun out => (.cons head out.1, out.2)
      | ']' :: rest => some (.cons head .nil, rest)
      | _ => none

/-- One field at least, up to the closing brace. -/
def readFields : Nat → Text → Option (Fields × Text)
  | 0, _ => none
  | fuel + 1, t =>
    match skip t with
    | '"' :: t =>
      match readString t with
      | none => none
      | some (key, rest) =>
        match skip rest with
        | ':' :: rest =>
          match readValue fuel rest with
          | none => none
          | some (value, rest) =>
            match skip rest with
            | ',' :: rest =>
              (readFields fuel rest).map fun out => (.cons key value out.1, out.2)
            | '}' :: rest => some (.cons key value .nil, rest)
            | _ => none
        | _ => none
    | _ => none

end

def loads (t : Text) : Option Value :=
  match readValue (t.length + 1) t with
  | some (v, rest) => if (skip rest).isEmpty then some v else none
  | none => none

/-! ### Scanning -/

variable {c : Char}

theorem skip_of_head (h : isWhitespace c = false) (t : Text) : skip (c :: t) = c :: t := by
  rw [skip, List.dropWhile_cons_of_neg (by simp [h])]

theorem skip_append {a : Text} (h : ∀ c ∈ a, isWhitespace c = true) (t : Text) :
    skip (a ++ t) = skip t := by
  induction a with
  | nil => rfl
  | cons c a ih =>
    rw [List.cons_append, skip, List.dropWhile_cons_of_pos (h c List.mem_cons_self)]
    exact ih fun x hx => h x (List.mem_cons_of_mem c hx)

theorem skip_newline (depth : Nat) (t : Text) : skip (newline depth ++ t) = skip t := by
  refine skip_append (fun c hc => ?_) t
  rcases List.mem_cons.mp hc with rfl | hc
  · rfl
  · rw [(List.mem_replicate.mp hc).2]
    rfl

theorem skip_suffix (t : Text) : skip t <:+ t := List.dropWhile_suffix _

variable {t rest : Text}

theorem whitespace_of_skip_eq_nil (h : skip t = []) : ∀ c ∈ t, isWhitespace c = true :=
  List.dropWhile_eq_nil_iff.mp h

/-! ### Strings -/

theorem hexValue_digitChar {d : Nat} (h : d < 16) : hexValue (Nat.digitChar d) = some d := by
  revert h d
  decide

theorem unescape_control (h : c.toNat < 32) :
    unescape '0' '0' (Nat.digitChar (c.toNat / 16)) (Nat.digitChar (c.toNat % 16)) = some c := by
  have hzero : hexValue '0' = some 0 := rfl
  have hhigh : hexValue (Nat.digitChar (c.toNat / 16)) = some (c.toNat / 16) :=
    hexValue_digitChar (by omega)
  have hlow : hexValue (Nat.digitChar (c.toNat % 16)) = some (c.toNat % 16) :=
    hexValue_digitChar (Nat.mod_lt _ (by decide))
  have hsum : ((0 * 16 + 0) * 16 + c.toNat / 16) * 16 + c.toNat % 16 = c.toNat := by omega
  rw [unescape, hzero, hhigh, hlow]
  simp only
  rw [hsum, Char.ofNat_toNat]

theorem readString_escapeChar (c : Char) (t : Text) :
    readString (escapeChar c ++ t) = (readString t).map fun out => (c :: out.1, out.2) := by
  by_cases hquote : c = '"'
  · subst hquote
    simp [escapeChar, readString, shortEscape]
  by_cases hback : c = '\\'
  · subst hback
    simp [escapeChar, readString, shortEscape]
  by_cases hn : c = '\n'
  · subst hn
    simp [escapeChar, readString, shortEscape]
  by_cases hr : c = '\r'
  · subst hr
    simp [escapeChar, readString, shortEscape]
  by_cases ht : c = '\t'
  · subst ht
    simp [escapeChar, readString, shortEscape]
  by_cases hb : c = '\x08'
  · subst hb
    simp [escapeChar, readString, shortEscape]
  by_cases hf : c = '\x0c'
  · subst hf
    simp [escapeChar, readString, shortEscape]
  by_cases hcontrol : c.toNat < 32
  · simp [escapeChar, hquote, hback, hn, hr, ht, hb, hf, hcontrol, readString,
      unescape_control hcontrol]
  · simp [escapeChar, hquote, hback, hn, hr, ht, hb, hf, hcontrol, readString]

theorem readString_escape (t rest : Text) :
    readString (t.flatMap escapeChar ++ '"' :: rest) = some (t, rest) := by
  induction t with
  | nil => simp [readString]
  | cons c t ih =>
    rw [List.flatMap_cons, List.append_assoc, readString_escapeChar, ih, Option.map_some]

theorem readString_suffix {s : Text} (h : readString t = some (s, rest)) : rest <:+ t := by
  fun_induction readString t generalizing s rest with
  | case1 => cases h
  | case2 tail =>
    cases h
    exact List.suffix_cons _ _
  | case3 a b c d tail ih =>
    obtain ⟨char, -, hmap⟩ := Option.bind_eq_some_iff.mp h
    obtain ⟨out, hout, heq⟩ := Option.map_eq_some_iff.mp hmap
    cases heq
    exact (ih hout).trans ⟨['\\', 'u', a, b, c, d], rfl⟩
  | case4 c tail _ ih =>
    obtain ⟨char, -, hmap⟩ := Option.bind_eq_some_iff.mp h
    obtain ⟨out, hout, heq⟩ := Option.map_eq_some_iff.mp hmap
    cases heq
    exact (ih hout).trans ⟨['\\', c], rfl⟩
  | case5 => cases h
  | case6 c tail _ _ _ _ ih =>
    obtain ⟨out, hout, heq⟩ := Option.map_eq_some_iff.mp h
    cases heq
    exact (ih hout).trans (List.suffix_cons _ _)

/-! ### Numbers -/

/-- What follows a value does not go on with a number. -/
def Stops (rest : Text) : Prop := ∀ c ∈ rest.head?, isNumeral c = false

theorem takeWhile_stops {a : Text} (ha : ∀ c ∈ a, isNumeral c = true) (h : Stops rest) :
    (a ++ rest).takeWhile isNumeral = a ∧ (a ++ rest).dropWhile isNumeral = rest := by
  induction a with
  | nil =>
    cases rest with
    | nil => exact ⟨rfl, rfl⟩
    | cons c rest =>
      have hc : isNumeral c = false := h c rfl
      simp [hc]
  | cons c a ih =>
    have hc := ha c List.mem_cons_self
    obtain ⟨htake, hdrop⟩ := ih fun x hx => ha x (List.mem_cons_of_mem c hx)
    simp [hc, htake, hdrop]

theorem Number.text_ne_nil (n : Number) : n.text ≠ [] := by
  intro h
  have hok := n.ok
  rw [h] at hok
  exact absurd hok (by decide)

theorem readScalar_number (n : Number) (h : Stops rest) :
    readScalar (n.text ++ rest) = some (.number n, rest) := by
  obtain ⟨htake, hdrop⟩ := takeWhile_stops n.numerals h
  obtain ⟨c, t, htext⟩ := List.exists_cons_of_ne_nil n.text_ne_nil
  have hc : isNumeral c = true := n.numerals c (htext ▸ List.mem_cons_self)
  have hn : c ≠ 'n' := by rintro rfl; exact absurd hc (by decide)
  have ht : c ≠ 't' := by rintro rfl; exact absurd hc (by decide)
  have hf : c ≠ 'f' := by rintro rfl; exact absurd hc (by decide)
  unfold readScalar
  split
  · rename_i heq
    rw [htext] at heq
    exact absurd (List.cons.inj heq).1 hn
  · rename_i heq
    rw [htext] at heq
    exact absurd (List.cons.inj heq).1 ht
  · rename_i heq
    rw [htext] at heq
    exact absurd (List.cons.inj heq).1 hf
  · have hok : isNumber ((n.text ++ rest).takeWhile isNumeral) = true := by
      rw [htake]
      exact n.ok
    rw [dif_pos hok, hdrop]
    simp only [htake]

theorem readScalar_suffix {v : Value} (h : readScalar t = some (v, rest)) : rest <:+ t := by
  unfold readScalar at h
  split at h
  · cases h
    exact ⟨['n', 'u', 'l', 'l'], rfl⟩
  · cases h
    exact ⟨['t', 'r', 'u', 'e'], rfl⟩
  · cases h
    exact ⟨['f', 'a', 'l', 's', 'e'], rfl⟩
  · split at h
    · cases h
      exact List.dropWhile_suffix _
    · cases h

/-! ### What is written reads back -/

mutual

def Value.weight : Value → Nat
  | .array items => 1 + items.weight
  | .object fields => 1 + fields.weight
  | _ => 1

def Items.weight : Items → Nat
  | .nil => 0
  | .cons head tail => 1 + head.weight + tail.weight

def Fields.weight : Fields → Nat
  | .nil => 0
  | .cons _ value tail => 1 + value.weight + tail.weight

end

theorem Value.render_head (v : Value) (depth : Nat) :
    ∃ c t, v.render depth = c :: t ∧ isWhitespace c = false ∧ c ≠ ']' := by
  cases v with
  | null => exact ⟨_, _, rfl, rfl, by decide⟩
  | bool b => cases b <;> exact ⟨_, _, rfl, rfl, by decide⟩
  | number n =>
    obtain ⟨c, t, htext⟩ := List.exists_cons_of_ne_nil n.text_ne_nil
    have hc : isNumeral c = true := n.numerals c (htext ▸ List.mem_cons_self)
    refine ⟨c, t, htext, ?_, ?_⟩
    · rw [Bool.eq_false_iff]
      intro hspace
      simp only [isWhitespace, Bool.or_eq_true, beq_iff_eq] at hspace
      rcases hspace with ((rfl | rfl) | rfl) | rfl <;> exact absurd hc (by decide)
    · rintro rfl
      exact absurd hc (by decide)
  | string t => exact ⟨_, _, rfl, rfl, by decide⟩
  | array items => cases items <;> exact ⟨_, _, rfl, rfl, by decide⟩
  | object fields => cases fields <;> exact ⟨_, _, rfl, rfl, by decide⟩

theorem readValue_newline (fuel depth : Nat) (t : Text) :
    readValue fuel (newline depth ++ t) = readValue fuel t := by
  cases fuel with
  | zero => simp only [readValue]
  | succ fuel => simp only [readValue, skip_newline]

theorem stops_cons (h : isNumeral c = false) : Stops (c :: rest) := by
  intro x hx
  cases hx
  exact h

/-- With this much fuel every value, and every list of items or fields, reads back. -/
structure ReadsBack (fuel : Nat) : Prop where
  value : ∀ (v : Value) (depth : Nat) (rest : Text), v.weight ≤ fuel → Stops rest →
    readValue fuel (v.render depth ++ rest) = some (v, rest)
  items : ∀ (head : Value) (tail : Items) (depth outer : Nat) (rest : Text),
    1 + head.weight + tail.weight ≤ fuel →
    readItems fuel (newline depth ++ (head.render depth ++ (tail.render depth ++
      (newline outer ++ ']' :: rest)))) = some (.cons head tail, rest)
  fields : ∀ (key : Text) (value : Value) (tail : Fields) (depth outer : Nat) (rest : Text),
    1 + value.weight + tail.weight ≤ fuel →
    readFields fuel (newline depth ++ (quote key ++ (':' :: ' ' :: (value.render depth ++
      (tail.render depth ++ (newline outer ++ '}' :: rest)))))) =
      some (.cons key value tail, rest)

namespace ReadsBack

variable {fuel : Nat}

theorem number_succ (n : Number) (depth : Nat) {rest : Text} (hrest : Stops rest) :
    readValue (fuel + 1) ((Value.number n).render depth ++ rest) = some (.number n, rest) := by
  obtain ⟨c, t, htext⟩ := List.exists_cons_of_ne_nil n.text_ne_nil
  have hc : isNumeral c = true := n.numerals c (htext ▸ List.mem_cons_self)
  obtain ⟨c', t', hhead, hspace, -⟩ := Value.render_head (.number n) depth
  obtain ⟨rfl, rfl⟩ := List.cons.inj (htext.symm.trans hhead)
  have hskip : skip ((Value.number n).render depth ++ rest) = n.text ++ rest := by
    rw [Value.render, htext, List.cons_append, skip_of_head hspace]
  simp only [readValue, hskip]
  split
  · rename_i heq
    rw [htext] at heq
    rw [(List.cons.inj heq).1] at hc
    exact absurd hc (by decide)
  · rename_i heq
    rw [htext] at heq
    rw [(List.cons.inj heq).1] at hc
    exact absurd hc (by decide)
  · rename_i heq
    rw [htext] at heq
    rw [(List.cons.inj heq).1] at hc
    exact absurd hc (by decide)
  · exact readScalar_number n hrest

theorem value_succ (h : ReadsBack fuel) (v : Value) (depth : Nat) (rest : Text)
    (hw : v.weight ≤ fuel + 1) (hrest : Stops rest) :
    readValue (fuel + 1) (v.render depth ++ rest) = some (v, rest) := by
  match v with
  | .null => rfl
  | .bool true => rfl
  | .bool false => rfl
  | .number n => exact number_succ n depth hrest
  | .string t =>
    simp only [Value.render, quote, readValue, List.cons_append, List.append_assoc,
      List.nil_append]
    rw [skip_of_head (by decide)]
    simp only [readString_escape, Option.map_some]
  | .array .nil => rfl
  | .array (.cons head tail) =>
    simp only [Value.render, List.cons_append, List.append_assoc, List.nil_append, readValue]
    rw [skip_of_head (by decide)]
    obtain ⟨c, t, hhead, hspace, hne⟩ := head.render_head (depth + 1)
    have hskip : skip (newline (depth + 1) ++ (head.render (depth + 1) ++
        (tail.render (depth + 1) ++ (newline depth ++ ']' :: rest)))) =
        c :: (t ++ (tail.render (depth + 1) ++ (newline depth ++ ']' :: rest))) := by
      rw [skip_newline, hhead, List.cons_append, skip_of_head hspace]
    have hread := h.items head tail (depth + 1) depth rest (by
      simp only [Value.weight, Items.weight] at hw
      omega)
    simp only [hskip]
    split
    · rename_i heq
      exact absurd (List.cons.inj heq).1 hne
    · rw [hread, Option.map_some]
  | .object .nil => rfl
  | .object (.cons key value tail) =>
    simp only [Value.render, List.cons_append, List.append_assoc, readValue]
    rw [skip_of_head (by decide)]
    have hread := h.fields key value tail (depth + 1) depth rest (by
      simp only [Value.weight, Fields.weight] at hw
      omega)
    simp only [skip_newline, quote, List.cons_append]
    rw [skip_of_head (by decide)]
    simp only [quote, List.cons_append, List.append_assoc, List.nil_append] at hread ⊢
    rw [hread, Option.map_some]
    rfl

theorem items_succ (h : ReadsBack fuel) (head : Value) (tail : Items) (depth outer : Nat)
    (rest : Text) (hw : 1 + head.weight + tail.weight ≤ fuel + 1) :
    readItems (fuel + 1) (newline depth ++ (head.render depth ++ (tail.render depth ++
      (newline outer ++ ']' :: rest)))) = some (.cons head tail, rest) := by
  match tail with
  | .nil =>
    have hread := h.value head depth (newline outer ++ ']' :: rest) (by omega)
      (stops_cons (by decide))
    simp only [Items.render, List.nil_append, readItems, readValue_newline, hread, skip_newline]
    rfl
  | .cons next tail =>
    have hread := h.value head depth (',' :: (newline depth ++
      (next.render depth ++ (tail.render depth ++ (newline outer ++ ']' :: rest))))) (by omega)
      (stops_cons (by decide))
    have hmore := h.items next tail depth outer rest (by
      simp only [Items.weight] at hw
      omega)
    simp only [Items.render, List.cons_append, List.append_assoc, readItems, readValue_newline,
      hread]
    rw [skip_of_head (by decide)]
    simp only [hmore, Option.map_some]

theorem readValue_space (fuel : Nat) (t : Text) : readValue fuel (' ' :: t) = readValue fuel t := by
  have hspace : isWhitespace ' ' = true := rfl
  cases fuel with
  | zero => simp only [readValue]
  | succ fuel => simp only [readValue, skip, List.dropWhile_cons_of_pos hspace]

theorem fields_succ (h : ReadsBack fuel) (key : Text) (value : Value) (tail : Fields)
    (depth outer : Nat) (rest : Text) (hw : 1 + value.weight + tail.weight ≤ fuel + 1) :
    readFields (fuel + 1) (newline depth ++ (quote key ++ (':' :: ' ' :: (value.render depth ++
      (tail.render depth ++ (newline outer ++ '}' :: rest)))))) =
      some (.cons key value tail, rest) := by
  match tail with
  | .nil =>
    have hread := h.value value depth (newline outer ++ '}' :: rest) (by omega)
      (stops_cons (by decide))
    simp only [Fields.render, List.nil_append, readFields, skip_newline, quote, List.cons_append,
      List.append_assoc]
    rw [skip_of_head (by decide)]
    simp only [readString_escape]
    rw [skip_of_head (by decide)]
    simp only [readValue_space, hread, skip_newline]
    rfl
  | .cons nextKey next tail =>
    have hread := h.value value depth (',' :: (newline depth ++ (quote nextKey ++
      (':' :: ' ' :: (next.render depth ++ (tail.render depth ++
        (newline outer ++ '}' :: rest))))))) (by omega) (stops_cons (by decide))
    have hmore := h.fields nextKey next tail depth outer rest (by
      simp only [Fields.weight] at hw
      omega)
    simp only [Fields.render, readFields, skip_newline, quote, List.cons_append,
      List.append_assoc, List.nil_append] at hread hmore ⊢
    rw [skip_of_head (by decide)]
    simp only [readString_escape]
    rw [skip_of_head (by decide)]
    simp only [readValue_space, hread]
    rw [skip_of_head (by decide)]
    simp only [hmore, Option.map_some]

end ReadsBack

theorem readsBack (fuel : Nat) : ReadsBack fuel := by
  induction fuel with
  | zero =>
    refine ⟨fun v _ _ hw => ?_, fun _ _ _ _ _ hw => by omega, fun _ _ _ _ _ _ hw => by omega⟩
    cases v <;> simp only [Value.weight] at hw <;> omega
  | succ fuel ih => exact ⟨ih.value_succ, ih.items_succ, ih.fields_succ⟩

mutual

theorem Value.weight_le (v : Value) (depth : Nat) : v.weight ≤ (v.render depth).length := by
  match v with
  | .null => simp [Value.weight, Value.render]
  | .bool true => simp [Value.weight, Value.render]
  | .bool false => simp [Value.weight, Value.render]
  | .number n =>
    have hpos := List.length_pos_iff.mpr n.text_ne_nil
    simp only [Value.weight, Value.render]
    omega
  | .string t => simp [Value.weight, Value.render, quote]
  | .array .nil => simp [Value.weight, Items.weight, Value.render]
  | .array (.cons head tail) =>
    have hhead := head.weight_le (depth + 1)
    have htail := tail.weight_le (depth + 1)
    simp only [Value.weight, Items.weight, Value.render, newline, List.length_cons,
      List.length_append]
    omega
  | .object .nil => simp [Value.weight, Fields.weight, Value.render]
  | .object (.cons key value tail) =>
    have hvalue := value.weight_le (depth + 1)
    have htail := tail.weight_le (depth + 1)
    simp only [Value.weight, Fields.weight, Value.render, newline, List.length_cons,
      List.length_append]
    omega

theorem Items.weight_le (items : Items) (depth : Nat) :
    items.weight ≤ (items.render depth).length := by
  match items with
  | .nil => simp [Items.weight, Items.render]
  | .cons head tail =>
    have hhead := head.weight_le depth
    have htail := tail.weight_le depth
    simp only [Items.weight, Items.render, List.length_cons, List.length_append]
    omega

theorem Fields.weight_le (fields : Fields) (depth : Nat) :
    fields.weight ≤ (fields.render depth).length := by
  match fields with
  | .nil => simp [Fields.weight, Fields.render]
  | .cons key value tail =>
    have hvalue := value.weight_le depth
    have htail := tail.weight_le depth
    simp only [Fields.weight, Fields.render, List.length_cons, List.length_append]
    omega

end

/-- **What is written reads back.** -/
theorem loads_dumps (v : Value) : loads (dumps v) = some v := by
  have hweight := v.weight_le 0
  have hread : readValue ((dumps v).length + 1) (dumps v ++ []) = some (v, []) :=
    (readsBack _).value v 0 [] (Nat.le_succ_of_le hweight) nofun
  rw [List.append_nil] at hread
  rw [loads, hread]
  rfl

theorem Fields.length_quote_le (fields : List (Text × Value)) (depth : Nat) {key : Text}
    (h : (key, Value.string t) ∈ fields) :
    (quote t).length ≤ ((Fields.ofList fields).render depth).length := by
  induction fields with
  | nil => cases h
  | cons field fields ih =>
    simp only [Fields.ofList, Fields.render, List.length_cons, List.length_append]
    rcases List.mem_cons.mp h with heq | h
    · cases heq
      simp only [Value.render]
      omega
    · have := ih h
      omega

/-- **An object's text is no shorter than the strings in it.** -/
theorem length_dumps {fields : List (Text × Value)} {key : Text}
    (h : (key, Value.string t) ∈ fields) :
    (quote t).length ≤ (dumps (.object (.ofList fields))).length := by
  cases fields with
  | nil => cases h
  | cons field fields =>
    simp only [dumps, Fields.ofList, Value.render, List.length_cons, List.length_append]
    rcases List.mem_cons.mp h with heq | h
    · cases heq
      simp only [Value.render]
      omega
    · have := Fields.length_quote_le fields (0 + 1) h
      omega

/-! ### What an object's text ends with -/

theorem cons_suffix_of_skip {tail : Text} (h : skip t = c :: tail) :
    c :: tail <:+ t := h ▸ skip_suffix t

theorem suffix_of_skip {tail : Text} (h : skip t = c :: tail) : tail <:+ t :=
  (List.suffix_cons c tail).trans (cons_suffix_of_skip h)

section Suffixes

variable {fuel : Nat}
  (hvalue : ∀ t v rest, readValue fuel t = some (v, rest) → rest <:+ t)
  (hitems : ∀ t items rest, readItems fuel t = some (items, rest) → rest <:+ t)
  (hfields : ∀ t fields rest, readFields fuel t = some (fields, rest) → '}' :: rest <:+ t)

include hitems hfields in
theorem readValue_suffix {t rest : Text} {v : Value} (h : readValue (fuel + 1) t = some (v, rest)) :
    rest <:+ t := by
  simp only [readValue] at h
  split at h
  · rename_i tail hquote
    obtain ⟨out, hout, hpair⟩ := Option.map_eq_some_iff.mp h
    cases hpair
    exact (readString_suffix hout).trans (suffix_of_skip hquote)
  · rename_i tail hbracket
    refine List.IsSuffix.trans ?_ (suffix_of_skip hbracket)
    split at h
    · rename_i tail' hclosed
      cases h
      exact suffix_of_skip hclosed
    · obtain ⟨out, hout, hpair⟩ := Option.map_eq_some_iff.mp h
      cases hpair
      exact hitems _ _ _ hout
  · rename_i tail hbrace
    refine List.IsSuffix.trans ?_ (suffix_of_skip hbrace)
    split at h
    · rename_i tail' hclosed
      cases h
      exact suffix_of_skip hclosed
    · obtain ⟨out, hout, hpair⟩ := Option.map_eq_some_iff.mp h
      cases hpair
      exact (List.suffix_cons _ _).trans (hfields _ _ _ hout)
  · exact (readScalar_suffix h).trans (skip_suffix t)

include hvalue hitems in
theorem readItems_suffix {t rest : Text} {items : Items}
    (h : readItems (fuel + 1) t = some (items, rest)) : rest <:+ t := by
  simp only [readItems] at h
  split at h
  · cases h
  · rename_i head mid hhead
    refine List.IsSuffix.trans ?_ (hvalue _ _ _ hhead)
    split at h
    · rename_i tail hcomma
      obtain ⟨out, hout, hpair⟩ := Option.map_eq_some_iff.mp h
      cases hpair
      exact (hitems _ _ _ hout).trans (suffix_of_skip hcomma)
    · rename_i tail hclosed
      cases h
      exact suffix_of_skip hclosed
    · cases h

include hvalue hfields in
theorem readFields_suffix {t rest : Text} {fields : Fields}
    (h : readFields (fuel + 1) t = some (fields, rest)) : '}' :: rest <:+ t := by
  simp only [readFields] at h
  split at h
  · rename_i tail hquote
    refine List.IsSuffix.trans ?_ (suffix_of_skip hquote)
    split at h
    · cases h
    · rename_i key mid hkey
      refine List.IsSuffix.trans ?_ (readString_suffix hkey)
      split at h
      · rename_i after hcolon
        refine List.IsSuffix.trans ?_ (suffix_of_skip hcolon)
        split at h
        · cases h
        · rename_i value last hread
          refine List.IsSuffix.trans ?_ (hvalue _ _ _ hread)
          split at h
          · rename_i tail' hcomma
            obtain ⟨out, hout, hpair⟩ := Option.map_eq_some_iff.mp h
            cases hpair
            exact (hfields _ _ _ hout).trans (suffix_of_skip hcomma)
          · rename_i tail' hclosed
            cases h
            exact cons_suffix_of_skip hclosed
          · cases h
      · cases h
  · cases h

end Suffixes

theorem suffixes (fuel : Nat) :
    (∀ t v rest, readValue fuel t = some (v, rest) → rest <:+ t) ∧
    (∀ t items rest, readItems fuel t = some (items, rest) → rest <:+ t) ∧
    ∀ t fields rest, readFields fuel t = some (fields, rest) → '}' :: rest <:+ t := by
  induction fuel with
  | zero => exact ⟨nofun, nofun, nofun⟩
  | succ fuel ih =>
    obtain ⟨hvalue, hitems, hfields⟩ := ih
    exact ⟨fun _ _ _ => readValue_suffix hitems hfields,
      fun _ _ _ => readItems_suffix hvalue hitems,
      fun _ _ _ => readFields_suffix hvalue hfields⟩

theorem readValue_brace (fuel : Nat) (t : Text) :
    readValue (fuel + 1) ('{' :: t) = match skip t with
      | '}' :: rest => some (.object .nil, rest)
      | _ => (readFields fuel t).map fun out => (.object out.1, out.2) := by
  have hbrace : isWhitespace '{' = false := rfl
  simp only [readValue, skip_of_head hbrace]

/-- **A text that opens an object and reads ends with its brace**, but for white space. -/
theorem ends_of_loads {t : Text} {v : Value} (h : loads ('{' :: t) = some v) :
    ∃ front space, '{' :: t = front ++ '}' :: space ∧ ∀ c ∈ space, isWhitespace c = true := by
  unfold loads at h
  split at h
  · rename_i w rest hread
    split at h
    · rename_i hspace
      have hwhite := whitespace_of_skip_eq_nil (List.isEmpty_iff.mp hspace)
      rw [readValue_brace] at hread
      have hsuffix : '}' :: rest <:+ t := by
        split at hread
        · rename_i tail heq
          cases hread
          exact heq ▸ skip_suffix t
        · obtain ⟨out, hout, hpair⟩ := Option.map_eq_some_iff.mp hread
          cases hpair
          exact (suffixes _).2.2 _ _ _ hout
      obtain ⟨front, hfront⟩ := hsuffix
      exact ⟨'{' :: front, rest, by rw [List.cons_append, hfront], hwhite⟩
    · cases h
  · cases h

end QnscKb.JsonText
