import QnscKb.Lib.Substitution
import QnscKb.Lib.Text

/-!
# Logs — Redaction

What is taken out of a text before it is logged (`redact` of `src/lib/log_redaction.py`): the values
of query parameters with a sensitive name, and bearer tokens.  The word characters of `\w` and the
lower-casing of names are parameters.
-/

namespace QnscKb.Logs

open Substitution
open Text (isSpace)

/-- What `\w` matches: letters, digits and the underscore among the ASCII characters, and no white
space. -/
structure Words where
  word : Char → Bool
  word_ascii : ∀ c, c.toNat < 128 → word c = (c.isAlphanum || c == '_')
  word_visible : ∀ c, isSpace c = true → word c = false

variable (W : Words) (lower : Text → Text)

/-! ### Names -/

def wholeNames : List Text :=
  ["tempauth", "auth", "authorization", "token", "sig", "signature", "secret", "password", "passwd",
    "pwd", "code", "key", "apikey", "sas", "credential", "credentials", "assertion", "jwt",
    "bearer"].map String.toList

def secretWords : List Text :=
  ["token", "secret", "signature", "password", "passwd", "credential", "assertion", "apikey",
    "tokens", "secrets", "signatures", "passwords", "credentials", "assertions",
    "apikeys"].map String.toList

def keyPrefixes : List Text :=
  ["api", "access", "secret", "private", "subscription", "signing", "encryption",
    "x"].map String.toList

/-- `_CAMEL.sub("-", …)`. -/
def camel : Text → Text
  | [] => []
  | [c] => [c]
  | c :: d :: t =>
    if (c.isLower || c.isDigit) && d.isUpper then c :: '-' :: camel (d :: t)
    else c :: camel (d :: t)

def nameWords (name : Text) : List Text :=
  (((camel name).splitOnP fun c => c == '-' || c == '_' || c == '.').filter (!·.isEmpty)).map lower

def sensitiveName (name : Text) : Bool :=
  match (nameWords lower name).reverse with
  | [] => false
  | last :: before =>
    wholeNames.contains (nameWords lower name).flatten || secretWords.contains last ||
      last == "key".toList && before.head?.any keyPrefixes.contains

/-! ### Parameters -/

def redacted : Text := "[REDACTED]".toList

/-- `[?&;]`. -/
def isSep (c : Char) : Bool := c == '?' || c == '&' || c == ';'

/-- `[\w.\-]`. -/
def isName (c : Char) : Bool := W.word c || c == '.' || c == '-'

/-- `[^&\s'"<>#]`. -/
def isValue (c : Char) : Bool :=
  !(isSpace c || "&'\"<>#".toList.contains c)

/-- The name and the value, possibly empty, that a text opens with. -/
def paramOf (t : Text) : Option (Text × Text) :=
  match t.takeWhile (isName W), t.dropWhile (isName W) with
  | _ :: _, '=' :: rest => some (t.takeWhile (isName W), rest.takeWhile isValue)
  | _, _ => none

/-- What `_redact_param` writes for a value. -/
def shown (name value : Text) : Text := if sensitiveName lower name then redacted else value

/-- `_QUERY_PARAM`, each match with what `_redact_param` makes of it. -/
def queryParam : Pattern Char
  | _, [] => none
  | _, c :: t =>
    if isSep c then
      match paramOf W t with
      | some (name, value) =>
        if value.isEmpty then none
        else some (c :: (name ++ '=' :: value), c :: (name ++ '=' :: shown lower name value))
      | none => none
    else none

/-! ### Bearer tokens -/

/-- The letters of the word, in either case. -/
def bearerLetters : List (Char × Char) :=
  [('b', 'B'), ('e', 'E'), ('a', 'A'), ('r', 'R'), ('e', 'E'), ('r', 'R')]

def afterWord : List (Char × Char) → Text → Option Text
  | [], t => some t
  | _ :: _, [] => none
  | (small, capital) :: letters, c :: t =>
    if c = small ∨ c = capital then afterWord letters t else none

/-- `[A-Za-z0-9._~+/=\-]`, with the four characters beyond ASCII that differ from one of these in
letter case alone. -/
def isToken (c : Char) : Bool :=
  c.isAlphanum || ['.', '_', '~', '+', '/', '=', '-'].contains c ||
    [0x130, 0x131, 0x17F, 0x212A].contains c.toNat

/-- The word and the white space behind it, and the token, at the head of a text. -/
def bearerOf (t : Text) : Option (Text × Text) :=
  match afterWord bearerLetters t with
  | none => none
  | some rest =>
    let token := (Text.lstrip rest).takeWhile isToken
    if rest.head?.any isSpace && decide (12 ≤ token.length) then
      some (t.take (t.length - (Text.lstrip rest).length), token)
    else none

/-- `_BEARER`, each match with `\1[REDACTED]`. -/
def bearer : Pattern Char := fun prev t =>
  if prev.any W.word then none
  else (bearerOf t).map fun (kept, token) => (kept ++ token, kept ++ redacted)

/-- Whether `earer` stands in a text. -/
def saysEarer (t : Text) : Bool := t.tails.any fun s => "earer".toList.isPrefixOf s

def quick (t : Text) : Bool := !t.contains '=' && !saysEarer t

def full (t : Text) : Text := subst (bearer W) (subst (queryParam W lower) t)

def redact (t : Text) : Text := if quick t then t else full W lower t

variable {W lower}

/-! ### Where the bearer pattern matches -/

/-- A word in its letters, each in either case. -/
def Spelled (letters : List (Char × Char)) (w : Text) : Prop :=
  List.Forall₂ (fun letter c => c = letter.1 ∨ c = letter.2) letters w

variable {t token : Text}

theorem afterWord_iff {letters : List (Char × Char)} {rest : Text} :
    afterWord letters t = some rest ↔ ∃ w, Spelled letters w ∧ t = w ++ rest := by
  induction letters generalizing t with
  | nil => simp [afterWord, Spelled]
  | cons letter letters ih =>
    cases t with
    | nil => simp [afterWord, Spelled]
    | cons c t =>
      rw [afterWord]
      constructor
      · intro h
        split at h
        · rename_i hc
          obtain ⟨w, hw, rfl⟩ := ih.mp h
          exact ⟨c :: w, .cons hc hw, rfl⟩
        · cases h
      · rintro ⟨w, hw, ht⟩
        cases hw with
        | cons hc hw =>
          obtain ⟨rfl, rfl⟩ := List.cons.inj ht
          rw [if_pos hc]
          exact ih.mpr ⟨_, hw, rfl⟩

/-- The word, the white space behind it and twelve characters of a token or more. -/
structure Credential (w gap token : Text) : Prop where
  spelled : Spelled bearerLetters w
  gap_ne : gap ≠ []
  gap_space : ∀ c ∈ gap, isSpace c = true
  token_long : 12 ≤ token.length
  token_chars : ∀ c ∈ token, isToken c = true

theorem not_isSpace_of_isToken {c : Char} (h : isToken c = true) : isSpace c = false := by
  simp only [isToken, Bool.or_eq_true] at h
  rcases h with (h | h) | h
  · have hclass : c.isAlphanum = (c.isUpper || c.isLower || c.isDigit) := rfl
    have hupper : c.isUpper = decide (c.val ≥ 'A'.val ∧ c.val ≤ 'Z'.val) := rfl
    have hlower : c.isLower = (decide (c.val ≥ 'a'.val) && decide (c.val ≤ 'z'.val)) := rfl
    have hdigit : c.isDigit = (decide (c.val ≥ '0'.val) && decide (c.val ≤ '9'.val)) := rfl
    rw [hclass, hupper, hlower, hdigit] at h
    simp only [Bool.or_eq_true, Bool.and_eq_true, decide_eq_true_eq, UInt32.le_iff_toNat_le,
      ge_iff_le] at h
    have hnat : c.toNat = c.val.toNat := rfl
    have hA : 'A'.val.toNat = 65 := rfl
    have ha : 'a'.val.toNat = 97 := rfl
    have h0 : '0'.val.toNat = 48 := rfl
    have hZ : 'Z'.val.toNat = 90 := rfl
    have hz : 'z'.val.toNat = 122 := rfl
    have h9 : '9'.val.toNat = 57 := rfl
    simp only [isSpace, Bool.or_eq_false_iff, Bool.and_eq_false_iff, decide_eq_false_iff_not,
      beq_eq_false_iff_ne]
    omega
  · have hmem := List.contains_iff_mem.mp h
    simp only [List.mem_cons, List.not_mem_nil, or_false] at hmem
    rcases hmem with rfl | rfl | rfl | rfl | rfl | rfl | rfl <;> rfl
  · have hmem := List.contains_iff_mem.mp h
    simp only [List.mem_cons, List.not_mem_nil, or_false] at hmem
    simp only [isSpace, Bool.or_eq_false_iff, Bool.and_eq_false_iff, decide_eq_false_iff_not,
      beq_eq_false_iff_ne]
    omega

theorem lstrip_gap {gap z : Text} (hgap : ∀ c ∈ gap, isSpace c = true) (hne : token ≠ [])
    (htoken : ∀ c ∈ token, isToken c = true) : Text.lstrip (gap ++ (token ++ z)) = token ++ z := by
  refine Text.dropWhile_run hgap fun c hc => ?_
  obtain ⟨d, token, rfl⟩ := List.exists_cons_of_ne_nil hne
  obtain rfl : d = c := Option.some.inj hc
  exact not_isSpace_of_isToken (htoken d List.mem_cons_self)

theorem bearerOf_some {kept : Text} (h : bearerOf t = some (kept, token)) :
    ∃ w gap rest, Credential w gap token ∧ kept = w ++ gap ∧ t = kept ++ (token ++ rest) ∧
      rest.head?.any isToken = false := by
  rw [bearerOf] at h
  split at h
  · cases h
  · rename_i rest hword
    obtain ⟨w, hw, rfl⟩ := afterWord_iff.mp hword
    obtain ⟨gap, hgap, hrest, hstop⟩ := Text.dropWhile_split isSpace rest
    rw [← Text.lstrip] at hrest hstop
    dsimp only at h
    generalize Text.lstrip rest = behind at h hrest hstop
    subst hrest
    split at h
    · rename_i hfound
      obtain ⟨hspace, hlong⟩ := Bool.and_eq_true_iff.mp hfound
      obtain ⟨rfl, rfl⟩ := Prod.mk.inj (Option.some.inj h)
      have hne : gap ≠ [] := by
        rintro rfl
        cases behind with
        | nil => cases hspace
        | cons c behind =>
          rw [List.nil_append, List.head?_cons, Option.any_some, hstop c rfl] at hspace
          cases hspace
      have hkept : (w ++ (gap ++ behind)).take
          ((w ++ (gap ++ behind)).length - behind.length) = w ++ gap := by
        rw [← List.append_assoc, List.length_append, Nat.add_sub_cancel, List.take_left]
      refine ⟨w, gap, behind.dropWhile isToken, ⟨hw, hne, hgap, by simpa using hlong,
        fun c hc => List.mem_takeWhile_imp hc⟩, hkept, ?_, ?_⟩
      · rw [hkept, List.takeWhile_append_dropWhile, List.append_assoc]
      · have hhead := List.head?_dropWhile_not isToken behind
        cases hback : (behind.dropWhile isToken).head? with
        | none => rfl
        | some c =>
          rw [hback] at hhead
          simpa using hhead
    · cases h

theorem Credential.found {w gap z : Text} (h : Credential w gap token) :
    (bearerOf (w ++ (gap ++ (token ++ z)))).isSome = true := by
  have hne : token ≠ [] := by
    rintro rfl
    exact absurd h.token_long (by decide)
  have hword : afterWord bearerLetters (w ++ (gap ++ (token ++ z))) =
      some (gap ++ (token ++ z)) :=
    afterWord_iff.mpr ⟨w, h.spelled, rfl⟩
  have hspace : (gap ++ (token ++ z)).head?.any isSpace = true := by
    obtain ⟨c, gap, rfl⟩ := List.exists_cons_of_ne_nil h.gap_ne
    exact h.gap_space c List.mem_cons_self
  have hlong : 12 ≤ ((token ++ z).takeWhile isToken).length := by
    rw [List.takeWhile_append_of_pos h.token_chars, List.length_append]
    exact h.token_long.trans (Nat.le_add_right _ _)
  rw [bearerOf, hword]
  dsimp only
  rw [lstrip_gap h.gap_space hne h.token_chars, hspace, decide_eq_true hlong]
  rfl

/-- A bearer token stands in a text, where a word can begin. -/
def CarriesBearer (W : Words) (t : Text) : Prop :=
  ∃ a w gap token b, t = a ++ (w ++ (gap ++ (token ++ b))) ∧ a.getLast?.any W.word = false ∧
    Credential w gap token

theorem Spelled.ne_nil {w : Text} (h : Spelled bearerLetters w) : w ≠ [] := by
  rintro rfl
  cases h

theorem bearer_some {prev : Option Char} {m new : Text} (h : bearer W prev t = some (m, new)) :
    ∃ w gap token rest, Credential w gap token ∧ m = w ++ (gap ++ token) ∧
      new = w ++ (gap ++ redacted) ∧ t = m ++ rest ∧ rest.head?.any isToken = false := by
  rw [bearer] at h
  split at h
  · cases h
  · obtain ⟨⟨kept, token⟩, hfound, hpair⟩ := Option.map_eq_some_iff.mp h
    obtain ⟨rfl, rfl⟩ := Prod.mk.inj hpair
    obtain ⟨w, gap, rest, hcredential, rfl, rfl, hstop⟩ := bearerOf_some hfound
    exact ⟨w, gap, token, rest, hcredential, List.append_assoc .., List.append_assoc ..,
      (List.append_assoc ..).symm, hstop⟩

theorem bearer_sound : Sound (bearer W) := by
  intro prev t m new h
  obtain ⟨w, gap, token, rest, hcredential, rfl, -, rfl, -⟩ := bearer_some h
  exact ⟨by simp [hcredential.spelled.ne_nil], List.prefix_append _ _⟩

theorem bearer_shorter (prev : Option Char) (t m new : Text)
    (h : bearer W prev t = some (m, new)) : new.length < m.length := by
  obtain ⟨w, gap, token, rest, hcredential, rfl, rfl, -, -⟩ := bearer_some h
  have hlong := hcredential.token_long
  have hten : redacted.length = 10 := rfl
  simp only [List.length_append]
  omega

theorem hits_bearer_iff (t : Text) : hitsFrom (bearer W) none t = [] ↔ ¬ CarriesBearer W t := by
  rw [hits_eq_nil_iff]
  constructor
  · rintro h ⟨a, w, gap, token, b, rfl, hboundary, hcredential⟩
    obtain ⟨c, w', hw⟩ := List.exists_cons_of_ne_nil hcredential.spelled.ne_nil
    have hnone := h a c (w' ++ (gap ++ (token ++ b))) (by rw [hw, List.cons_append])
    rw [Option.or_none, ← List.cons_append, ← hw, bearer, hboundary, if_neg Bool.false_ne_true,
      Option.map_eq_none_iff] at hnone
    have hfound := hcredential.found (z := b)
    rw [hnone] at hfound
    cases hfound
  · intro h a c b ht
    rw [bearer]
    split
    · rfl
    · rename_i hboundary
      rw [Option.map_eq_none_iff, Option.eq_none_iff_forall_ne_some]
      rintro ⟨kept, token⟩ hfound
      obtain ⟨w, gap, rest, hcredential, rfl, hb, -⟩ := bearerOf_some hfound
      exact h ⟨a, w, gap, token, rest, by rw [ht, hb, List.append_assoc],
        by simpa using hboundary, hcredential⟩

/-! ### The quick test -/

theorem isName_ascii {c : Char} (h : c.toNat < 128) :
    isName W c = (c.isAlphanum || c == '_' || c == '.' || c == '-') := by
  rw [isName, W.word_ascii c h]

theorem not_isName_equals : isName W '=' = false := isName_ascii (by decide)

/-- What a text that a parameter stands at the head of looks like. -/
structure Param (W : Words) (t name value rest : Text) : Prop where
  split : t = name ++ '=' :: (value ++ rest)
  name_ne : name ≠ []
  name_chars : ∀ c ∈ name, isName W c = true
  value_chars : ∀ c ∈ value, isValue c = true
  stops : ∀ c ∈ rest.head?, isValue c = false

theorem paramOf_some {name value : Text} (h : paramOf W t = some (name, value)) :
    ∃ rest, Param W t name value rest := by
  rw [paramOf] at h
  split at h
  · rename_i c more rest hname hdrop
    obtain ⟨rfl, rfl⟩ := Prod.mk.inj (Option.some.inj h)
    obtain ⟨run, hrun, hrest, hstop⟩ := Text.dropWhile_split isValue rest
    refine ⟨rest.dropWhile isValue, ?_, ?_, fun c hc => List.mem_takeWhile_imp hc,
      fun c hc => List.mem_takeWhile_imp hc, hstop⟩
    · rw [List.takeWhile_append_dropWhile, ← hdrop, List.takeWhile_append_dropWhile]
    · rw [hname]
      exact List.cons_ne_nil _ _
  · cases h

theorem Param.eq_some {name value rest : Text} (h : Param W t name value rest) :
    paramOf W t = some (name, value) := by
  have hequals : ∀ c ∈ ('=' :: (value ++ rest)).head?, isName W c = false := by
    intro c hc
    obtain rfl : '=' = c := Option.some.inj hc
    exact not_isName_equals
  obtain ⟨c, name, rfl⟩ := List.exists_cons_of_ne_nil h.name_ne
  rw [paramOf, h.split, Text.takeWhile_run h.name_chars hequals,
    Text.dropWhile_run h.name_chars hequals]
  exact congrArg (fun v => some (c :: name, v)) (Text.takeWhile_run h.value_chars h.stops)

theorem paramOf_none (h : '=' ∉ t) : paramOf W t = none := by
  rw [Option.eq_none_iff_forall_ne_some]
  rintro ⟨name, value⟩ hsome
  obtain ⟨rest, hparam⟩ := paramOf_some hsome
  exact h (by simp [hparam.split])

theorem queryParam_some {prev : Option Char} {m new : Text}
    (h : queryParam W lower prev t = some (m, new)) :
    ∃ c name value rest, isSep c = true ∧ value ≠ [] ∧
      Param W (name ++ '=' :: (value ++ rest)) name value rest ∧
      m = c :: (name ++ '=' :: value) ∧ new = c :: (name ++ '=' :: shown lower name value) ∧
      t = m ++ rest := by
  cases t with
  | nil => cases h
  | cons c t =>
    rw [queryParam] at h
    split at h
    · rename_i hsep
      split at h
      · rename_i name value hparam
        split at h
        · cases h
        · rename_i hvalue
          obtain ⟨rfl, rfl⟩ := Prod.mk.inj (Option.some.inj h)
          obtain ⟨rest, hrest⟩ := paramOf_some hparam
          obtain rfl := hrest.split
          exact ⟨c, name, value, rest, hsep, by simpa using hvalue, hrest, rfl, rfl, by simp⟩
      · cases h
    · cases h

theorem queryParam_sound : Sound (queryParam W lower) := by
  intro prev t m new h
  obtain ⟨c, name, value, rest, -, -, -, rfl, -, rfl⟩ := queryParam_some h
  exact ⟨List.cons_ne_nil _ _, List.prefix_append _ _⟩

theorem subst_queryParam_of_not_mem (h : '=' ∉ t) : subst (queryParam W lower) t = t := by
  refine subst_of_no_hits queryParam_sound (hits_eq_nil_iff none t |>.mpr ?_)
  rintro a c b rfl
  have hb : '=' ∉ b := fun hb => h (by simp [hb])
  rw [queryParam, paramOf_none hb]
  split <;> rfl

/-- **The quick path agrees with the full one** exactly where the text has an equals sign or says
`earer`, or carries no bearer token. -/
theorem agrees_iff (W : Words) (lower : Text → Text) (t : Text) :
    (quick t = true → full W lower t = t) ↔
      '=' ∈ t ∨ saysEarer t = true ∨ ¬ CarriesBearer W t := by
  have hfull (h : '=' ∉ t) : full W lower t = t ↔ ¬ CarriesBearer W t := by
    rw [full, subst_queryParam_of_not_mem h, subst, subst_eq_self_iff bearer_sound bearer_shorter,
      hits_bearer_iff]
  by_cases hequals : '=' ∈ t
  · exact iff_of_true (fun hquick => by simp [quick, hequals] at hquick) (.inl hequals)
  · cases hearer : saysEarer t with
    | true => exact iff_of_true (fun hquick => by simp [quick, hearer] at hquick) (.inr (.inl rfl))
    | false =>
      have hquick : quick t = true := by simp [quick, hequals, hearer]
      rw [hfull hequals]
      simp [hquick, hequals]

def asciiWords : Words where
  word c := c.isAlphanum || c == '_'
  word_ascii _ _ := rfl
  word_visible c h := by
    by_contra hword
    have htoken : isToken c = true := by
      rw [isToken]
      rcases Bool.or_eq_true_iff.mp (Bool.not_eq_false _ ▸ hword) with hword | hword
      · rw [hword]
        rfl
      · rw [beq_iff_eq.mp hword]
        rfl
    rw [not_isSpace_of_isToken htoken] at h
    cases h

/-- A header in capitals. -/
theorem capitals_disagree :
    ¬ (quick "AUTHORIZATION: BEARER abcdefghijkl".toList = true →
      full asciiWords (·.map Char.toLower) "AUTHORIZATION: BEARER abcdefghijkl".toList =
        "AUTHORIZATION: BEARER abcdefghijkl".toList) := by
  decide +kernel

end QnscKb.Logs
