import Mathlib.Data.List.Dedup
import Mathlib.Data.List.Sort
import Mathlib.Data.List.TakeWhile

/-!
# Text — texts as lists of characters

A Python `str` is its list of characters, so that the code's character loops and regular
expressions are recursions on it.  Character classes are Python's, where they differ from `Char`'s.
-/

namespace QnscKb

/-- A `str`. -/
abbrev Text := List Char

namespace Text

variable {t run : Text}

theorem toList_lit {s : String} (h : s = String.ofList t) : s.toList = t := by
  rw [h, String.toList_ofList]

/-- `str.isspace` on one character. -/
def isSpace (c : Char) : Bool :=
  let n := c.toNat
  (9 ≤ n && n ≤ 13) || (28 ≤ n && n ≤ 32) || n == 0x85 || n == 0xa0 || n == 0x1680 ||
    (0x2000 ≤ n && n ≤ 0x200a) || n == 0x2028 || n == 0x2029 || n == 0x202f || n == 0x205f ||
    n == 0x3000

def lstrip (t : Text) : Text := t.dropWhile isSpace

def rstrip (t : Text) : Text := (t.reverse.dropWhile isSpace).reverse

def strip (t : Text) : Text := rstrip (lstrip t)

theorem strip_split (t : Text) : ∃ a b, t = a ++ (strip t ++ b) ∧
    (∀ c ∈ a, isSpace c = true) ∧ ∀ c ∈ b, isSpace c = true := by
  refine ⟨t.takeWhile isSpace, ((lstrip t).reverse.takeWhile isSpace).reverse, ?_, ?_, ?_⟩
  · have hback : strip t ++ ((lstrip t).reverse.takeWhile isSpace).reverse = lstrip t := by
      rw [strip, rstrip, ← List.reverse_append, List.takeWhile_append_dropWhile, List.reverse_reverse]
    rw [hback, lstrip, List.takeWhile_append_dropWhile]
  · intro c hc
    exact List.mem_takeWhile_imp hc
  · intro c hc
    exact List.mem_takeWhile_imp (List.mem_reverse.mp hc)

theorem dropWhile_of_head (h : ∀ c ∈ t.head?, isSpace c = false) : t.dropWhile isSpace = t := by
  cases t with
  | nil => rfl
  | cons c t => simp [h c rfl]

theorem strip_eq_self (hhead : ∀ c ∈ t.head?, isSpace c = false)
    (hlast : ∀ c ∈ t.getLast?, isSpace c = false) : strip t = t := by
  have hback : t.reverse.dropWhile isSpace = t.reverse :=
    dropWhile_of_head (by simpa using hlast)
  rw [strip, lstrip, dropWhile_of_head hhead, rstrip, hback, List.reverse_reverse]

theorem dropWhile_split (p : Char → Bool) (t : Text) : ∃ run, (∀ c ∈ run, p c = true) ∧
    t = run ++ t.dropWhile p ∧ ∀ c ∈ (t.dropWhile p).head?, p c = false := by
  refine ⟨t.takeWhile p, fun c hc => List.mem_takeWhile_imp hc,
    List.takeWhile_append_dropWhile.symm, fun c hc => ?_⟩
  have hstop := List.head?_dropWhile_not p t
  rw [Option.mem_def.mp hc] at hstop
  simpa using hstop

theorem dropWhile_run {p : Char → Bool} {rest : Text} (hrun : ∀ c ∈ run, p c = true)
    (hrest : ∀ c ∈ rest.head?, p c = false) : (run ++ rest).dropWhile p = rest := by
  rw [List.dropWhile_append_of_pos hrun]
  cases rest with
  | nil => rfl
  | cons c rest => rw [List.dropWhile_cons_of_neg (by simp [hrest c rfl])]

theorem takeWhile_run {p : Char → Bool} {rest : Text} (hrun : ∀ c ∈ run, p c = true)
    (hrest : ∀ c ∈ rest.head?, p c = false) : (run ++ rest).takeWhile p = run := by
  have hcut := List.takeWhile_append_dropWhile (p := p) (l := run ++ rest)
  rw [dropWhile_run hrun hrest] at hcut
  exact List.append_cancel_right hcut

theorem strip_nil_iff : strip t = [] ↔ ∀ c ∈ t, isSpace c = true := by
  constructor
  · intro h
    obtain ⟨a, b, ht, ha, hb⟩ := strip_split t
    rw [h] at ht
    intro c hc
    rw [ht] at hc
    exact (List.mem_append.mp hc).elim (ha c) (hb c)
  · intro h
    have hlstrip : lstrip t = [] := by
      rw [lstrip, List.dropWhile_eq_nil_iff]
      exact h
    rw [strip, hlstrip]
    rfl

theorem rstrip_prefix (t : Text) : ∃ run, (∀ c ∈ run, isSpace c = true) ∧ t = rstrip t ++ run := by
  refine ⟨(t.reverse.takeWhile isSpace).reverse, fun c hc => ?_, ?_⟩
  · exact List.mem_takeWhile_imp (List.mem_reverse.mp hc)
  · rw [rstrip, ← List.reverse_append, List.takeWhile_append_dropWhile, List.reverse_reverse]

theorem strip_head (t : Text) : ∀ c ∈ (strip t).head?, isSpace c = false := by
  intro c hc
  obtain ⟨run, -, hrun⟩ := rstrip_prefix (lstrip t)
  have hstop := List.head?_dropWhile_not isSpace t
  have hhead : (lstrip t).head? = some c := by
    rw [hrun, List.head?_append]
    exact Option.or_eq_some_iff.mpr (.inl hc)
  rw [lstrip] at hhead
  rw [hhead] at hstop
  simpa using hstop

theorem strip_last (t : Text) : ∀ c ∈ (strip t).getLast?, isSpace c = false := by
  intro c hc
  rw [strip, rstrip, List.getLast?_reverse] at hc
  have hstop := List.head?_dropWhile_not isSpace (lstrip t).reverse
  rw [Option.mem_def.mp hc] at hstop
  simpa using hstop

theorem strip_strip (t : Text) : strip (strip t) = strip t :=
  strip_eq_self (strip_head t) (strip_last t)

theorem mem_of_mem_strip {c : Char} (h : c ∈ strip t) : c ∈ t := by
  obtain ⟨a, b, ht, -, -⟩ := strip_split t
  rw [ht]
  exact List.mem_append_right _ (List.mem_append_left _ h)

theorem length_strip_le (t : Text) : (strip t).length ≤ t.length := by
  obtain ⟨a, b, ht, -, -⟩ := strip_split t
  conv_rhs => rw [ht]
  simp only [List.length_append]
  omega

theorem rstrip_append_run (hrun : ∀ c ∈ run, isSpace c = true) (t : Text) :
    rstrip (t ++ run) = rstrip t := by
  rw [rstrip, List.reverse_append, List.dropWhile_append_of_pos (by simpa using hrun), rstrip]

theorem rstrip_append (h : ¬∀ c ∈ t, isSpace c = true) (s : Text) :
    rstrip (s ++ t) = s ++ rstrip t := by
  have hback : (t.reverse.dropWhile isSpace).isEmpty = false := by
    rw [List.isEmpty_eq_false_iff]
    exact fun hnil => h fun c hc =>
      List.dropWhile_eq_nil_iff.mp hnil c (List.mem_reverse.mpr hc)
  rw [rstrip, List.reverse_append, List.dropWhile_append, hback, if_neg Bool.false_ne_true,
    List.reverse_append, List.reverse_reverse, rstrip]

theorem strip_run_append (hrun : ∀ c ∈ run, isSpace c = true) (t : Text) :
    strip (run ++ t) = strip t := by
  rw [strip, lstrip, List.dropWhile_append_of_pos hrun, strip, lstrip]

theorem strip_append_run (hrun : ∀ c ∈ run, isSpace c = true) : strip (t ++ run) = strip t := by
  obtain ⟨front, hfront, ht, hhead⟩ := dropWhile_split isSpace t
  cases hrest : t.dropWhile isSpace with
  | nil =>
    have hall : ∀ c ∈ t, isSpace c = true := List.dropWhile_eq_nil_iff.mp hrest
    rw [strip_nil_iff.mpr hall, strip_nil_iff]
    intro c hc
    exact (List.mem_append.mp hc).elim (hall c) (hrun c)
  | cons c rest =>
    have hfront' : lstrip (t ++ run) = c :: rest ++ run := by
      rw [hrest] at ht hhead
      rw [ht, List.append_assoc]
      exact dropWhile_run hfront fun d hd => hhead d hd
    rw [strip, hfront', rstrip_append_run hrun, strip, lstrip, hrest]

/-- `str.split()`, with the word read so far. -/
def wordsFrom : Text → Text → List Text
  | word, [] => if word.isEmpty then [] else [word]
  | word, c :: t =>
    if isSpace c then (if word.isEmpty then [] else [word]) ++ wordsFrom [] t
    else wordsFrom (word ++ [c]) t

/-- `str.split()`: the runs of characters that are not white space. -/
def words (t : Text) : List Text := wordsFrom [] t

def join (sep : Text) (texts : List Text) : Text := sep.intercalate texts

theorem join_cons_cons (sep a b : Text) (texts : List Text) :
    join sep (a :: b :: texts) = a ++ (sep ++ join sep (b :: texts)) := by
  rw [join, List.intercalate_cons_cons, join, List.append_assoc]

theorem mem_join {sep : Text} {texts : List Text} {c : Char} (h : c ∈ join sep texts) :
    c ∈ sep ∨ ∃ t ∈ texts, c ∈ t := by
  induction texts with
  | nil => exact absurd h List.not_mem_nil
  | cons t texts ih =>
    cases texts with
    | nil => exact .inr ⟨t, List.mem_cons_self, by simpa [join] using h⟩
    | cons next texts =>
      rcases List.mem_append.mp h with h | h
      · exact .inr ⟨t, List.mem_cons_self, h⟩
      · rcases List.mem_append.mp h with h | h
        · exact .inl h
        · exact (ih h).imp_right fun ⟨u, hu, hc⟩ => ⟨u, List.mem_cons_of_mem t hu, hc⟩

theorem join_getLast {sep : Text} {texts : List Text} {p : Char → Prop} (hne : texts ≠ [])
    (h : ∀ t ∈ texts, ∃ a c, t = a ++ [c] ∧ p c) : ∃ a c, join sep texts = a ++ [c] ∧ p c := by
  induction texts with
  | nil => exact absurd rfl hne
  | cons t texts ih =>
    obtain ⟨ht, htexts⟩ := List.forall_mem_cons.mp h
    cases texts with
    | nil => simpa [join] using ht
    | cons next texts =>
      obtain ⟨a, c, ha, hc⟩ := ih (List.cons_ne_nil _ _) htexts
      exact ⟨t ++ (sep ++ a), c, by rw [join_cons_cons, ha]; simp, hc⟩

def unfenced (text : Text) : Text :=
  if "```".toList.isPrefixOf text then
    let opened := lstrip ((text.drop 3).dropWhile Char.isAlpha)
    if "```".toList.isSuffixOf opened then rstrip (opened.take (opened.length - 3)) else opened
  else text

/-- From the first `{` to the last `}`. -/
def braced (text : Text) : Option Text := do
  let start ← text.findIdx? (· == '{')
  let back ← text.reverse.findIdx? (· == '}')
  if text.length - back ≤ start + 1 then none
  else some ((text.take (text.length - back)).drop start)

/-- The JSON text of a model's reply: its code fence taken off, from the first `{` to the last
`}`. -/
def replyJson (reply : Text) : Option Text := braced (unfenced (strip reply))

/-- `value or fallback` on a text that may be `None`: the empty text counts as absent. -/
def orElse (value : Option Text) (fallback : Text) : Text :=
  match value with
  | some (c :: t) => c :: t
  | _ => fallback

end Text

end QnscKb
