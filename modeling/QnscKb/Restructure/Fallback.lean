import QnscKb.Chunking.Model
import QnscKb.Chunking.Noise

/-!
# Restructure — Fallback

The document that is shown when the model's cannot be trusted (`_fallback_text` of
`src/domain/content_restructure.py`): the source, with marks for its headings and bullets.  Which
characters are upper case is a parameter.
-/

namespace QnscKb.Restructure

open QnscKb.Routing (splitlines joinLines statedLines splitlines_unbroken)
open QnscKb.Chunking (endsSentence)
open Text (isSpace)

variable (upper : Char → Bool)

/-! ### The loop -/

def lowerLetter (c : Char) : Bool := 'a' ≤ c && c ≤ 'z'

/-- `[a-z]{1,2}\s`, where a text begins. -/
def opensWithShortWord : Text → Bool
  | c :: d :: t => lowerLetter c && (isSpace d || (lowerLetter d && t.head?.any isSpace))
  | _ => false

/-- `\s[a-z]{1,2}\s`, somewhere in a text. -/
def hasShortWord : Text → Bool
  | [] => false
  | c :: t => (isSpace c && opensWithShortWord t) || hasShortWord t

def looksLikeHeading (line : Text) : Bool :=
  decide (line.length ≤ 90) && !endsSentence line &&
    (line.getLast? == some ':' || (line.head?.any upper && !hasShortWord line))

/-- The loop of `_fallback_text`, from the heading that may repeat on. -/
def fallbackFrom (repeatedHeading : Option Text) : List Text → List Text
  | [] => []
  | rawLine :: rest =>
    let line := Text.strip rawLine
    if line.isEmpty then [] :: fallbackFrom repeatedHeading rest
    else if line.head? = some '•' then
      ("- ".toList ++ Text.lstrip line.tail) :: fallbackFrom repeatedHeading rest
    else if looksLikeHeading upper line ∧ repeatedHeading = some line then
      line :: fallbackFrom repeatedHeading rest
    else if looksLikeHeading upper line then
      ("### ".toList ++ line) :: fallbackFrom (some line) rest
    else line :: fallbackFrom none rest

def fallbackText (text : Text) : Text :=
  Text.strip (Noise.foldNewlines 0 (joinLines (fallbackFrom upper none (splitlines text))))

/-! ### What is shown -/

/-- A line that says something, and what is shown for it. -/
inductive Shown : Text → Text → Prop
  | line (line : Text) : Shown line line
  | heading (line : Text) : Shown line ("### ".toList ++ line)
  | bullet (rest : Text) : Shown ('•' :: rest) (Text.strip ("- ".toList ++ Text.lstrip rest))

variable {line : Text}

theorem statedLines_unbroken (h : ∀ c ∈ line, Ask.isLineBreak c = false) :
    statedLines line = [Text.strip line].filter (!·.isEmpty) := by
  rw [Routing.statedLines_eq]
  exact Lines.stated_unbroken h

theorem statedLines_shown (h : ∀ c ∈ line, Ask.isLineBreak c = false) (hne : Text.strip line ≠ []) :
    statedLines line = [Text.strip line] := by
  rw [statedLines_unbroken h, List.filter_cons_of_pos (by simpa using hne), List.filter_nil]

theorem strip_marked {mark : Char} {marks : Text} (hmark : isSpace mark = false)
    (hne : Text.strip line ≠ []) :
    Text.strip (mark :: marks ++ Text.strip line) = mark :: marks ++ Text.strip line := by
  refine Text.strip_eq_self (fun c hc => ?_) (fun c hc => ?_)
  · cases hc
    exact hmark
  · obtain ⟨last, hlast⟩ := Option.ne_none_iff_exists'.mp (mt List.getLast?_eq_none_iff.mp hne)
    rw [List.getLast?_append, hlast] at hc
    rw [← Option.some.inj hc]
    exact Text.strip_last line last hlast

theorem statedLines_heading (h : ∀ c ∈ Text.strip line, Ask.isLineBreak c = false)
    (hne : Text.strip line ≠ []) :
    statedLines ("### ".toList ++ Text.strip line) = ["### ".toList ++ Text.strip line] := by
  have hself : Text.strip ("### ".toList ++ Text.strip line) = "### ".toList ++ Text.strip line :=
    strip_marked rfl hne
  rw [statedLines_shown, hself]
  · exact List.forall_mem_append.mpr ⟨by simp [Ask.isLineBreak], h⟩
  · rw [hself]
    exact List.cons_ne_nil _ _

theorem statedLines_bullet {text : Text} (h : ∀ c ∈ text, Ask.isLineBreak c = false) :
    statedLines ("- ".toList ++ Text.lstrip text) =
      [Text.strip ("- ".toList ++ Text.lstrip text)] := by
  refine statedLines_shown (List.forall_mem_append.mpr ⟨by simp [Ask.isLineBreak], ?_⟩) ?_
  · intro c hc
    exact h c ((List.dropWhile_suffix _).subset hc)
  · intro hnil
    have hblank := Text.strip_nil_iff.mp hnil '-' List.mem_cons_self
    cases hblank

/-- **Every line is shown**, by the loop. -/
theorem fallbackFrom_shows (repeatedHeading : Option Text) {lines : List Text}
    (h : ∀ line ∈ lines, ∀ c ∈ line, Ask.isLineBreak c = false) :
    List.Forall₂ Shown ((lines.map Text.strip).filter (!·.isEmpty))
      ((fallbackFrom upper repeatedHeading lines).flatMap statedLines) := by
  induction lines generalizing repeatedHeading with
  | nil => exact .nil
  | cons rawLine rest ih =>
    obtain ⟨hraw, hrest⟩ := List.forall_mem_cons.mp h
    have hbroken : ∀ c ∈ Text.strip rawLine, Ask.isLineBreak c = false :=
      fun c hc => hraw c (Text.mem_of_mem_strip hc)
    rw [List.map_cons, fallbackFrom]
    by_cases hempty : Text.strip rawLine = []
    · rw [hempty]
      exact ih repeatedHeading hrest
    · have hself : statedLines (Text.strip rawLine) = [Text.strip rawLine] := by
        rw [statedLines_shown hbroken (by rwa [Text.strip_strip]), Text.strip_strip]
      rw [List.filter_cons_of_pos (by simpa using hempty), if_neg (by simpa using hempty)]
      -- a bullet, a heading that is repeated, a heading, a line as it is
      split
      · rename_i hbullet
        obtain ⟨text, htext⟩ := List.head?_eq_some_iff.mp hbullet
        rw [htext, List.flatMap_cons, statedLines_bullet]
        · exact .cons (.bullet text) (ih _ hrest)
        · intro c hc
          exact hbroken c (by rw [htext]; exact List.mem_cons_of_mem _ hc)
      · split
        · rw [List.flatMap_cons, hself]
          exact .cons (.line _) (ih _ hrest)
        · split
          · rw [List.flatMap_cons, statedLines_heading hbroken hempty]
            exact .cons (.heading _) (ih _ hrest)
          · rw [List.flatMap_cons, hself]
            exact .cons (.line _) (ih _ hrest)

/-- **Nothing is lost**: the lines of the source that say something are shown, in order, each as it
is or behind its mark. -/
theorem fallbackText_shows (text : Text) :
    List.Forall₂ Shown (statedLines text) (statedLines (fallbackText upper text)) := by
  have hshown : statedLines (fallbackText upper text) =
      (fallbackFrom upper none (splitlines text)).flatMap statedLines := by
    rw [fallbackText, Routing.statedLines_strip, Routing.statedLines_eq, Routing.said,
      ← List.nil_append (Noise.foldNewlines _ _), Noise.stated_foldNewlines isSpace (.inl rfl),
      List.nil_append, ← Routing.statedLines_join, Routing.statedLines_eq]
  rw [hshown]
  exact fallbackFrom_shows upper none (splitlines_unbroken text)

end QnscKb.Restructure
