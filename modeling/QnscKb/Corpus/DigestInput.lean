import QnscKb.Lib.Rounding
import QnscKb.Lib.Spans
import QnscKb.Lib.Substitution
import QnscKb.Lib.Text

/-!
# Corpus — Digest input

The text a digest is made from (`build_digest_input`, `src/domain/digest.py`): a document that fits
is sent whole, a longer one as its headings and excerpts spread over it.

The start of an excerpt is a rounded `float` quotient, so above `2 ^ 53` characters it misses the
last start; below, it is less than one character away, and the separators leave that much room.
-/

namespace QnscKb.Corpus

open Rounding (halfEven significant abs_halfEven_sub_le abs_significant_sub_le halfEven_intCast
  significant_intCast)
open Spans (slice)

structure DigestSettings where
  inputMaxChars : Nat := 12000
  maxWindows : Nat := 6

/-- `_HEADING_RE`: one to six `#` at the start of a line, white space, and the rest of the line the
white space ends on. -/
def heading : Substitution.Pattern Char := fun prev t =>
  let marks := t.takeWhile (· == '#')
  let gap := (t.drop marks.length).takeWhile Text.isSpace
  let title := (t.drop (marks.length + gap.length)).takeWhile (· != '\n')
  if prev.all (· == '\n') ∧ 1 ≤ marks.length ∧ marks.length ≤ 6 ∧ gap ≠ [] ∧ title ≠ [] then
    some (marks ++ gap ++ title, marks ++ gap ++ title)
  else none

/-- The headings of a document, cut to a fifth of the sample. -/
def outline (body : Text) (maxChars : Nat) : Text :=
  (Text.join ['\n'] ((Substitution.hits heading body).map Prod.fst)).take (maxChars / 5)

def header (outline : Text) : Text :=
  if outline.isEmpty then [] else "OUTLINE:\n".toList ++ outline ++ "\n\n".toList

def note : Text :=
  "EXCERPTS (the document is longer than shown; excerpts are in order, the gaps are omitted):\n".toList

theorem length_note : note.length = 91 := by decide +kernel

def separator : Text := "\n[...]\n".toList

theorem length_separator : separator.length = 7 := by decide +kernel

/-- What the excerpts may take, before its least value. -/
def excerptRoom (head : Text) (maxChars windows : Nat) : Nat :=
  maxChars - head.length - note.length - separator.length * (windows - 1)

def excerptSize (head : Text) (maxChars windows : Nat) : Nat :=
  max 100 (max 200 (excerptRoom head maxChars windows) / windows)

/-- `round(i * last_start / (max_windows - 1))`; the quotient has the 53 digits of a `float`. -/
def excerptStart (lastStart windows i : Nat) : Nat :=
  (halfEven (significant 2 53 ((i * lastStart : Nat) / (windows - 1 : Nat) : ℚ))).toNat

def excerptSpans (lastStart size windows : Nat) : List (Nat × Nat) :=
  (List.range windows).map fun i =>
    (excerptStart lastStart windows i, excerptStart lastStart windows i + size)

def excerpts (body : Text) (spans : List (Nat × Nat)) : List Text :=
  spans.map fun span => slice body span.1 span.2

def DigestSettings.limit (settings : DigestSettings) (maxChars : Option Nat) : Nat :=
  maxChars.getD settings.inputMaxChars

def DigestSettings.windows (settings : DigestSettings) : Option Nat → Nat
  | none | some 0 => settings.maxWindows
  | some windows => windows

def buildDigestInput (settings : DigestSettings) (bodyMd : Text)
    (maxChars maxWindows : Option Nat) : Text × Bool :=
  let maxChars := settings.limit maxChars
  let maxWindows := max 2 (settings.windows maxWindows)
  let body := Text.strip bodyMd
  if body.length ≤ maxChars then (body, false)
  else
    let head := header (outline body maxChars)
    let size := excerptSize head maxChars maxWindows
    let spans := excerptSpans (body.length - size) size maxWindows
    (head ++ note ++ Text.join separator (excerpts body spans), true)

/-! ### The starts -/

section Starts

variable {lastStart size windows i j : Nat}

def fraction (lastStart windows i : Nat) : ℚ := (i * lastStart : Nat) / (windows - 1 : Nat)

theorem fraction_nonneg (lastStart windows i : Nat) : 0 ≤ fraction lastStart windows i :=
  div_nonneg (Nat.cast_nonneg _) (Nat.cast_nonneg _)

theorem fraction_le (hi : i < windows) : fraction lastStart windows i ≤ lastStart := by
  rcases Nat.eq_zero_or_pos (windows - 1) with hone | hpos
  · rw [fraction, hone, Nat.cast_zero, div_zero]
    exact Nat.cast_nonneg _
  · rw [fraction, div_le_iff₀ (by exact_mod_cast hpos), ← Nat.cast_mul, Nat.cast_le, mul_comm]
    exact Nat.mul_le_mul_left _ (by omega)

theorem fraction_last (hwindows : 2 ≤ windows) :
    fraction lastStart windows (windows - 1) = lastStart := by
  have hne : ((windows - 1 : Nat) : ℚ) ≠ 0 := by exact_mod_cast (by omega : windows - 1 ≠ 0)
  rw [fraction, Nat.cast_mul, mul_div_cancel_left₀ _ hne]

theorem fraction_add_le (hwindows : 2 ≤ windows) (hij : i < j)
    (hroom : (windows - 1) * size ≤ lastStart) :
    fraction lastStart windows i + size ≤ fraction lastStart windows j := by
  have hpos : (0 : ℚ) < (windows - 1 : Nat) := by exact_mod_cast (by omega : 0 < windows - 1)
  rw [fraction, fraction, ← sub_nonneg, ← sub_sub, div_sub_div_same, sub_nonneg, le_div_iff₀ hpos,
    le_sub_iff_add_le, ← Nat.cast_mul, ← Nat.cast_add, Nat.cast_le]
  calc size * (windows - 1) + i * lastStart ≤ lastStart + i * lastStart :=
        Nat.add_le_add_right (by rwa [mul_comm]) _
    _ = (i + 1) * lastStart := by rw [Nat.succ_mul, Nat.add_comm]
    _ ≤ j * lastStart := Nat.mul_le_mul_right _ hij

theorem excerptStart_near (hi : i < windows) (hlast : lastStart < 2 ^ 53) :
    |(excerptStart lastStart windows i : ℚ) - fraction lastStart windows i| ≤ 1 := by
  have hnonneg := fraction_nonneg lastStart windows i
  have hbound : |fraction lastStart windows i| < ((2 : ℕ) : ℚ) ^ 53 := by
    rw [abs_of_nonneg hnonneg]
    exact (fraction_le hi).trans_lt (by exact_mod_cast hlast)
  have hdouble := abs_le.mp (abs_significant_sub_le one_lt_two hbound)
  have hround := abs_le.mp (abs_halfEven_sub_le (significant 2 53 (fraction lastStart windows i)))
  have hcast : (excerptStart lastStart windows i : ℚ) =
      max (halfEven (significant 2 53 (fraction lastStart windows i)) : ℚ) 0 := by
    rw [excerptStart, fraction, ← Int.cast_natCast, Int.toNat_eq_max, Int.cast_max, Int.cast_zero]
  rw [hcast, abs_le]
  rcases max_choice (halfEven (significant 2 53 (fraction lastStart windows i)) : ℚ) 0 with h | h
  · rw [h]
    exact ⟨by linarith, by linarith⟩
  · have hle := max_eq_right_iff.mp h
    exact ⟨by linarith, by linarith⟩

theorem excerptStart_zero (lastStart windows : Nat) : excerptStart lastStart windows 0 = 0 := by
  rw [excerptStart, Nat.zero_mul, Nat.cast_zero, zero_div, Rounding.significant_zero]
  exact congrArg Int.toNat (halfEven_intCast 0)

theorem excerptStart_last (hwindows : 2 ≤ windows) (hlast : lastStart < 2 ^ 53) :
    excerptStart lastStart windows (windows - 1) = lastStart := by
  have hfraction : fraction lastStart windows (windows - 1) = _ := fraction_last hwindows
  have hbound : |(((lastStart : Nat) : ℤ) : ℚ)| < ((2 : ℕ) : ℚ) ^ 53 := by
    exact_mod_cast hlast
  rw [fraction, ← Int.cast_natCast lastStart] at hfraction
  rw [excerptStart, hfraction, significant_intCast one_lt_two hbound, halfEven_intCast,
    Int.toNat_natCast]

theorem excerptStart_add_le (hwindows : 2 ≤ windows) (hij : i < j) (hj : j < windows)
    (hlast : lastStart < 2 ^ 53) (hroom : (windows - 1) * (size + 2) ≤ lastStart) :
    excerptStart lastStart windows i + size ≤ excerptStart lastStart windows j := by
  have hi := abs_le.mp (excerptStart_near (hij.trans hj) hlast)
  have hj := abs_le.mp (excerptStart_near hj hlast)
  have hgap := fraction_add_le hwindows hij hroom
  rw [Nat.cast_add, Nat.cast_two] at hgap
  have hle : (excerptStart lastStart windows i : ℚ) + size ≤ excerptStart lastStart windows j := by
    linarith
  exact_mod_cast hle

end Starts

/-! ### The sample -/

/-- Spans of a text from its start to its end, in their order and apart from each other. -/
structure CoversEnds (body : Text) (windows : Nat) (spans : List (Nat × Nat)) : Prop where
  count : spans.length = windows
  within : ∀ span ∈ spans, span.1 < span.2 ∧ span.2 ≤ body.length
  apart : spans.Pairwise fun a b => a.2 ≤ b.1
  first : spans.head?.map Prod.fst = some 0
  last : spans.getLast?.map Prod.snd = some body.length

/-- None of the least values of `build_digest_input` applies. -/
structure Roomy (head : Text) (maxChars windows : Nat) : Prop where
  many : 2 ≤ windows
  room : 200 ≤ excerptRoom head maxChars windows
  size : 100 ≤ excerptRoom head maxChars windows / windows

section Sample

variable {head body : Text} {maxChars windows size : Nat}

theorem Roomy.size_eq (h : Roomy head maxChars windows) :
    excerptSize head maxChars windows = excerptRoom head maxChars windows / windows := by
  rw [excerptSize, Nat.max_eq_right h.room, Nat.max_eq_right h.size]

theorem Roomy.total (h : Roomy head maxChars windows) :
    head.length + note.length + (windows * excerptSize head maxChars windows +
      (windows - 1) * separator.length) ≤ maxChars := by
  have hroom := h.room
  have hsize : windows * excerptSize head maxChars windows ≤ excerptRoom head maxChars windows := by
    rw [h.size_eq]
    exact Nat.mul_div_le _ _
  rw [excerptRoom] at hroom hsize
  rw [Nat.mul_comm (windows - 1)]
  omega

theorem Roomy.gaps (h : Roomy head maxChars windows) (hlong : maxChars < body.length) :
    (windows - 1) * (excerptSize head maxChars windows + separator.length) ≤
      body.length - excerptSize head maxChars windows := by
  have htotal := h.total
  have hwindows : windows * excerptSize head maxChars windows =
      (windows - 1) * excerptSize head maxChars windows + excerptSize head maxChars windows := by
    rw [← Nat.succ_mul, Nat.succ_eq_add_one, Nat.sub_add_cancel (by have := h.many; omega)]
  rw [Nat.mul_add]
  omega

theorem coversEnds_excerptSpans (hwindows : 2 ≤ windows) (hsize : 0 < size)
    (hle : size ≤ body.length) (hlast : body.length - size < 2 ^ 53)
    (hgaps : (windows - 1) * (size + 2) ≤ body.length - size) :
    CoversEnds body windows (excerptSpans (body.length - size) size windows) where
  count := by rw [excerptSpans, List.length_map, List.length_range]
  within := by
    intro span hspan
    obtain ⟨i, hi, rfl⟩ := List.mem_map.mp hspan
    refine ⟨Nat.lt_add_of_pos_right hsize, ?_⟩
    dsimp only
    have hstop := excerptStart_last hwindows hlast
    rcases (Nat.le_sub_one_of_lt (List.mem_range.mp hi)).lt_or_eq with hlt | rfl
    · have hnext := excerptStart_add_le hwindows hlt (by omega) hlast hgaps
      omega
    · omega
  apart := by
    rw [excerptSpans, List.pairwise_map]
    refine List.pairwise_lt_range.imp_of_mem fun _ hj hij => ?_
    exact excerptStart_add_le hwindows hij (List.mem_range.mp hj) hlast hgaps
  first := by
    obtain ⟨n, rfl⟩ := Nat.exists_eq_add_of_le' (Nat.zero_lt_of_lt hwindows)
    rw [excerptSpans, List.range_succ_eq_map, List.map_cons, List.head?_cons, Option.map_some,
      excerptStart_zero]
  last := by
    obtain ⟨n, rfl⟩ := Nat.exists_eq_add_of_le' (Nat.zero_lt_of_lt hwindows)
    have hstop := excerptStart_last hwindows hlast
    rw [Nat.add_sub_cancel] at hstop
    rw [excerptSpans, List.range_succ, List.map_append, List.map_singleton, List.getLast?_concat,
      Option.map_some, hstop, Nat.sub_add_cancel hle]

theorem length_join {sep : Text} {texts : List Text} (h : ∀ t ∈ texts, t.length = size) :
    (Text.join sep texts).length = texts.length * size + (texts.length - 1) * sep.length := by
  induction texts with
  | nil => simp [Text.join]
  | cons t texts ih =>
    obtain ⟨ht, htexts⟩ := List.forall_mem_cons.mp h
    cases texts with
    | nil => simp [Text.join, ht]
    | cons next texts =>
      rw [Text.join_cons_cons, List.length_append, List.length_append, ih htexts]
      simp only [List.length_cons, Nat.add_sub_cancel, Nat.succ_mul]
      omega

theorem length_excerpts (h : CoversEnds body windows (excerptSpans (body.length - size) size windows)) :
    (Text.join separator (excerpts body
      (excerptSpans (body.length - size) size windows))).length =
        windows * size + (windows - 1) * separator.length := by
  have heach : ∀ t ∈ excerpts body (excerptSpans (body.length - size) size windows),
      t.length = size := by
    intro t ht
    obtain ⟨span, hspan, rfl⟩ := List.mem_map.mp ht
    rw [Spans.length_slice (h.within span hspan).2]
    obtain ⟨i, -, rfl⟩ := List.mem_map.mp hspan
    exact Nat.add_sub_cancel_left _ _
  rw [length_join heach, excerpts, List.length_map, h.count]

end Sample

theorem buildDigestInput_long {settings : DigestSettings} {bodyMd : Text}
    {maxChars maxWindows : Option Nat} (hlong : settings.limit maxChars < (Text.strip bodyMd).length)
    (hmany : 2 ≤ settings.windows maxWindows) :
    let head := header (outline (Text.strip bodyMd) (settings.limit maxChars))
    let size := excerptSize head (settings.limit maxChars) (settings.windows maxWindows)
    buildDigestInput settings bodyMd maxChars maxWindows =
      (head ++ note ++ Text.join separator (excerpts (Text.strip bodyMd) (excerptSpans
        ((Text.strip bodyMd).length - size) size (settings.windows maxWindows))), true) := by
  rw [buildDigestInput, Nat.max_eq_right hmany]
  exact if_neg (Nat.not_le_of_lt hlong)

/-- **The digest's sample covers both ends of a document.**  A document that fits is sent whole; of
a longer one, of `2 ^ 53` characters at most, `max_windows` excerpts are sent. -/
theorem buildDigestInput_covers (settings : DigestSettings) (bodyMd : Text)
    (maxChars maxWindows : Option Nat) :
    let limit := settings.limit maxChars
    let windows := settings.windows maxWindows
    let body := Text.strip bodyMd
    let head := header (outline body limit)
    (body.length ≤ limit → buildDigestInput settings bodyMd maxChars maxWindows = (body, false)) ∧
      (limit < body.length → body.length ≤ 2 ^ 53 → Roomy head limit windows →
        ∃ spans, CoversEnds body windows spans ∧
          buildDigestInput settings bodyMd maxChars maxWindows =
            (head ++ note ++ Text.join separator (excerpts body spans), true) ∧
          (buildDigestInput settings bodyMd maxChars maxWindows).1.length ≤ limit) := by
  intro limit windows body head
  refine ⟨fun hfits => ?_, fun hlong hbound hroomy => ?_⟩
  · exact if_pos hfits
  have hsize : 100 ≤ excerptSize head limit windows := Nat.le_max_left _ _
  have hgaps := hroomy.gaps hlong
  have htotal := hroomy.total
  have hle : excerptSize head limit windows ≤ body.length := by
    have hone := Nat.le_mul_of_pos_left (excerptSize head limit windows)
      (Nat.zero_lt_of_lt hroomy.many)
    omega
  have hcovers : CoversEnds body windows (excerptSpans
      (body.length - excerptSize head limit windows) (excerptSize head limit windows) windows) :=
    coversEnds_excerptSpans hroomy.many (by omega) hle (by omega)
      ((Nat.mul_le_mul_left _ (by rw [length_separator]; omega)).trans hgaps)
  have hbuild := buildDigestInput_long hlong hroomy.many
  refine ⟨_, hcovers, hbuild, ?_⟩
  rw [hbuild]
  rw [List.length_append, List.length_append, length_excerpts hcovers]
  exact htotal

/-! ### Two documents -/

section Plain

variable {body : Text} {limit n : Nat}

theorem outline_plain (h : '#' ∉ body) (maxChars : Nat) : outline body maxChars = [] := by
  have hhits : Substitution.hits heading body = [] := by
    rw [Substitution.hits, Substitution.hits_eq_nil_iff]
    rintro a c b rfl
    have hc : c ≠ '#' := fun hc => h (by simp [hc])
    rw [heading, List.takeWhile_cons_of_neg (by simpa using hc)]
    exact if_neg fun hmatch => absurd hmatch.2.1 (by simp)
  rw [outline, hhits]
  exact List.take_nil

theorem header_plain (h : '#' ∉ body) (maxChars : Nat) : header (outline body maxChars) = [] := by
  rw [outline_plain h]
  rfl

theorem roomy_plain (h : 298 ≤ limit) : Roomy [] limit 2 where
  many := le_rfl
  room := by rw [excerptRoom, length_note, length_separator, List.length_nil]; omega
  size := by rw [excerptRoom, length_note, length_separator, List.length_nil]; omega

theorem strip_plain (c : Char) (h : Text.isSpace c = false) (n : Nat) :
    Text.strip (List.replicate n 'a' ++ [c]) = List.replicate n 'a' ++ [c] := by
  refine Text.strip_eq_self (fun d hd => ?_) (fun d hd => ?_)
  · rcases List.mem_append.mp (List.mem_of_mem_head? hd) with hd | hd
    · rw [List.eq_of_mem_replicate hd]; rfl
    · rw [List.mem_singleton.mp hd, h]
  · rw [List.getLast?_concat] at hd
    rw [← Option.some.inj hd, h]

end Plain

/-- A document of a thousand letters. -/
theorem buildDigestInput_covers_thousand :
    ∃ spans, CoversEnds (List.replicate 999 'a' ++ ['b']) 2 spans ∧
      buildDigestInput {} (List.replicate 999 'a' ++ ['b']) (some 500) (some 2) =
        (note ++ Text.join separator (excerpts (List.replicate 999 'a' ++ ['b']) spans), true) := by
  have hcovers := (buildDigestInput_covers {} (List.replicate 999 'a' ++ ['b']) (some 500)
    (some 2)).2
  have hlength : (List.replicate 999 'a' ++ ['b']).length = 1000 := by
    rw [List.length_append, List.length_replicate, List.length_singleton]
  have hmark : '#' ∉ List.replicate 999 'a' ++ ['b'] := by
    simp only [List.mem_append, List.mem_replicate]
    decide
  dsimp only [DigestSettings.limit, DigestSettings.windows, Option.getD_some] at hcovers
  rw [strip_plain 'b' rfl, header_plain hmark] at hcovers
  obtain ⟨spans, hspans, hbuild, -⟩ := hcovers (by omega) (by omega) (roomy_plain (by omega))
  exact ⟨spans, hspans, hbuild⟩

theorem excerptSpans_rounded :
    excerptSpans (2 ^ 53 + 1) 451 2 = [(0, 451), (2 ^ 53, 2 ^ 53 + 451)] := by
  have hlog : Int.log 2 (((2 ^ 53 + 1 : ℕ) : ℚ)) = 53 := by
    have hnat : Nat.log 2 (2 ^ 53 + 1) = 53 :=
      (Nat.log_eq_iff (by norm_num)).mpr ⟨by norm_num, by norm_num⟩
    rfl
  have hunit : Rounding.unit 2 53 ((2 ^ 53 + 1 : ℕ) : ℚ) = 2 := by
    rw [Rounding.unit, Nat.abs_cast, hlog]
    norm_num
  have hfloor : ⌊((2 ^ 53 + 1 : ℕ) : ℚ) / 2⌋ = 2 ^ 52 := by
    norm_num
  have hfract : Int.fract (((2 ^ 53 + 1 : ℕ) : ℚ) / 2) = 1 / 2 := by
    norm_num
  have hsignificant : significant 2 53 ((2 ^ 53 + 1 : ℕ) : ℚ) = ((2 ^ 53 : ℤ) : ℚ) := by
    rw [significant, hunit, halfEven]
    norm_num
  have hstart : excerptStart (2 ^ 53 + 1) 2 1 = 2 ^ 53 := by
    have hone : ((2 - 1 : ℕ) : ℚ) = 1 := by norm_num
    rw [excerptStart, Nat.one_mul, hone, div_one, hsignificant, halfEven_intCast]
    rfl
  rw [excerptSpans, List.range_succ, List.range_one, List.singleton_append, List.map_cons,
    List.map_singleton, excerptStart_zero, hstart, Nat.zero_add]

theorem CoversEnds.ends_with {before : Text} {c : Char} {spans : List (Nat × Nat)}
    (h : CoversEnds (before ++ [c]) 2 spans) (front : Text) :
    ∃ front', front ++ Text.join separator (excerpts (before ++ [c]) spans) = front' ++ [c] := by
  obtain ⟨a, b, rfl⟩ := List.length_eq_two.mp h.count
  have hstop : b.2 = (before ++ [c]).length := Option.some.inj h.last
  have hstart : b.1 ≤ before.length := by
    have hlt := (h.within b (by simp)).1
    rw [hstop, List.length_append, List.length_singleton] at hlt
    omega
  refine ⟨front ++ (slice (before ++ [c]) a.1 a.2 ++ (separator ++ before.drop b.1)), ?_⟩
  rw [excerpts, List.map_cons, List.map_singleton, Text.join_cons_cons, Text.join,
    List.intercalate_singleton, slice, slice, hstop, List.take_length,
    List.drop_append_of_le_length hstart]
  simp only [List.append_assoc]

/-- **A document that is too long by a blank alone is sent whole, and the last excerpt of one of
more than `2 ^ 53` characters stops before its end.** -/
theorem buildDigestInput_not_covers :
    (¬∀ bodyMd : Text, 400 < bodyMd.length → Roomy (header (outline (Text.strip bodyMd) 400)) 400 2 →
      (buildDigestInput {} bodyMd (some 400) (some 2)).2 = true) ∧
    ¬∀ bodyMd : Text, 1000 < (Text.strip bodyMd).length →
      Roomy (header (outline (Text.strip bodyMd) 1000)) 1000 2 →
        ∃ spans, CoversEnds (Text.strip bodyMd) 2 spans ∧
          buildDigestInput {} bodyMd (some 1000) (some 2) =
            (header (outline (Text.strip bodyMd) 1000) ++ note ++
              Text.join separator (excerpts (Text.strip bodyMd) spans), true) := by
  have hmark (n : Nat) (c : Char) (hc : c ≠ '#') : '#' ∉ List.replicate n 'a' ++ [c] := by
    simp only [List.mem_append, List.mem_replicate, List.mem_singleton, not_or]
    exact ⟨fun h => absurd h.2 (by decide), hc.symm⟩
  refine ⟨fun h => ?_, fun h => ?_⟩
  · have hstrip : Text.strip (List.replicate 400 ' ' ++ ['a']) = ['a'] := by
      rw [Text.strip, Text.lstrip, Text.dropWhile_run (fun c hc => ?_) (by rintro c ⟨⟩; rfl)]
      · rfl
      · rw [List.eq_of_mem_replicate hc]
        rfl
    have hmarked := h (List.replicate 400 ' ' ++ ['a'])
      (by rw [List.length_append, List.length_replicate]; decide)
      (by rw [hstrip, header_plain (by decide)]; exact roomy_plain (by omega))
    rw [buildDigestInput, hstrip] at hmarked
    exact absurd hmarked (by decide)
  · have hstrip := strip_plain 'b' rfl (2 ^ 53 + 451)
    have hlength : (List.replicate (2 ^ 53 + 451) 'a' ++ ['b']).length = 2 ^ 53 + 452 := by
      rw [List.length_append, List.length_replicate, List.length_singleton]
    have hsize : excerptSize [] 1000 2 = 451 := by
      rfl
    obtain ⟨spans, hspans, hbuild⟩ := h (List.replicate (2 ^ 53 + 451) 'a' ++ ['b'])
      (by rw [hstrip, hlength]; norm_num)
      (by rw [hstrip, header_plain (hmark _ 'b' (by decide))]; exact roomy_plain (by omega))
    rw [hstrip] at hspans hbuild
    obtain ⟨front, hfront⟩ := hspans.ends_with
      (header (outline (List.replicate (2 ^ 53 + 451) 'a' ++ ['b']) 1000) ++ note)
    have hlast : slice (List.replicate (2 ^ 53 + 451) 'a' ++ ['b']) (2 ^ 53) (2 ^ 53 + 451) =
        List.replicate 450 'a' ++ ['a'] := by
      rw [slice, List.take_append_of_le_length (by rw [List.length_replicate]), List.take_replicate,
        List.drop_replicate, Nat.min_self, Nat.add_sub_cancel_left, ← List.replicate_succ']
    have hlimit : DigestSettings.limit {} (some 1000) = 1000 := rfl
    have hmany : DigestSettings.windows {} (some 2) = 2 := rfl
    rw [hfront, buildDigestInput_long (by rw [hstrip, hlength, hlimit]; norm_num) le_rfl,
      hstrip, hlength, hlimit, hmany, header_plain (hmark _ 'b' (by decide)), hsize] at hbuild
    have hspans : excerptSpans (2 ^ 53 + 452 - 451) 451 2 = [(0, 451), (2 ^ 53, 2 ^ 53 + 451)] :=
      excerptSpans_rounded
    rw [hspans, excerpts, List.map_cons, List.map_singleton, Text.join_cons_cons, Text.join,
      List.intercalate_singleton, hlast] at hbuild
    have hchars := congrArg (fun t => t.1.getLast?) hbuild
    simp only [← List.append_assoc, List.getLast?_concat] at hchars
    exact absurd hchars (by decide)

end QnscKb.Corpus
