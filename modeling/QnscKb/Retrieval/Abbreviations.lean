import QnscKb.Lib.Firsts
import QnscKb.Lib.Text

/-!
# Retrieval — Abbreviations

The names a question spells out (`src/rag/abbreviations.py`): which words a short form can stand
for, and how the results the names find come between the ordinary ones.
-/

namespace QnscKb.Abbreviations

open Firsts

/-! ### Pieces of words -/

/-- A word of a question, `[a-zA-Z]+`. -/
abbrev Word := { w : Text // w ≠ [] }

def vowels : Text := ['a', 'e', 'i', 'o', 'u']

def abbreviates (piece word : Text) : Bool :=
  piece.isPrefixOf word || (piece.tail.all fun c => !vowels.contains c) && piece.isSublist word

/-- The loop of `_can_form` over the lengths of the piece of a word: `later` words come after it,
and `next` forms what the piece leaves. -/
def tryLengths (total : Nat) (rest : Text) (word : Word) (later : Nat) (next : Text → Bool) :
    List Nat → Bool
  | [] => false
  | length :: lengths =>
    if (rest.take length).head? ≠ word.1.head? then false
    else if rest.length - length < later then false
    else if !abbreviates (rest.take length) word.1 then
      if word.1.length ≤ length then false
      else tryLengths total rest word later next lengths
    else if length = 1 ∧ total = 2 ∧ rest.length - 1 < 3 then
      tryLengths total rest word later next lengths
    else if next (rest.drop length) then true
    else tryLengths total rest word later next lengths

/-- `_can_form`, from the words at `index` on. -/
def canFormFrom (total : Nat) : List Word → Text → Bool
  | [], rest => rest.isEmpty
  | word :: words, rest =>
    tryLengths total rest word words.length (canFormFrom total words) (List.range' 1 rest.length)

def canForm (short : Text) (words : List Word) : Bool := canFormFrom words.length words short

/-! ### Decompositions -/

/-- The piece is the beginning of the word, or its first letter and then some of its consonants in
order. -/
def Abbreviates (piece word : Text) : Prop :=
  piece <+: word ∨
    piece.head? = word.head? ∧ (∀ c ∈ piece.tail, c ∉ vowels) ∧ piece.Sublist word

/-- A short form is made of one piece of each word, in order.  Where there are two words, an initial
alone is only enough before three letters or more. -/
structure Decomposes (total : Nat) (short : Text) (words : List Word) (pieces : List Text) :
    Prop where
  whole : pieces.flatten = short
  abbreviate : List.Forall₂ (fun piece word => piece ≠ [] ∧ Abbreviates piece word.1) pieces words
  initials : total = 2 → ∀ piece after, piece :: after <:+ pieces → piece.length = 1 →
    3 ≤ after.flatten.length

variable {piece word : Text}

theorem Abbreviates.head (h : Abbreviates piece word) (hne : piece ≠ []) :
    piece.head? = word.head? := by
  rcases h with ⟨rest, rfl⟩ | ⟨hhead, -, -⟩
  · rw [List.head?_append_of_ne_nil _ hne]
  · exact hhead

theorem Abbreviates.length_le (h : Abbreviates piece word) : piece.length ≤ word.length :=
  h.elim List.IsPrefix.length_le fun h => h.2.2.length_le

theorem abbreviates_iff (h : piece.head? = word.head?) :
    abbreviates piece word = true ↔ Abbreviates piece word := by
  simp [abbreviates, Abbreviates, h]

theorem head?_take {rest : Text} {n : Nat} (h : 1 ≤ n) : (rest.take n).head? = rest.head? := by
  cases rest with
  | nil => rw [List.take_nil]
  | cons c rest =>
    obtain ⟨m, rfl⟩ := Nat.exists_eq_add_of_le' h
    rfl

/-! ### The search -/

section Search

variable {total later : Nat} {rest : Text} {word : Word} {next : Text → Bool}

/-- A length the loop is right to go on with. -/
structure Fits (total : Nat) (rest : Text) (word : Word) (later : Nat) (next : Text → Bool)
    (n : Nat) : Prop where
  enough : later ≤ rest.length - n
  abbreviates : Abbreviates (rest.take n) word.1
  initial : total = 2 → n = 1 → 3 ≤ rest.length - 1
  rest : next (rest.drop n) = true

theorem Fits.head {n : Nat} (h : Fits total rest word later next n) (hpos : 1 ≤ n)
    (hle : n ≤ rest.length) : rest.head? = word.1.head? := by
  rw [← head?_take hpos]
  refine h.abbreviates.head fun hnil => ?_
  have hlength : (rest.take n).length = n := List.length_take_of_le hle
  rw [hnil, List.length_nil] at hlength
  omega

theorem Fits.length_le {n : Nat} (h : Fits total rest word later next n) (hle : n ≤ rest.length) :
    n ≤ word.1.length := by
  have habbreviates := h.abbreviates.length_le
  rwa [List.length_take_of_le hle] at habbreviates

theorem tryLengths_iff {lengths : List Nat} (hsorted : lengths.Pairwise (· < ·))
    (hin : ∀ n ∈ lengths, 1 ≤ n ∧ n ≤ rest.length) :
    tryLengths total rest word later next lengths = true ↔
      ∃ n ∈ lengths, Fits total rest word later next n := by
  induction lengths with
  | nil => simp [tryLengths]
  | cons n lengths ih =>
    obtain ⟨hlater, hsorted⟩ := List.pairwise_cons.mp hsorted
    have hrest := ih hsorted fun m hm => hin m (List.mem_cons_of_mem n hm)
    have hge : ∀ m ∈ n :: lengths, n ≤ m := by
      intro m hm
      rcases List.mem_cons.mp hm with rfl | hm
      · exact Nat.le_refl _
      · exact (hlater m hm).le
    -- going on is right where this length does not fit
    have hskip (hnot : ¬ Fits total rest word later next n) :
        tryLengths total rest word later next lengths = true ↔
          ∃ m ∈ n :: lengths, Fits total rest word later next m := by
      rw [hrest, List.exists_mem_cons_iff]
      exact (or_iff_right hnot).symm
    -- stopping is right where no later length fits either
    have hstop (hnone : ∀ m ∈ n :: lengths, ¬ Fits total rest word later next m) :
        false = true ↔ ∃ m ∈ n :: lengths, Fits total rest word later next m := by
      refine ⟨fun h => (by cases h), fun ⟨m, hm, hfits⟩ => absurd hfits (hnone m hm)⟩
    rw [tryLengths]
    split
    · rename_i hhead
      refine hstop fun m hm hfits => hhead ?_
      rw [head?_take (hin n List.mem_cons_self).1]
      exact hfits.head (hin m hm).1 (hin m hm).2
    rename_i hhead
    rw [not_not] at hhead
    split
    · rename_i hfew
      refine hstop fun m hm hfits => ?_
      have hle := hge m hm
      have henough := hfits.enough
      omega
    split
    · rename_i hnot
      rw [Bool.not_eq_true', ← Bool.not_eq_true, abbreviates_iff hhead] at hnot
      split
      · rename_i hlong
        refine hstop fun m hm hfits => ?_
        rcases List.mem_cons.mp hm with rfl | hm
        · exact hnot hfits.abbreviates
        · have hle := hfits.length_le (hin m (List.mem_cons_of_mem n hm)).2
          have hlt := hlater m hm
          omega
      · exact hskip fun hfits => hnot hfits.abbreviates
    rename_i hfew habbreviates
    rw [Bool.not_eq_true', Bool.not_eq_false, abbreviates_iff hhead] at habbreviates
    split
    · rename_i hinitial
      refine hskip fun hfits => ?_
      have hthree := hfits.initial hinitial.2.1 hinitial.1
      omega
    · rename_i hinitial
      split
      · rename_i hnext
        refine iff_of_true rfl ⟨n, List.mem_cons_self, Nat.le_of_not_lt hfew, habbreviates, ?_,
          hnext⟩
        intro htotal hone
        by_contra hshort
        exact hinitial ⟨hone, htotal, Nat.lt_of_not_le hshort⟩
      · rename_i hnext
        exact hskip fun hfits => hnext hfits.rest

end Search

theorem Decomposes.length_le {total : Nat} {short : Text} {words : List Word} {pieces : List Text}
    (h : Decomposes total short words pieces) : words.length ≤ short.length := by
  have hpieces := h.abbreviate
  rw [← h.whole]
  clear h
  induction hpieces with
  | nil => exact Nat.le_refl _
  | cons hpiece _ ih =>
    have hpos := List.length_pos_iff.mpr hpiece.1
    rw [List.flatten_cons, List.length_append, List.length_cons]
    omega

theorem exists_decomposes_cons {total : Nat} {short : Text} {word : Word} {words : List Word} :
    (∃ pieces, Decomposes total short (word :: words) pieces) ↔
      ∃ n, (1 ≤ n ∧ n ≤ short.length) ∧ Abbreviates (short.take n) word.1 ∧
        (total = 2 → n = 1 → 3 ≤ short.length - 1) ∧
        ∃ pieces, Decomposes total (short.drop n) words pieces := by
  constructor
  · rintro ⟨pieces, hwhole, hpieces, hinitials⟩
    cases hpieces with
    | @cons piece _ pieces _ hpiece hpieces =>
      obtain ⟨hne, habbreviates⟩ := hpiece
      rw [List.flatten_cons] at hwhole
      have hlength := congrArg List.length hwhole
      rw [List.length_append] at hlength
      have htake : short.take piece.length = piece := by
        rw [← hwhole, List.take_left]
      have hdrop : short.drop piece.length = pieces.flatten := by
        rw [← hwhole, List.drop_left]
      refine ⟨piece.length, ⟨List.length_pos_iff.mpr hne, by omega⟩, htake.symm ▸ habbreviates, ?_,
        pieces, hdrop.symm, hpieces, ?_⟩
      · intro htotal hone
        have hthree := hinitials htotal piece pieces List.suffix_rfl hone
        omega
      · intro htotal next after hsuffix
        exact hinitials htotal next after (hsuffix.trans (List.suffix_cons piece pieces))
  · rintro ⟨n, ⟨hpos, hle⟩, habbreviates, hinitial, pieces, hwhole, hpieces, hinitials⟩
    have hlength : (short.take n).length = n := List.length_take_of_le hle
    refine ⟨short.take n :: pieces, ?_, .cons ⟨fun hnil => ?_, habbreviates⟩ hpieces, ?_⟩
    · rw [List.flatten_cons, hwhole, List.take_append_drop]
    · rw [hnil, List.length_nil] at hlength
      omega
    · intro htotal piece after hsuffix hone
      rcases List.suffix_cons_iff.mp hsuffix with heq | hsuffix
      · cases heq
        rw [hwhole, List.length_drop]
        rw [hlength] at hone
        omega
      · exact hinitials htotal piece after hsuffix hone

theorem canFormFrom_iff (total : Nat) (words : List Word) (short : Text) :
    canFormFrom total words short = true ↔ ∃ pieces, Decomposes total short words pieces := by
  induction words generalizing short with
  | nil =>
    rw [canFormFrom, List.isEmpty_iff]
    constructor
    · rintro rfl
      refine ⟨[], rfl, .nil, fun _ piece after hsuffix => ?_⟩
      cases List.suffix_nil.mp hsuffix
    · rintro ⟨pieces, hwhole, hpieces, -⟩
      cases hpieces
      exact hwhole.symm
  | cons word words ih =>
    have hlengths : ∀ n ∈ List.range' 1 short.length, 1 ≤ n ∧ n ≤ short.length := by
      intro n hn
      rw [List.mem_range'_1] at hn
      omega
    rw [canFormFrom, tryLengths_iff List.pairwise_lt_range' hlengths, exists_decomposes_cons]
    refine exists_congr fun n => ⟨fun ⟨hn, hfits⟩ => ?_, fun ⟨hn, hpiece, hinitial, hrest⟩ => ?_⟩
    · exact ⟨hlengths n hn, hfits.abbreviates, hfits.initial, (ih _).mp hfits.rest⟩
    · have henough : words.length ≤ short.length - n := by
        obtain ⟨pieces, hdecomposes⟩ := hrest
        have hle := hdecomposes.length_le
        rwa [List.length_drop] at hle
      refine ⟨?_, henough, hpiece, hinitial, (ih _).mpr hrest⟩
      rw [List.mem_range'_1]
      omega

/-- **A short form can be formed from words** exactly where it decomposes into pieces of them. -/
theorem canForm_iff (short : Text) (words : List Word) :
    canForm short words = true ↔ ∃ pieces, Decomposes words.length short words pieces :=
  canFormFrom_iff words.length words short

/-! ### Merging the results -/

section Merging

variable {ρ κ : Type} [DecidableEq κ] (key : ρ → κ)

/-- `merged` and `seen`. -/
structure Merging (ρ κ : Type) where
  merged : List ρ
  seen : List κ

def Merging.add (m : Merging ρ κ) (item : ρ) : Merging ρ κ :=
  if key item ∈ m.seen then m else ⟨m.merged ++ [item], key item :: m.seen⟩

/-- `merge_alias_results`; the key of an item is `str(item.get("chunk_id"))`. -/
def mergeAliasResults (ordinary extended : List ρ) (keep insert : Nat) : List ρ :=
  let ordinaryIds := ordinary.map key
  let new := extended.filter fun item => decide (key item ∉ ordinaryIds)
  let kept := (ordinary.take keep).foldl (Merging.add key) ⟨[], []⟩
  let inserted := (new.take insert).foldl (Merging.add key) kept
  let ordinaries := (ordinary.drop keep).foldl (Merging.add key) inserted
  (extended.foldl (Merging.add key) ordinaries).merged

variable {key}

theorem foldl_merging (m : Merging ρ κ) (hseen : ∀ k, k ∈ m.seen ↔ k ∈ m.merged.map key)
    (l : List ρ) : (l.foldl (Merging.add key) m).merged = l.foldl (Firsts.add key) m.merged ∧
      ∀ k, k ∈ (l.foldl (Merging.add key) m).seen ↔
        k ∈ (l.foldl (Merging.add key) m).merged.map key := by
  induction l generalizing m with
  | nil => exact ⟨rfl, hseen⟩
  | cons item l ih =>
    have hstep : (m.add key item).merged = Firsts.add key m.merged item ∧
        ∀ k, k ∈ (m.add key item).seen ↔ k ∈ (m.add key item).merged.map key := by
      rw [Merging.add, Firsts.add]
      by_cases hitem : key item ∈ m.seen
      · rw [if_pos hitem, if_pos ((hseen _).mp hitem)]
        exact ⟨rfl, hseen⟩
      · rw [if_neg hitem, if_neg (fun h => hitem ((hseen _).mpr h))]
        refine ⟨rfl, fun k => ?_⟩
        rw [List.map_append, List.mem_append, List.mem_cons, hseen, or_comm, List.map_singleton,
          List.mem_singleton]
    rw [List.foldl_cons, List.foldl_cons, ← hstep.1]
    exact ih _ hstep.2

theorem mergeAliasResults_eq (ordinary extended : List ρ) (keep insert : Nat) :
    mergeAliasResults key ordinary extended keep insert =
      firsts key (ordinary.take keep ++
        (((extended.filter fun item => decide (key item ∉ ordinary.map key)).take insert) ++
          (ordinary.drop keep ++ extended))) := by
  simp only [mergeAliasResults, ← List.foldl_append, List.append_assoc]
  rw [(foldl_merging _ (fun k => by simp) _).1, foldl_add_nil]

/-- What is asked of a merge of `insert` new results behind the first `keep` ordinary ones. -/
structure Merges (key : ρ → κ) (ordinary extended : List ρ) (keep insert : Nat)
    (merged : List ρ) : Prop where
  once : (merged.map key).Nodup
  primary : merged.filter (fun item => decide (key item ∈ ordinary.map key)) = firsts key ordinary
  unmoved : firsts key (ordinary.take keep) <+: merged
  lowered : ∀ k ∈ ordinary.map key,
    (merged.map key).idxOf k ≤ (ordinary.map key).idxOf k + insert
  added : merged.filter (fun item => decide (key item ∉ ordinary.map key)) =
    firsts key (extended.filter fun item => decide (key item ∉ ordinary.map key))

theorem idxOf_between {before new after ks : List κ} {k : κ}
    (hks : before ++ after = ks) (hk : k ∈ ks) (hnew : k ∉ new) (more : List κ) :
    (before ++ (new ++ (after ++ more))).idxOf k ≤ ks.idxOf k + new.length := by
  subst hks
  by_cases hbefore : k ∈ before
  · rw [List.idxOf_append_of_mem hbefore, List.idxOf_append_of_mem hbefore]
    exact Nat.le_add_right _ _
  · have hafter : k ∈ after := (List.mem_append.mp hk).resolve_left hbefore
    rw [List.idxOf_append_of_notMem hbefore, List.idxOf_append_of_notMem hbefore,
      List.idxOf_append_of_notMem hnew, List.idxOf_append_of_mem hafter]
    omega

/-- **No ordinary result is lost** or comes later than the inserted ones push it, and the others are
the new ones. -/
theorem mergeAliasResults_merges (ordinary extended : List ρ) (keep insert : Nat) :
    Merges key ordinary extended keep insert
      (mergeAliasResults key ordinary extended keep insert) := by
  have hin : ∀ item ∈ ordinary, decide (key item ∈ ordinary.map key) = true := fun item hitem =>
    decide_eq_true (List.mem_map_of_mem hitem)
  have hout : ∀ item ∈ ordinary, ¬ decide (key item ∉ ordinary.map key) = true := fun item hitem =>
    by simpa using List.mem_map_of_mem (f := key) hitem
  generalize hnew : (extended.filter fun item => decide (key item ∉ ordinary.map key)) = new
  have hforeign : ∀ item ∈ new, key item ∉ ordinary.map key := fun item hitem => by
    rw [← hnew] at hitem
    exact of_decide_eq_true (List.mem_filter.mp hitem).2
  rw [mergeAliasResults_eq, hnew]
  constructor
  · exact nodup_firsts _
  · -- asked of the keys before: the ordinary results, and those of the others that are among them
    rw [filter_firsts (fun k => decide (k ∈ ordinary.map key))]
    simp only [List.filter_append]
    rw [List.filter_eq_self.mpr fun item hitem => hin item (List.mem_of_mem_take hitem),
      List.filter_eq_self.mpr fun item hitem => hin item (List.mem_of_mem_drop hitem),
      List.filter_eq_nil_iff.mpr fun item hitem => by
        simpa using hforeign item (List.mem_of_mem_take hitem),
      List.nil_append, ← List.append_assoc, List.take_append_drop]
    refine firsts_append_of_subset fun item hitem => ?_
    exact of_decide_eq_true (List.mem_filter.mp hitem).2
  · rw [firsts_append]
    exact List.prefix_append _ _
  · intro k hk
    refine (idxOf_firsts_le k _).trans ?_
    simp only [List.map_append]
    have hno : k ∉ (new.take insert).map key := fun hmem => by
      obtain ⟨item, hitem, rfl⟩ := List.mem_map.mp hmem
      exact hforeign item (List.mem_of_mem_take hitem) hk
    have hsplit : (ordinary.take keep).map key ++ (ordinary.drop keep).map key =
        ordinary.map key := by
      rw [← List.map_append, List.take_append_drop]
    refine (idxOf_between hsplit hk hno _).trans (Nat.add_le_add_left ?_ _)
    rw [List.length_map, List.length_take]
    exact Nat.min_le_left _ _
  · rw [filter_firsts (fun k => decide (k ∉ ordinary.map key))]
    simp only [List.filter_append]
    rw [List.filter_eq_nil_iff.mpr fun item hitem => hout item (List.mem_of_mem_take hitem),
      List.filter_eq_nil_iff.mpr fun item hitem => hout item (List.mem_of_mem_drop hitem),
      List.filter_eq_self.mpr fun item hitem =>
        decide_eq_true (hforeign item (List.mem_of_mem_take hitem)),
      hnew, List.nil_append, List.nil_append]
    have hagain : firsts key (new.take insert ++ (new.take insert ++ new.drop insert)) =
        firsts key (new.take insert ++ new.drop insert) := firsts_append_append _ _
    rwa [List.take_append_drop] at hagain

end Merging

end QnscKb.Abbreviations
