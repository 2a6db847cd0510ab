import QnscKb.Ask.Stripped

/-!
# Ask — Unmarked

What is still read as a citation once `strip_citation_markers` has taken the markers out of a text
(`src/rag/answer_sections.py`).  The stripper allows no white space around a bare number and 240
characters on either side of a marker's word; the extractor any white space, and 240 in all, once
blanks are folded.
-/

namespace QnscKb.Ask

open Brackets (runs replace Inside Plain Rewrites StandsFor)

variable {U : Unicode} {T : Tables}

/-! ### Folded blanks -/

theorem Plain.collapseBlanks {t : Text} (h : Plain t) : Plain (collapseBlanks t) := by
  intro c hc
  rcases mem_collapseFrom hc with hmem | rfl
  · exact h c hmem
  · decide

theorem runs_collapseBlanks (t : Text) : runs (collapseBlanks t) = (runs t).map collapseBlanks :=
  Brackets.runs_edit (fun _ => Plain.collapseBlanks)
    (fun a t => collapseFrom_append (by decide) t a [])
    (fun a t => collapseFrom_append (by decide) t a []) t

theorem markersInBracket_collapseBlanks (t : Text) :
    markersInBracket T.toUnicode (collapseBlanks t) = markersInBracket T.toUnicode t := by
  rw [markersInBracket_eq, collapseBlanks, wordRunsFrom_collapseFrom _ _ (List.forall_mem_nil _),
    List.nil_append, markersInBracket_eq]

theorem markersInBracket_nil : markersInBracket U [] = [] := rfl

variable {inner : Text}

/-- When a bracket that the stripper leaves is read as a citation. -/
theorem isCitation_collapseBlanks (h : markersInBracket T.toUnicode inner ≠ []) :
    isCitation T.toUnicode (collapseBlanks inner) = true ↔ (collapseBlanks inner).length ≤ 240 := by
  have hfound : markersInBracket T.toUnicode (collapseBlanks inner) ≠ [] := by
    rwa [markersInBracket_collapseBlanks]
  have hids : (markerIds T.toUnicode (collapseBlanks inner)).isEmpty = false := by
    simp only [markerIds]
    rw [if_neg (by simpa using hfound)]
    simpa using hfound
  have hne : collapseBlanks inner ≠ [] := by
    intro hnil
    rw [hnil] at hfound
    exact hfound markersInBracket_nil
  have hpos := List.length_pos_iff.mpr hne
  rw [isCitation, hids, capped]
  simp only [Bool.not_false, Bool.and_true, Bool.and_eq_true, decide_eq_true_eq]
  omega

theorem isCitation_collapseBlanks_bare (h : markersInBracket T.toUnicode inner = []) :
    isCitation T.toUnicode (collapseBlanks inner) = true ↔ capped (collapseBlanks inner) = true ∧
      (legacyBare T.toUnicode (collapseBlanks inner)).isSome := by
  have hfound : markersInBracket T.toUnicode (collapseBlanks inner) = [] := by
    rwa [markersInBracket_collapseBlanks]
  have hids : markerIds T.toUnicode (collapseBlanks inner) =
      (legacyBare T.toUnicode (collapseBlanks inner)).toList := by
    simp only [markerIds]
    rw [if_pos (by simpa using hfound)]
  rw [isCitation, hids]
  cases legacyBare T.toUnicode (collapseBlanks inner) <;> simp

/-! ### The stripped text -/

variable (U) in
/-- What the stripper puts for a bracket. -/
def unmark (inner : Text) : Option Text := if citationMarker U inner then some [] else none

theorem rewrites_unmark : Rewrites (unmark U) := by
  intro inner x hx
  rw [unmark] at hx
  split at hx
  · exact .inl (Option.some.inj hx).symm
  · cases hx

theorem standsFor_unmark {y : Text} :
    StandsFor (unmark U) inner y ↔ citationMarker U inner = false ∧ inner = y := by
  cases h : citationMarker U inner with
  | false =>
    have hnone : unmark U inner = none := by rw [unmark, h, if_neg Bool.false_ne_true]
    simp [Brackets.standsFor_of_none hnone]
  | true =>
    have hgone : unmark U inner = some [] := by rw [unmark, h, if_pos rfl]
    simp [Brackets.standsFor_of_some hgone]

theorem mem_runs_stripCitationMarkers {t y : Text} :
    y ∈ runs (collapseBlanks (replace (unmark U) t)) ↔ ∃ inner, collapseBlanks inner = y ∧
      (Inside (unmark U) t inner ∨ inner ∈ runs t ∧ citationMarker U inner = false) := by
  rw [runs_collapseBlanks, List.mem_map]
  refine exists_congr fun inner => ?_
  rw [Brackets.mem_runs_replace rewrites_unmark, Brackets.mem_hollows_iff, and_comm]
  refine and_congr_right fun _ => or_congr_right ?_
  simp only [standsFor_unmark]
  refine ⟨?_, fun h => ⟨inner, h.1, h.2, rfl⟩⟩
  rintro ⟨r, hr, hleft, rfl⟩
  exact ⟨hr, hleft⟩

variable (U) in
/-- **No bracket is left to be read**: none with a number set off by white space, none with a
marker's word too far inside for the stripper, and none that reads as a citation without the markers
in it. -/
structure Unmarked (t : Text) : Prop where
  bare : ∀ inner ∈ runs t, markersInBracket U inner = [] → citationMarker U inner = false →
    capped (collapseBlanks inner) = true → legacyBare U (collapseBlanks inner) = none
  far : ∀ inner ∈ runs t, markersInBracket U inner ≠ [] → citationMarker U inner = false →
    240 < (collapseBlanks inner).length
  around : ∀ inner, Inside (unmark U) t inner → isCitation U (collapseBlanks inner) = false

/-- **Stripping is complete** exactly where no bracket is left to be read. -/
theorem unmarked_iff (T : Tables) (t : Text) :
    extractCitationIds T.toUnicode (stripCitationMarkers T.toUnicode t) = [] ↔
      Unmarked T.toUnicode t := by
  have hstrip : stripCitationMarkers T.toUnicode t =
      Text.strip (collapseBlanks (replace (unmark T.toUnicode) t)) := rfl
  have hread : extractCitationIds T.toUnicode (stripCitationMarkers T.toUnicode t) = [] ↔
      ∀ inner, (Inside (unmark T.toUnicode) t inner ∨
          inner ∈ runs t ∧ citationMarker T.toUnicode inner = false) →
        isCitation T.toUnicode (collapseBlanks inner) = false := by
    rw [extractCitationIds_eq_nil, hstrip, readIds_strip, List.eq_nil_iff_forall_not_mem]
    simp only [mem_readIds_iff, mem_runs_stripCitationMarkers]
    constructor
    · intro h inner hinner
      rw [Bool.eq_false_iff]
      intro hcitation
      obtain ⟨n, hn⟩ : ∃ n, n ∈ markerIds T.toUnicode (collapseBlanks inner) := by
        rw [isCitation, Bool.and_eq_true, Bool.not_eq_true', List.isEmpty_eq_false_iff] at hcitation
        exact List.exists_mem_of_ne_nil _ hcitation.2
      exact h n ⟨_, ⟨inner, rfl, hinner⟩, hcitation, hn⟩
    · rintro h n ⟨y, ⟨inner, rfl, hinner⟩, hcitation, -⟩
      rw [h inner hinner] at hcitation
      cases hcitation
  rw [hread]
  constructor
  · intro h
    refine ⟨fun inner hinner hnone hleft hcapped => ?_, fun inner hinner hsome hleft => ?_,
      fun inner hinner => h inner (.inl hinner)⟩
    · rw [← Option.not_isSome_iff_eq_none]
      intro hnumber
      have hcitation := (isCitation_collapseBlanks_bare hnone).mpr ⟨hcapped, hnumber⟩
      rw [h inner (.inr ⟨hinner, hleft⟩)] at hcitation
      cases hcitation
    · rw [← Nat.not_le, ← isCitation_collapseBlanks hsome, h inner (.inr ⟨hinner, hleft⟩)]
      exact Bool.false_ne_true
  · rintro h inner (hinner | ⟨hinner, hleft⟩)
    · exact h.around inner hinner
    · rw [Bool.eq_false_iff]
      intro hcitation
      by_cases hnone : markersInBracket T.toUnicode inner = []
      · obtain ⟨hcapped, hnumber⟩ := (isCitation_collapseBlanks_bare hnone).mp hcitation
        rw [h.bare inner hinner hnone hleft hcapped] at hnumber
        cases hnumber
      · have hfar := h.far inner hinner hnone hleft
        have hshort := (isCitation_collapseBlanks hnone).mp hcitation
        omega

/-- A marker of a long run of blanks: too wide for the stripper, and short once they are folded. -/
def blankMarker : Text := "[C1".toList ++ List.replicate 241 ' ' ++ [']']

/-- A number set off by white space is left and read, so is a marker before many blanks, and taking
`[C1]` out of `[[C1]2]` leaves a marker. -/
theorem marker_left_behind :
    extractCitationIds ascii (stripCitationMarkers ascii "See [ 1 ].".toList) = [1] ∧
      extractCitationIds ascii (stripCitationMarkers ascii blankMarker) = [1] ∧
      extractCitationIds ascii (stripCitationMarkers ascii "[[C1]2]".toList) = [2] := by
  decide +kernel

end QnscKb.Ask
