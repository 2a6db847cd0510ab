import Mathlib.Data.List.Dedup
import Mathlib.Data.List.Sort

/-!
# Top — the best of a table

A table is a list of keys with their values, a key as often as it was seen.  `Top n table top`: `top`
holds `n` keys with the greatest of their best values, each once, best first.
-/

namespace QnscKb

variable {κ σ : Type} [LinearOrder σ]

/-- The best value a table has for a key. -/
def Best (table : List (κ × σ)) (key : κ) (value : σ) : Prop :=
  (key, value) ∈ table ∧ ∀ other, (key, other) ∈ table → other ≤ value

theorem exists_best {table : List (κ × σ)} {key : κ} {value : σ} (h : (key, value) ∈ table) :
    ∃ best, Best table key best ∧ value ≤ best := by
  induction table generalizing value with
  | nil => cases h
  | cons entry table ih =>
    by_cases htail : ∃ other, (key, other) ∈ table
    · obtain ⟨other, hother⟩ := htail
      obtain ⟨best, ⟨hmem, hmax⟩, -⟩ := ih hother
      by_cases hfirst : entry.1 = key ∧ best < entry.2
      · obtain ⟨rfl, hlt⟩ := hfirst
        refine ⟨entry.2, ⟨List.mem_cons_self .., fun v hv => ?_⟩, ?_⟩
        · rcases List.mem_cons.mp hv with heq | hv
          · exact (congrArg Prod.snd heq).le
          · exact (hmax v hv).trans hlt.le
        · rcases List.mem_cons.mp h with heq | hv
          · exact (congrArg Prod.snd heq).le
          · exact (hmax value hv).trans hlt.le
      · have hle : ∀ v, (key, v) ∈ entry :: table → v ≤ best := by
          intro v hv
          rcases List.mem_cons.mp hv with rfl | hv
          · exact not_lt.mp fun hlt => hfirst ⟨rfl, hlt⟩
          · exact hmax v hv
        exact ⟨best, ⟨List.mem_cons_of_mem _ hmem, hle⟩, hle value h⟩
    · have hfirst : ∀ v, (key, v) ∈ entry :: table → (key, v) = entry := by
        intro v hv
        exact (List.mem_cons.mp hv).resolve_right fun htable => htail ⟨v, htable⟩
      refine ⟨value, ⟨h, fun v hv => ?_⟩, le_refl _⟩
      rw [(Prod.mk.inj ((hfirst v hv).trans (hfirst value h).symm)).2]

/-- `n` keys with the greatest best values, best first. -/
structure Top (n : Nat) (table top : List (κ × σ)) : Prop where
  keys : (top.map Prod.fst).Nodup
  sorted : (top.map Prod.snd).Pairwise fun a b => b ≤ a
  best : ∀ entry ∈ top, Best table entry.1 entry.2
  short : top.length ≤ n
  full : ∀ key value, Best table key value →
    (key, value) ∈ top ∨ top.length = n ∧ ∀ entry ∈ top, value ≤ entry.2

namespace Top

variable {n : Nat} {table top : List (κ × σ)}

theorem nil : Top n ([] : List (κ × σ)) [] where
  keys := List.nodup_nil
  sorted := List.Pairwise.nil
  best := by simp
  short := Nat.zero_le n
  full := by
    rintro key value ⟨hmem, -⟩
    cases hmem

theorem exists_left_out [DecidableEq κ] {extra : κ} {kept : List κ} (htop : Top n table top)
    (hkept : kept.Nodup) (hlength : kept.length = n) (hextra : extra ∉ kept)
    (hin : extra ∈ top.map Prod.fst) : ∃ key ∈ kept, key ∉ top.map Prod.fst := by
  by_contra hall
  push Not at hall
  have hsub : extra :: kept ⊆ top.map Prod.fst := List.cons_subset.mpr ⟨hin, hall⟩
  have hle := (List.subperm_of_subset (List.nodup_cons.mpr ⟨hextra, hkept⟩) hsub).length_le
  have hshort := htop.short
  rw [List.length_cons, List.length_map] at hle
  omega

theorem le_of_left_out {key : κ} {value : σ} (htop : Top n table top)
    (hbest : Best table key value) (hout : key ∉ top.map Prod.fst) :
    top.length = n ∧ ∀ entry ∈ top, value ≤ entry.2 :=
  (htop.full key value hbest).resolve_left fun hmem => hout (List.mem_map_of_mem hmem)

/-- **Only the top of a table need be kept when it grows.** -/
theorem step [DecidableEq κ] {more top' : List (κ × σ)} (h : Top n table top)
    (h' : Top n (top ++ more) top') : Top n (table ++ more) top' := by
  have hsub : ∀ entry ∈ top ++ more, entry ∈ table ++ more := by
    intro entry hentry
    rcases List.mem_append.mp hentry with hin | hin
    · exact List.mem_append_left _ (h.best entry hin).1
    · exact List.mem_append_right _ hin
  -- where `value` beats an entry that is kept in the end, its key was kept
  have hbeats : ∀ {key value}, Best table key value → (key, value) ∉ top →
      top.length = n ∧ ∀ entry ∈ top', value ≤ entry.2 := by
    intro key value hbest hout
    obtain ⟨hlength, hle⟩ := (h.full key value hbest).resolve_left hout
    refine ⟨hlength, fun entry hentry => not_lt.mp fun hlt => ?_⟩
    have habove : ∀ other ∈ top, entry.2 < other.2 :=
      fun other hother => hlt.trans_le (hle other hother)
    have hnot : entry.1 ∉ top.map Prod.fst := by
      intro hin
      obtain ⟨other, hother, heq⟩ := List.mem_map.mp hin
      have hbound := (h'.best entry hentry).2 other.2
        (List.mem_append_left _ (by rw [← heq]; exact hother))
      exact absurd (habove other hother) (not_lt.mpr hbound)
    obtain ⟨left, hleft, hleftOut⟩ := h'.exists_left_out h.keys (by rw [List.length_map, hlength])
      hnot (List.mem_map_of_mem hentry)
    obtain ⟨other, hother, rfl⟩ := List.mem_map.mp hleft
    obtain ⟨best, hbest', hge⟩ := exists_best (List.mem_append_left more hother)
    exact absurd ((habove other hother).trans_le hge)
      (not_lt.mpr ((h'.le_of_left_out hbest' hleftOut).2 entry hentry))
  refine ⟨h'.keys, h'.sorted, fun entry hentry => ?_, h'.short, fun key value hbest => ?_⟩
  · obtain ⟨hmem, hmax⟩ := h'.best entry hentry
    refine ⟨hsub _ hmem, fun other hother => ?_⟩
    rcases List.mem_append.mp hother with hin | hin
    · obtain ⟨best, hbest, hge⟩ := exists_best hin
      by_cases hkept : (entry.1, best) ∈ top
      · exact hge.trans (hmax best (List.mem_append_left _ hkept))
      · exact hge.trans ((hbeats hbest hkept).2 entry hentry)
    · exact hmax other (List.mem_append_right _ hin)
  · by_cases hin : (key, value) ∈ top ++ more
    · exact h'.full key value ⟨hin, fun other hother => hbest.2 other (hsub _ hother)⟩
    · obtain ⟨hnot, hmore⟩ := List.mem_append.not.mp hin |> not_or.mp
      have htable : Best table key value :=
        ⟨(List.mem_append.mp hbest.1).resolve_right hmore,
          fun other hother => hbest.2 other (List.mem_append_left _ hother)⟩
      obtain ⟨hlength, hle⟩ := hbeats htable hnot
      refine .inr ⟨le_antisymm h'.short ?_, hle⟩
      by_contra hshort
      have hall : top.map Prod.fst ⊆ top'.map Prod.fst := by
        intro left hleft
        obtain ⟨other, hother, rfl⟩ := List.mem_map.mp hleft
        obtain ⟨best, hbest', -⟩ := exists_best (List.mem_append_left more hother)
        by_contra hleftOut
        have hfull := (h'.le_of_left_out hbest' hleftOut).1
        omega
      have hle' := (List.subperm_of_subset h.keys hall).length_le
      rw [List.length_map, List.length_map] at hle'
      omega

/-- **Ties do not change the values.** -/
theorem values_unique [DecidableEq κ] {top' : List (κ × σ)} (h : Top n table top)
    (h' : Top n table top') : top.map Prod.snd = top'.map Prod.snd := by
  -- the best entries of the table, those that are kept first, sorted
  let bests := (table.filter fun entry => decide (∀ other ∈ table, other.1 = entry.1 →
    other.2 ≤ entry.2)).dedup
  have hbests : ∀ entry, entry ∈ bests ↔ Best table entry.1 entry.2 := by
    intro entry
    simp only [bests, List.mem_dedup, List.mem_filter, decide_eq_true_eq]
    refine and_congr Iff.rfl ⟨fun hmax other hother => hmax _ hother rfl,
      fun hmax other hother heq => ?_⟩
    exact hmax other.2 (heq ▸ hother)
  have hvalues : ∀ {top : List (κ × σ)}, Top n table top → ∃ rest : List σ,
      (top.map Prod.snd ++ rest).Perm (bests.map Prod.snd) ∧
        (top.map Prod.snd ++ rest).Pairwise (fun a b => b ≤ a) ∧
          top.map Prod.snd = (top.map Prod.snd ++ rest).take n := by
    intro top h
    let rest := bests.filter fun entry => decide (entry ∉ top)
    let values := (rest.map Prod.snd).insertionSort fun a b => b ≤ a
    have hrest : ∀ value ∈ values, top.length = n ∧ ∀ entry ∈ top, value ≤ entry.2 := by
      intro value hvalue
      obtain ⟨entry, hentry, rfl⟩ := List.mem_map.mp ((List.mem_insertionSort _).mp hvalue)
      obtain ⟨hbest, hout⟩ := List.mem_filter.mp hentry
      exact (h.full _ _ ((hbests entry).mp hbest)).resolve_left (of_decide_eq_true hout)
    have hnodup : (top ++ rest).Nodup := by
      refine (h.keys.of_map _).append ((List.nodup_dedup _).filter _) ?_
      intro entry hin hout
      exact of_decide_eq_true (List.mem_filter.mp hout).2 hin
    have hperm : (top ++ rest).Perm bests := by
      refine (List.perm_ext_iff_of_nodup hnodup (List.nodup_dedup _)).mpr fun entry => ?_
      rw [List.mem_append]
      constructor
      · rintro (hin | hin)
        · exact (hbests entry).mpr (h.best entry hin)
        · exact (List.mem_filter.mp hin).1
      · intro hin
        by_cases htop : entry ∈ top
        · exact .inl htop
        · exact .inr (List.mem_filter.mpr ⟨hin, decide_eq_true htop⟩)
    refine ⟨values, ?_, ?_, ?_⟩
    · have hmap := hperm.map Prod.snd
      rw [List.map_append] at hmap
      exact ((List.perm_insertionSort _ _).append_left _).trans hmap
    · refine List.pairwise_append.mpr ⟨h.sorted, List.pairwise_insertionSort _ _, ?_⟩
      intro a ha b hb
      obtain ⟨entry, hentry, rfl⟩ := List.mem_map.mp ha
      exact (hrest b hb).2 entry hentry
    · cases hvalues : values with
      | nil =>
        rw [List.append_nil, List.take_of_length_le]
        rw [List.length_map]
        exact h.short
      | cons value values' =>
        have hlength := (hrest value (hvalues ▸ List.mem_cons_self ..)).1
        have htake : n = (top.map Prod.snd).length := by rw [List.length_map, hlength]
        rw [htake, List.take_left]
  obtain ⟨rest, hperm, hsorted, htake⟩ := hvalues h
  obtain ⟨rest', hperm', hsorted', htake'⟩ := hvalues h'
  have hsame : top.map Prod.snd ++ rest = top'.map Prod.snd ++ rest' := by
    refine List.Perm.eq_of_pairwise (fun a b _ _ hab hba => le_antisymm hba hab) hsorted hsorted' ?_
    exact hperm.trans hperm'.symm
  rw [htake, hsame, ← htake']

theorem of_mem_iff {table' : List (κ × σ)} (h : Top n table top)
    (hmem : ∀ entry, entry ∈ table' ↔ entry ∈ table) : Top n table' top := by
  have hbest : ∀ key value, Best table' key value ↔ Best table key value := by
    intro key value
    simp only [Best, hmem]
  refine ⟨h.keys, h.sorted, fun entry hentry => ?_, h.short, fun key value hin => ?_⟩
  · exact (hbest _ _).mpr (h.best entry hentry)
  · exact h.full key value ((hbest _ _).mp hin)

/-- **Tables side by side: the tops of each are all that is needed for the top of them all.** -/
theorem flatten [DecidableEq κ] {ι : Type} {whole part : ι → List (κ × σ)} {ids : List ι}
    {more : List (κ × σ)} (hpart : ∀ i ∈ ids, Top n (whole i) (part i))
    (h : Top n (more ++ ids.flatMap part) top) : Top n (more ++ ids.flatMap whole) top := by
  induction ids generalizing more with
  | nil => exact h
  | cons i ids ih =>
    have hfirst := hpart i (List.mem_cons_self ..)
    have hswap : Top n (part i ++ (more ++ ids.flatMap part)) top := by
      refine h.of_mem_iff fun entry => ?_
      simp only [List.flatMap_cons, List.mem_append]
      tauto
    have hrest := hfirst.step hswap
    rw [← List.append_assoc] at hrest
    have hall := ih (fun j hj => hpart j (List.mem_cons_of_mem _ hj)) hrest
    refine hall.of_mem_iff fun entry => ?_
    simp only [List.flatMap_cons, List.mem_append]
    tauto

end Top

/-! ### The place in a stable sort -/

section Stable

variable {α : Type} [DecidableEq α] (f : α → σ)

/-- How many elements of a list a stable sort, greatest first, puts ahead of one of them. -/
def ahead (l : List α) (item : α) : Nat :=
  (l.countP fun other => decide (f item < f other)) +
    (l.takeWhile fun other => other != item).countP fun other => decide (f other = f item)

variable {f}

theorem takeWhile_ne_append {a b : List α} {item : α} (h : item ∉ a) :
    (a ++ item :: b).takeWhile (fun other => other != item) = a := by
  have ha : ∀ other ∈ a, (other != item) = true := by
    intro other hother
    exact bne_iff_ne.mpr fun heq => h (heq ▸ hother)
  rw [List.takeWhile_append_of_pos ha, List.takeWhile_cons_of_neg (by simp), List.append_nil]

omit [DecidableEq α] in
theorem filter_insertionSort (l : List α) (value : σ) :
    (l.insertionSort fun a b => f b ≤ f a).filter (fun other => decide (f other = value)) =
      l.filter fun other => decide (f other = value) := by
  have hvalue : ∀ other ∈ l.filter (fun other => decide (f other = value)), f other = value :=
    fun other hother => of_decide_eq_true (List.mem_filter.mp hother).2
  have hsub : (l.filter fun other => decide (f other = value)).Sublist
      (l.insertionSort fun a b => f b ≤ f a) := by
    refine List.sublist_insertionSort ?_ List.filter_sublist
    exact List.pairwise_of_forall_mem_list fun a ha b hb =>
      ((hvalue b hb).trans (hvalue a ha).symm).le
  have hfilter := hsub.filter fun other => decide (f other = value)
  rw [List.filter_filter, List.filter_congr fun other _ => Bool.and_self _] at hfilter
  refine (hfilter.eq_of_length ?_).symm
  exact ((List.perm_insertionSort (fun a b => f b ≤ f a) l).symm.filter _).length_eq

/-- The first `n` of a stable sort. -/
theorem mem_take_insertionSort_iff {l : List α} {item : α} (hnodup : l.Nodup) (hitem : item ∈ l)
    (n : Nat) : item ∈ (l.insertionSort fun a b => f b ≤ f a).take n ↔ ahead f l item < n := by
  let ranked := l.insertionSort fun a b => f b ≤ f a
  have hperm : ranked.Perm l := List.perm_insertionSort _ _
  have hsorted : ranked.Pairwise fun a b => f b ≤ f a := List.pairwise_insertionSort _ _
  have hrankedNodup : ranked.Nodup := hperm.nodup_iff.mpr hnodup
  obtain ⟨a, b, hl⟩ := List.append_of_mem hitem
  obtain ⟨front, back, hranked⟩ := List.append_of_mem (hperm.mem_iff.mpr hitem)
  have ha : item ∉ a := by
    rw [hl] at hnodup
    exact fun hin => (List.nodup_append.mp hnodup).2.2 item hin item (List.mem_cons_self ..) rfl
  have hfront : item ∉ front := by
    rw [hranked] at hrankedNodup
    exact fun hin =>
      (List.nodup_append.mp hrankedNodup).2.2 item hin item (List.mem_cons_self ..) rfl
  rw [hranked] at hsorted
  have hge : ∀ other ∈ front, f item ≤ f other := fun other hother =>
    (List.pairwise_append.mp hsorted).2.2 other hother item (List.mem_cons_self ..)
  have hle : ∀ other ∈ item :: back, ¬f item < f other := by
    intro other hother
    rcases List.mem_cons.mp hother with rfl | hback
    · exact lt_irrefl _
    · exact not_lt.mpr ((List.pairwise_cons.mp (List.pairwise_append.mp hsorted).2.1).1 other hback)
  -- the elements of the same value ahead of it are those that were ahead of it
  have hsame : front.filter (fun other => decide (f other = f item)) =
      a.filter fun other => decide (f other = f item) := by
    have hfilter := filter_insertionSort (f := f) l (f item)
    change ranked.filter _ = _ at hfilter
    rw [hranked, hl, List.filter_append, List.filter_append, List.filter_cons_of_pos (by simp),
      List.filter_cons_of_pos (by simp)] at hfilter
    have hcut := congrArg (List.takeWhile fun other => other != item) hfilter
    rwa [takeWhile_ne_append fun hin => hfront (List.mem_filter.mp hin).1,
      takeWhile_ne_append fun hin => ha (List.mem_filter.mp hin).1] at hcut
  have hbetter : l.countP (fun other => decide (f item < f other)) =
      front.countP fun other => decide (f item < f other) := by
    have hback : (item :: back).countP (fun other => decide (f item < f other)) = 0 :=
      List.countP_eq_zero.mpr fun other hother => decide_eq_true_iff.not.mpr (hle other hother)
    rw [← hperm.countP_eq, hranked, List.countP_append, hback, Nat.add_zero]
  have hplace : ahead f l item = front.length := by
    rw [ahead, hbetter]
    conv_lhs => rw [hl, takeWhile_ne_append ha]
    rw [List.countP_eq_length_filter (l := a), ← hsame, ← List.countP_eq_length_filter]
    rw [List.length_eq_countP_add_countP (fun other => decide (f item < f other))]
    refine congrArg _ (List.countP_congr fun other hother => ?_)
    have hother' := hge other hother
    simp only [decide_eq_true_eq, not_lt]
    exact ⟨fun heq => heq.le, fun hle' => le_antisymm hle' hother'⟩
  rw [hplace]
  change item ∈ ranked.take n ↔ _
  rw [hranked]
  constructor
  · intro hin
    by_contra hlong
    rw [List.take_append_of_le_length (Nat.le_of_not_lt hlong)] at hin
    exact hfront (List.mem_of_mem_take hin)
  · intro hlt
    obtain ⟨k, hk⟩ : ∃ k, n - front.length = k + 1 := ⟨n - front.length - 1, by omega⟩
    rw [List.take_append, hk]
    exact List.mem_append_right _ (List.mem_cons_self ..)

end Stable

end QnscKb
