import Mathlib.Data.List.Sort
import Mathlib.Data.Prod.Lex
import Mathlib.Order.Nat

/-!
# Rankings — places by score

The places of a list by the scores that stand there, the greatest first, and of equal scores in
their order.
-/

namespace QnscKb.Rankings

variable {σ : Type} [LinearOrder σ]

def rankKey (f : Nat → σ) (i : Nat) : σᵒᵈ ×ₗ Nat := toLex (OrderDual.toDual (f i), i)

/-- The first `n` places, the greatest score first. -/
def ranking (f : Nat → σ) (n : Nat) : List Nat :=
  (List.range n).insertionSort fun i j => rankKey f i ≤ rankKey f j

variable {f g : Nat → σ}

variable {i j n : Nat}

theorem rankKey_le_iff : rankKey f i ≤ rankKey f j ↔ f j < f i ∨ f i = f j ∧ i ≤ j := by
  rw [rankKey, rankKey, Prod.Lex.toLex_le_toLex]
  rfl

omit [LinearOrder σ] in
theorem rankKey_injective : Function.Injective (rankKey f) := by
  intro i j h
  exact congrArg (fun key => (ofLex key).2) h

theorem rankKey_le_of_lt (h : i < j) : rankKey f i ≤ rankKey f j ↔ f j ≤ f i := by
  rw [rankKey_le_iff]
  constructor
  · rintro (hlt | ⟨heq, -⟩)
    · exact hlt.le
    · exact heq.ge
  · intro hle
    rcases hle.lt_or_eq with hlt | heq
    · exact Or.inl hlt
    · exact Or.inr ⟨heq.symm, h.le⟩

theorem ranking_sorted (f : Nat → σ) (n : Nat) :
    (ranking f n).Pairwise fun i j => rankKey f i ≤ rankKey f j :=
  List.pairwise_insertionSort _ _

theorem ranking_perm (f : Nat → σ) (n : Nat) : (ranking f n).Perm (List.range n) :=
  List.perm_insertionSort _ _

theorem mem_ranking : i ∈ ranking f n ↔ i < n := by
  rw [(ranking_perm f n).mem_iff, List.mem_range]

theorem le_iff_of_sorted {l : List Nat} (hf : l.Pairwise fun i j => rankKey f i ≤ rankKey f j)
    (hg : l.Pairwise fun i j => rankKey g i ≤ rankKey g j) (hi : i ∈ l) (hj : j ∈ l)
    (h : rankKey f i ≤ rankKey f j) : rankKey g i ≤ rankKey g j := by
  induction l with
  | nil => cases hi
  | cons k l ih =>
    obtain ⟨hfirst, hrest⟩ := List.pairwise_cons.mp hf
    obtain ⟨hfirst', hrest'⟩ := List.pairwise_cons.mp hg
    rcases List.mem_cons.mp hi with rfl | hin <;> rcases List.mem_cons.mp hj with rfl | hjn
    · exact le_rfl
    · exact hfirst' j hjn
    -- the place in front comes after none
    · rw [rankKey_injective (le_antisymm h (hfirst i hin))]
    · exact ih hrest hrest' hin hjn

/-- **Two scorings rank alike** exactly when they compare every two places alike. -/
theorem ranking_eq_iff : ranking f n = ranking g n ↔ ∀ j < n, ∀ i < j, (f j ≤ f i ↔ g j ≤ g i) := by
  constructor
  · intro h j hj i hi
    have hf := ranking_sorted f n
    have hg := ranking_sorted g n
    rw [← h] at hg
    have hin : i ∈ ranking f n := mem_ranking.mpr (hi.trans hj)
    have hjn : j ∈ ranking f n := mem_ranking.mpr hj
    rw [← rankKey_le_of_lt hi, ← rankKey_le_of_lt hi]
    exact ⟨le_iff_of_sorted hf hg hin hjn, le_iff_of_sorted hg hf hin hjn⟩
  · intro h
    have hkeys : ∀ i < n, ∀ j < n, rankKey g i ≤ rankKey g j → rankKey f i ≤ rankKey f j := by
      intro i hi j hj hle
      rcases lt_trichotomy i j with hij | rfl | hij
      · rw [rankKey_le_of_lt hij] at hle ⊢
        exact (h j hj i hij).mpr hle
      · exact le_rfl
      · by_contra hnot
        have hback := (h i hi j hij).mp ((rankKey_le_of_lt hij).mp (le_of_not_ge hnot))
        rw [rankKey_injective (le_antisymm hle ((rankKey_le_of_lt hij).mpr hback))] at hnot
        exact hnot le_rfl
    refine List.Perm.eq_of_pairwise (fun i j _ _ hij hji => rankKey_injective (le_antisymm hij hji))
      (ranking_sorted f n) ?_ ((ranking_perm f n).trans (ranking_perm g n).symm)
    refine (ranking_sorted g n).imp_of_mem fun hi hj hle => ?_
    exact hkeys _ (mem_ranking.mp hi) _ (mem_ranking.mp hj) hle

/-- The first places of two rankings agree, however many, when the rankings do. -/
theorem take_ranking_eq_iff :
    (∀ limit, (ranking f n).take limit = (ranking g n).take limit) ↔ ranking f n = ranking g n := by
  constructor
  · intro h
    have hall := h n
    have hlength : ∀ f : Nat → σ, (ranking f n).length = n := fun f => by
      rw [(ranking_perm f n).length_eq, List.length_range]
    rwa [List.take_of_length_le (hlength f).le, List.take_of_length_le (hlength g).le] at hall
  · intro h limit
    rw [h]

end QnscKb.Rankings
