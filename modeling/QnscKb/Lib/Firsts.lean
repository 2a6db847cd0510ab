import Mathlib.Data.List.Nodup

/-!
# Firsts — the first of each key

`firsts key l` is a list without the elements whose key an earlier one has.
-/

namespace QnscKb.Firsts

variable {ρ κ : Type} [DecidableEq κ] (key : ρ → κ)

/-- The elements whose key no earlier one has. -/
def firsts : List ρ → List ρ
  | [] => []
  | x :: l => x :: (firsts l).filter fun y => key y != key x

def add (added : List ρ) (x : ρ) : List ρ :=
  if key x ∈ added.map key then added else added ++ [x]

variable {key}

variable {l : List ρ}

theorem mem_of_mem_firsts {x : ρ} (h : x ∈ firsts key l) : x ∈ l := by
  induction l with
  | nil => cases h
  | cons y l ih =>
    rcases List.mem_cons.mp h with rfl | h
    · exact List.mem_cons_self
    · exact List.mem_cons_of_mem y (ih (List.mem_filter.mp h).1)

/-- The first of each key are those before which no element has their key. -/
theorem mem_firsts_iff {x : ρ} :
    x ∈ firsts key l ↔ ∃ a b, l = a ++ x :: b ∧ ∀ y ∈ a, key y ≠ key x := by
  induction l with
  | nil => simp [firsts]
  | cons z l ih =>
    rw [firsts, List.mem_cons, List.mem_filter, ih]
    constructor
    · rintro (rfl | ⟨⟨a, b, rfl, ha⟩, hne⟩)
      · exact ⟨[], l, rfl, List.forall_mem_nil _⟩
      · exact ⟨z :: a, b, rfl, List.forall_mem_cons.mpr ⟨fun h => by simp [h] at hne, ha⟩⟩
    · rintro ⟨_ | ⟨y, a⟩, b, hl, ha⟩
      · exact .inl (List.cons.inj hl).1.symm
      · obtain ⟨rfl, rfl⟩ := List.cons.inj hl
        obtain ⟨hz, ha⟩ := List.forall_mem_cons.mp ha
        exact .inr ⟨⟨a, b, rfl, ha⟩, by simpa using Ne.symm hz⟩

theorem exists_mem_firsts {x : ρ} (h : x ∈ l) : ∃ y ∈ firsts key l, key y = key x := by
  induction l with
  | nil => cases h
  | cons z l ih =>
    by_cases hz : key z = key x
    · exact ⟨z, List.mem_cons_self, hz⟩
    · rcases List.mem_cons.mp h with rfl | h
      · exact absurd rfl hz
      · obtain ⟨y, hy, hkey⟩ := ih h
        refine ⟨y, List.mem_cons_of_mem z (List.mem_filter.mpr ⟨hy, ?_⟩), hkey⟩
        rw [hkey]
        simpa using Ne.symm hz

theorem nodup_firsts (l : List ρ) : ((firsts key l).map key).Nodup := by
  induction l with
  | nil => exact List.nodup_nil
  | cons x l ih =>
    rw [firsts, List.map_cons, List.nodup_cons]
    refine ⟨fun hmem => ?_, ih.sublist (List.filter_sublist.map key)⟩
    obtain ⟨y, hy, hkey⟩ := List.mem_map.mp hmem
    have hne := (List.mem_filter.mp hy).2
    simp [hkey] at hne

/-- What is asked of the key alone can be asked before. -/
theorem filter_firsts (p : κ → Bool) (l : List ρ) :
    (firsts key l).filter (fun x => p (key x)) = firsts key (l.filter fun x => p (key x)) := by
  induction l with
  | nil => rfl
  | cons x l ih =>
    cases hp : p (key x) with
    | true =>
      rw [firsts, List.filter_cons_of_pos (p := fun x => p (key x)) hp,
        List.filter_cons_of_pos (p := fun x => p (key x)) hp, firsts, ← ih,
        List.filter_filter, List.filter_filter]
      simp only [Bool.and_comm]
    | false =>
      have hneg : ¬ p (key x) = true := by simp [hp]
      rw [firsts, List.filter_cons_of_neg (p := fun x => p (key x)) hneg,
        List.filter_cons_of_neg (p := fun x => p (key x)) hneg, ← ih, List.filter_filter]
      refine List.filter_congr fun y _ => ?_
      by_cases hy : key y = key x
      · simp [hy, hp]
      · simp [hy]

/-- A second list adds what the first one has not. -/
theorem firsts_append (a b : List ρ) : firsts key (a ++ b) =
    firsts key a ++ (firsts key b).filter fun y => decide (key y ∉ a.map key) := by
  induction a with
  | nil => simp [firsts]
  | cons x a ih =>
    rw [List.cons_append, firsts, ih, List.filter_append, List.filter_filter]
    refine congrArg (x :: ·) (congrArg (_ ++ ·) (List.filter_congr fun y _ => ?_))
    by_cases hy : key y = key x
    · simp [hy]
    · simp [hy]

theorem firsts_append_of_subset {a b : List ρ} (h : ∀ y ∈ b, key y ∈ a.map key) :
    firsts key (a ++ b) = firsts key a := by
  rw [firsts_append, List.filter_eq_nil_iff.mpr, List.append_nil]
  intro y hy
  simpa using h y (mem_of_mem_firsts hy)

theorem firsts_append_append (a b : List ρ) : firsts key (a ++ (a ++ b)) = firsts key (a ++ b) := by
  have hnone : (firsts key a).filter (fun y => decide (key y ∉ a.map key)) = [] := by
    rw [List.filter_eq_nil_iff]
    intro y hy
    simpa using List.mem_map_of_mem (f := key) (mem_of_mem_firsts hy)
  rw [firsts_append, firsts_append, List.filter_append, hnone, List.nil_append, List.filter_filter]
  simp only [Bool.and_self]

/-- Elements are added one by one, each unless its key is there already. -/
theorem foldl_add (added l : List ρ) : l.foldl (add key) added =
    added ++ (firsts key l).filter fun y => decide (key y ∉ added.map key) := by
  induction l generalizing added with
  | nil => simp [firsts]
  | cons x l ih =>
    rw [List.foldl_cons, ih, firsts, add]
    by_cases hx : key x ∈ added.map key
    · rw [if_pos hx, List.filter_cons_of_neg (by simpa using hx), List.filter_filter]
      refine congrArg (added ++ ·) (List.filter_congr fun y _ => ?_)
      by_cases hy : key y = key x
      · rw [hy]
        simp [hx]
      · simp [hy]
    · rw [if_neg hx, List.filter_cons_of_pos (by simpa using hx), List.filter_filter,
        List.append_assoc, List.singleton_append]
      refine congrArg (added ++ x :: ·) (List.filter_congr fun y _ => ?_)
      by_cases hy : key y = key x
      · simp [hy]
      · simp [hy]

theorem foldl_add_nil (l : List ρ) : l.foldl (add key) [] = firsts key l := by
  rw [foldl_add]
  simp

theorem idxOf_filter_le {p : κ → Bool} {k : κ} (hk : p k = true) (l : List κ) :
    (l.filter p).idxOf k ≤ l.idxOf k := by
  induction l with
  | nil => exact Nat.le_refl _
  | cons a l ih =>
    by_cases ha : a = k
    · subst ha
      rw [List.filter_cons_of_pos hk]
      simp
    · rw [List.idxOf_cons_ne l ha]
      cases hp : p a with
      | true =>
        rw [List.filter_cons_of_pos hp, List.idxOf_cons_ne _ ha]
        exact Nat.succ_le_succ ih
      | false =>
        rw [List.filter_cons_of_neg (by simp [hp])]
        exact Nat.le_trans ih (Nat.le_succ _)

/-- No key comes later than it did. -/
theorem idxOf_firsts_le (k : κ) (l : List ρ) :
    ((firsts key l).map key).idxOf k ≤ (l.map key).idxOf k := by
  induction l with
  | nil => exact Nat.le_refl _
  | cons x l ih =>
    rw [firsts, List.map_cons, List.map_cons]
    by_cases hx : key x = k
    · simp [hx]
    · have hrest : ((firsts key l).filter fun y => key y != key x).map key =
          ((firsts key l).map key).filter fun k => k != key x := by
        rw [List.filter_map]
        rfl
      rw [List.idxOf_cons_ne _ hx, List.idxOf_cons_ne _ hx, hrest]
      refine Nat.succ_le_succ (Nat.le_trans (idxOf_filter_le ?_ _) ih)
      simpa using Ne.symm hx

end QnscKb.Firsts
