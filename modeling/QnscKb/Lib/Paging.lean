import QnscKb.Lib.Where
import Mathlib.Algebra.Group.Nat.Defs
import Mathlib.Data.List.Nodup
import Mathlib.Data.List.Perm.Basic
import Mathlib.Data.List.Sort
import Mathlib.Data.Prod.Lex
import Mathlib.Order.Basic

/-!
# Paging — pages of an answer whose ties come in any order

`ORDER BY key DESC` fixes the order of two rows only where their keys differ.  `Ordered` is what
a database may answer, and `pages` the pages at offsets `0, n, 2n, …`, each cut from an answer of
its own.
-/

namespace QnscKb.Paging
open QnscKb.Where

variable {ρ κ : Type} [LinearOrder κ] (key : ρ → κ)

/-! ### Answers -/

/-- The answers to `ORDER BY key DESC`. -/
structure Ordered (rows out : List ρ) : Prop where
  perm : out.Perm rows
  sorted : out.Pairwise fun a b => key b ≤ key a

/-- A way to answer every query that is ordered so. -/
def Sorts (order : List ρ → List ρ) : Prop := ∀ rows, Ordered key rows (order rows)

/-- One of them. -/
def descending (rows : List ρ) : List ρ :=
  rows.insertionSort fun a b => key b ≤ key a

theorem sorts_descending : Sorts key (descending key) := by
  intro rows
  exact ⟨List.perm_insertionSort _ rows, List.pairwise_insertionSort _ rows⟩

variable {rows out before after : List ρ}

theorem Ordered.unique {out' : List ρ} (hkey : ∀ a ∈ rows, ∀ b ∈ rows, key a = key b → a = b)
    (h : Ordered key rows out) (h' : Ordered key rows out') : out = out' := by
  refine (h.perm.trans h'.perm.symm).eq_of_pairwise ?_ h.sorted h'.sorted
  intro a b ha hb hba hab
  exact hkey a (h.perm.mem_iff.mp ha) b (h'.perm.mem_iff.mp hb) (le_antisymm hab hba)

/-! ### Ranks -/

/-- The rows that come before a row in every answer. -/
def rank (rows : List ρ) (r : ρ) : Nat := rows.countP fun x => key r < key x

/-- The rows that come no later than a row's last tie. -/
def reach (rows : List ρ) (r : ρ) : Nat := rows.countP fun x => key r ≤ key x

/-- No group of ties lies across a border of pages of `n`. -/
def Fits (n : Nat) (rows : List ρ) : Prop :=
  ∀ r ∈ rows, rank key rows r / n = (reach key rows r - 1) / n

instance (n : Nat) (rows : List ρ) : Decidable (Fits key n rows) :=
  inferInstanceAs (Decidable (∀ r ∈ rows, _))

variable {key}

theorem reach_eq (rows : List ρ) (r : ρ) :
    reach key rows r = rank key rows r + rows.countP fun x => key x = key r := by
  induction rows with
  | nil => rfl
  | cons x rows ih =>
    simp only [reach, rank] at ih ⊢
    rcases lt_trichotomy (key r) (key x) with h | h | h
    · simp [h, h.le, h.ne']; omega
    · simp only [h] at ih ⊢
      simp
      omega
    · simp [h.not_ge, h.not_gt, h.ne, ih]

variable {r x y : ρ}

theorem rank_lt_reach (h : r ∈ rows) : rank key rows r < reach key rows r := by
  have hpos : 0 < rows.countP fun x => key x = key r :=
    List.countP_pos_iff.mpr ⟨r, h, by simp⟩
  rw [reach_eq]
  omega

theorem Ordered.bounds (h : Ordered key rows (before ++ r :: after)) :
    rank key rows r ≤ before.length ∧ before.length < reach key rows r := by
  have hsorted := h.sorted
  rw [List.pairwise_append, List.pairwise_cons] at hsorted
  obtain ⟨-, ⟨hafter, -⟩, hbefore⟩ := hsorted
  rw [rank, reach, ← h.perm.countP_eq, ← h.perm.countP_eq]
  simp only [List.countP_append, List.countP_cons, lt_self_iff_false, le_refl, decide_true,
    decide_false, if_true]
  constructor
  · have hrest : after.countP (fun x => decide (key r < key x)) = 0 :=
      List.countP_eq_zero.mpr fun x hx => by simpa using hafter x hx
    have := List.countP_le_length (p := fun x => decide (key r < key x)) (l := before)
    simp only [hrest]
    simpa using this
  · have hfirst : before.countP (fun x => decide (key r ≤ key x)) = before.length :=
      List.countP_eq_length.mpr fun x hx => by
        simpa using hbefore x hx r List.mem_cons_self
    omega

variable {p n m : Nat}

theorem Ordered.position (h : Ordered key rows out) (hp : p < out.length) :
    rank key rows out[p] ≤ p ∧ p < reach key rows out[p] := by
  have hsplit : out.take p ++ out[p] :: out.drop (p + 1) = out := by
    rw [← List.drop_eq_getElem_cons hp, List.take_append_drop]
  have hlength : (out.take p).length = p := List.length_take_of_le hp.le
  have hout : Ordered key rows (out.take p ++ out[p] :: out.drop (p + 1)) := by
    rw [hsplit]
    exact h
  obtain ⟨hrank, hreach⟩ := hout.bounds
  rw [hlength] at hrank hreach
  exact ⟨hrank, hreach⟩

theorem reach_le_rank (rows : List ρ) (h : key r < key x) : reach key rows x ≤ rank key rows r :=
  List.countP_mono_left fun y _ hy => by
    simp only [decide_eq_true_eq] at hy ⊢
    exact h.trans_le hy

theorem Ordered.key_eq (h : Ordered key rows out) (hp : p < out.length)
    (hrank : rank key rows r ≤ p) (hreach : p < reach key rows r) : key out[p] = key r := by
  obtain ⟨hlow, hhigh⟩ := h.position hp
  rcases lt_trichotomy (key out[p]) (key r) with hlt | heq | hgt
  · have := reach_le_rank rows hlt
    omega
  · exact heq
  · have := reach_le_rank rows hgt
    omega

theorem Fits.position (hf : Fits key n rows) (h : Ordered key rows out) (hp : p < out.length) :
    rank key rows out[p] / n = p / n := by
  obtain ⟨hrank, hreach⟩ := h.position hp
  have hmem : out[p] ∈ rows := h.perm.mem_iff.mp (List.getElem_mem hp)
  refine le_antisymm (Nat.div_le_div_right hrank) ?_
  rw [hf _ hmem]
  exact Nat.div_le_div_right (by omega)

/-- Where no two rows share a key, one order fits. -/
theorem fits_of_injective (hnodup : rows.Nodup)
    (hkey : ∀ a ∈ rows, ∀ b ∈ rows, key a = key b → a = b) : Fits key n rows := by
  classical
  intro r hr
  have hone : rows.countP (fun x => decide (key x = key r)) = 1 := by
    rw [← List.count_eq_one_of_mem hnodup hr]
    refine List.countP_congr fun x hx => ?_
    simp only [decide_eq_true_eq, beq_iff_eq]
    exact ⟨fun h => hkey x hx r hr h, fun h => h ▸ rfl⟩
  rw [reach_eq, hone, Nat.add_sub_cancel]

/-! ### Pages -/

/-- The pages at offsets `0, n, …, (K - 1) n`, each cut from its own answer. -/
def pages (n K : Nat) (outs : Nat → List ρ) : List ρ :=
  (List.range K).flatMap fun k => page n (k * n) (outs k)

theorem page_eq_filter {k : Nat} (hn : 0 < n) {q : ρ → Nat}
    (hq : ∀ p (hp : p < out.length), q out[p] = p / n) :
    page n (k * n) out = out.filter fun r => q r = k := by
  have hfirst : (out.take (k * n)).filter (fun r => decide (q r = k)) = [] := by
    refine List.filter_eq_nil_iff.mpr fun r hr => ?_
    obtain ⟨p, hp, rfl⟩ := List.mem_iff_getElem.mp hr
    have hlt : p < k * n ∧ p < out.length := by simpa using hp
    simp only [List.getElem_take, hq p hlt.2, decide_eq_true_eq]
    exact (Nat.div_lt_of_lt_mul (by rw [Nat.mul_comm]; exact hlt.1)).ne
  have hmiddle : ((out.drop (k * n)).take n).filter (fun r => decide (q r = k)) =
      (out.drop (k * n)).take n := by
    refine List.filter_eq_self.mpr fun r hr => ?_
    obtain ⟨p, hp, rfl⟩ := List.mem_iff_getElem.mp hr
    have hlt : p < n ∧ k * n + p < out.length := by
      simp only [List.length_take, List.length_drop] at hp
      omega
    simp only [List.getElem_take, List.getElem_drop, hq _ hlt.2, decide_eq_true_eq]
    rw [Nat.mul_comm, Nat.mul_add_div hn, Nat.div_eq_of_lt hlt.1, Nat.add_zero]
  have hlast : ((out.drop (k * n)).drop n).filter (fun r => decide (q r = k)) = [] := by
    refine List.filter_eq_nil_iff.mpr fun r hr => ?_
    obtain ⟨p, hp, rfl⟩ := List.mem_iff_getElem.mp hr
    simp only [List.getElem_drop, List.length_drop] at hp ⊢
    rw [hq _ (by omega)]
    simp only [decide_eq_true_eq]
    have : k + 1 ≤ (k * n + (n + p)) / n := by
      rw [Nat.le_div_iff_mul_le hn, Nat.add_one_mul]
      omega
    omega
  conv_rhs =>
    rw [← List.take_append_drop (k * n) out, ← List.take_append_drop n (out.drop (k * n))]
  rw [List.filter_append, List.filter_append, hfirst, hmiddle, hlast, List.nil_append,
    List.append_nil, page]

/-- **A page** is the rows whose rank falls on it. -/
theorem Ordered.page_eq {k : Nat} (hn : 0 < n) (hf : Fits key n rows) (h : Ordered key rows out) :
    page n (k * n) out = out.filter fun r => rank key rows r / n = k :=
  page_eq_filter hn fun _ hp => hf.position h hp

theorem flatMap_classes (q : ρ → Nat) (rows : List ρ) (K : Nat) :
    ((List.range K).flatMap fun k => rows.filter fun r => q r = k).Perm
      (rows.filter fun r => q r < K) := by
  induction K with
  | zero => simp
  | succ K ih =>
    have hsplit : (rows.filter fun r => decide (q r < K + 1)).Perm
        ((rows.filter fun r => decide (q r < K)) ++ rows.filter fun r => decide (q r = K)) := by
      have h := List.filter_append_perm (fun r => decide (q r < K))
        (rows.filter fun r => decide (q r < K + 1))
      simp only [List.filter_filter] at h
      refine h.symm.trans (List.Perm.of_eq ?_)
      congr 1
      · exact List.filter_congr fun r _ => by
          by_cases hr : q r < K
          · simp [hr, hr.trans (Nat.lt_succ_self K)]
          · simp [hr]
      · exact List.filter_congr fun r _ => by
          rcases lt_trichotomy (q r) K with hr | hr | hr
          · simp [hr, hr.ne]
          · simp [hr]
          · simp [hr.ne', Nat.not_lt.mpr hr]
    rw [List.range_succ, List.flatMap_append]
    simp only [List.flatMap_cons, List.flatMap_nil, List.append_nil]
    exact (ih.append_right _).trans hsplit.symm

theorem pages_perm_of_fits {K : Nat} (hn : 0 < n) {outs : Nat → List ρ} (hf : Fits key n rows)
    (houts : ∀ k, Ordered key rows (outs k)) (hK : rows.length ≤ K * n) :
    (pages n K outs).Perm rows := by
  have hlast : (rows.filter fun r => decide (rank key rows r / n < K)) = rows := by
    refine List.filter_eq_self.mpr fun r hr => decide_eq_true ?_
    refine Nat.div_lt_of_lt_mul ?_
    have : reach key rows r ≤ rows.length := List.countP_le_length
    have : rank key rows r < reach key rows r := rank_lt_reach hr
    rw [Nat.mul_comm]
    omega
  have hpages : (pages n K outs).Perm
      ((List.range K).flatMap fun k => rows.filter fun r => rank key rows r / n = k) := by
    refine List.Perm.flatMap_left _ fun k _ => ?_
    rw [(houts k).page_eq hn hf]
    exact (houts k).perm.filter _
  exact hpages.trans ((flatMap_classes _ rows K).trans (List.Perm.of_eq hlast))

/-! ### Exactness -/

/-- Whatever the answers, the pages are every row once. -/
def Exact (key : ρ → κ) (n : Nat) (rows : List ρ) : Prop :=
  ∀ orders : Nat → List ρ → List ρ, (∀ k, Sorts key (orders k)) →
    ∀ K, rows.length ≤ K * n → (pages n K fun k => orders k rows).Perm rows

theorem Ordered.swap (hxy : key x = key y) (h : Ordered key rows (before ++ x :: y :: after)) :
    Ordered key rows (before ++ y :: x :: after) where
  perm := ((List.Perm.swap x y after).append_left before).trans h.perm
  sorted := by
    have hsorted := h.sorted
    simp only [List.pairwise_append, List.pairwise_cons, List.mem_cons] at hsorted ⊢
    obtain ⟨hbefore, ⟨hx, hy, hafter⟩, hcross⟩ := hsorted
    refine ⟨hbefore, ⟨?_, fun b hb => hx b (.inr hb), hafter⟩, ?_⟩
    · rintro b (rfl | hb)
      · exact hxy.le
      · exact hy b hb
    · rintro a ha b (rfl | rfl | hb)
      · exact hcross a ha _ (.inr (.inl rfl))
      · exact hcross a ha _ (.inl rfl)
      · exact hcross a ha b (.inr (.inr hb))

theorem Ordered.exists_border (hn : 0 < n) (h : Ordered key rows out) (hr : r ∈ rows)
    (hne : rank key rows r / n ≠ (reach key rows r - 1) / n) :
    ∃ m before x y after, out = before ++ x :: y :: after ∧ before.length + 1 = (m + 1) * n ∧
      key x = key y := by
  have hlt : rank key rows r < reach key rows r := rank_lt_reach hr
  have hlength : reach key rows r ≤ out.length := by
    rw [h.perm.length_eq]
    exact List.countP_le_length
  have hpages : rank key rows r / n < (reach key rows r - 1) / n :=
    lt_of_le_of_ne (Nat.div_le_div_right (by omega)) hne
  -- the border after the page of the first tie
  obtain ⟨b, hb⟩ : ∃ b, b + 1 = (rank key rows r / n + 1) * n :=
    Nat.exists_eq_add_one.mpr (Nat.mul_pos (Nat.succ_pos _) hn) |>.imp fun _ => Eq.symm
  have hlow : rank key rows r < b + 1 := by
    rw [hb]
    exact Nat.lt_mul_of_div_lt (Nat.lt_succ_self _) hn
  have hhigh : b + 1 ≤ reach key rows r - 1 := by
    rw [hb]
    exact (Nat.le_div_iff_mul_le hn).mp hpages
  have hb₁ : b + 1 < out.length := by omega
  refine ⟨rank key rows r / n, out.take b, out[b], out[b + 1], out.drop (b + 2), ?_, ?_, ?_⟩
  · rw [← List.drop_eq_getElem_cons hb₁, ← List.drop_eq_getElem_cons, List.take_append_drop]
  · rw [List.length_take_of_le (by omega), hb]
  · rw [h.key_eq (by omega) (r := r) (by omega) (by omega),
      h.key_eq hb₁ (r := r) (by omega) (by omega)]

theorem mem_page_last {rest : List ρ} (hn : 0 < n) (h : before.length + 1 = (m + 1) * n) :
    x ∈ page n (m * n) (before ++ x :: rest) := by
  rw [Nat.add_one_mul] at h
  have hdrop : (before ++ x :: rest).drop (m * n) = before.drop (m * n) ++ x :: rest :=
    List.drop_append_of_le_length (by omega)
  rw [page, hdrop, List.take_append, List.length_drop]
  obtain ⟨k, hk⟩ : ∃ k, n - (before.length - m * n) = k + 1 :=
    Nat.exists_eq_add_one.mpr (by omega)
  rw [hk]
  exact List.mem_append_right _ List.mem_cons_self

theorem mem_page_first {rest : List ρ} (hn : 0 < n) (h : before.length + 1 = (m + 1) * n) :
    x ∈ page n ((m + 1) * n) (before ++ y :: x :: rest) := by
  have hdrop : (before ++ y :: x :: rest).drop ((m + 1) * n) = x :: rest := by
    rw [← h, List.append_cons, List.drop_left' (by simp)]
  obtain ⟨k, rfl⟩ := Nat.exists_eq_succ_of_ne_zero hn.ne'
  rw [page, hdrop]
  exact List.mem_cons_self

theorem not_exact_of_border (hn : 0 < n) (hnodup : rows.Nodup)
    (h : Ordered key rows (before ++ x :: y :: after)) (hborder : before.length + 1 = (m + 1) * n)
    (hxy : key x = key y) : ¬ Exact key n rows := by
  classical
  intro hexact
  let other : Nat → List ρ := fun k =>
    if k = m then before ++ x :: y :: after else before ++ y :: x :: after
  let orders : Nat → List ρ → List ρ := fun k out =>
    if out = rows then other k else descending key out
  have horders : ∀ k, Sorts key (orders k) := by
    intro k out
    by_cases hout : out = rows
    · by_cases hk : k = m
      · simpa [orders, other, hout, hk] using h
      · simpa [orders, other, hout, hk] using h.swap hxy
    · simpa [orders, hout] using sorts_descending key out
  have hK : rows.length ≤ (rows.length + m + 2) * n :=
    le_trans (by omega) (Nat.le_mul_of_pos_right (rows.length + m + 2) hn)
  have hperm := hexact orders horders (rows.length + m + 2) hK
  have hpages : (pages n (rows.length + m + 2) fun k => orders k rows).Nodup :=
    hperm.nodup_iff.mpr hnodup
  rw [pages, List.nodup_flatMap] at hpages
  have hdisjoint := List.pairwise_iff_getElem.mp hpages.2 m (m + 1)
    (by rw [List.length_range]; omega) (by rw [List.length_range]; omega) (Nat.lt_succ_self m)
  refine hdisjoint (a := x) ?_ ?_
  · simpa [orders, other] using mem_page_last hn hborder
  · simpa [orders, other] using mem_page_first hn hborder

/-- **Paging by offset** is exact exactly where no group of ties lies across a border. -/
theorem exact_iff (hn : 0 < n) (hnodup : rows.Nodup) : Exact key n rows ↔ Fits key n rows := by
  constructor
  · intro hexact r hr
    by_contra hne
    obtain ⟨m, before, x, y, after, hout, hborder, hxy⟩ :=
      (sorts_descending key rows).exists_border hn hr hne
    have hordered := sorts_descending key rows
    rw [hout] at hordered
    exact not_exact_of_border hn hnodup hordered hborder hxy hexact
  · intro hf orders horders K hK
    exact pages_perm_of_fits hn hf (fun k => horders k rows) hK

end QnscKb.Paging
