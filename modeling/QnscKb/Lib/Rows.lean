import Mathlib.Data.List.Nodup

/-!
# Rows — a table by its key

`Rows.get key k rows` is the row of a key, and `Rows.update p f rows` the table after
`UPDATE … SET f WHERE p`.
-/

namespace QnscKb.Rows

variable {ρ κ : Type} [DecidableEq κ] (key : ρ → κ)

/-- `SELECT … WHERE key = k`. -/
def get (k : κ) (rows : List ρ) : Option ρ :=
  rows.find? fun row => key row == k

/-- `UPDATE … SET f WHERE p`. -/
def update (p : ρ → Bool) (f : ρ → ρ) (rows : List ρ) : List ρ :=
  rows.map fun row => if p row then f row else row

variable {key}

variable {k : κ} {rows : List ρ}

variable {row : ρ}

theorem key_of_get (h : get key k rows = some row) : key row = k := by
  simpa using List.find?_some h

theorem mem_of_get (h : get key k rows = some row) : row ∈ rows :=
  List.mem_of_find?_eq_some h

variable {p : ρ → Bool} {f : ρ → ρ}

/-- An update that leaves the keys alone, at the row of a key. -/
theorem get_update (hkey : ∀ row, key (f row) = key row) (rows : List ρ) :
    get key k (update p f rows) =
      (get key k rows).map fun row => if p row then f row else row := by
  induction rows with
  | nil => rfl
  | cons row rows ih =>
    have hsame : key (if p row then f row else row) = key row := by
      split
      · exact hkey row
      · rfl
    by_cases hk : key row = k
    · rw [get, get, update, List.map_cons, List.find?_cons_of_pos (by simp [hsame, hk]),
        List.find?_cons_of_pos (by simp [hk]), Option.map_some]
    · rw [get, get, update, List.map_cons, List.find?_cons_of_neg (by simp [hsame, hk]),
        List.find?_cons_of_neg (by simp [hk])]
      exact ih

theorem get_append (k : κ) (rows more : List ρ) :
    get key k (rows ++ more) = (get key k rows).or (get key k more) :=
  List.find?_append

theorem mem_update : row ∈ update p f rows ↔ ∃ old ∈ rows, row = if p old then f old else old := by
  simp only [update, List.mem_map]
  exact exists_congr fun old => and_congr_right fun _ => eq_comm

theorem map_update {α : Type} {g : ρ → α} (h : ∀ row ∈ rows, p row = true → g (f row) = g row) :
    (update p f rows).map g = rows.map g := by
  rw [update, List.map_map]
  refine List.map_congr_left fun row hrow => ?_
  rw [Function.comp_apply]
  split
  · exact h row hrow ‹_›
  · rfl

theorem nodup_update {α : Type} {g : ρ → α} (hkeys : (rows.map key).Nodup) (hg : (rows.map g).Nodup)
    (hnew : ∀ row ∈ rows, key row = k → ∀ other ∈ rows, key other ≠ k → g other ≠ g (f row)) :
    ((update (fun row => key row == k) f rows).map g).Nodup := by
  rw [List.Nodup, List.pairwise_map] at hkeys hg
  rw [List.Nodup, update, List.map_map, List.pairwise_map]
  refine (hkeys.and hg).imp_of_mem ?_
  rintro a b ha hb ⟨hkey, hval⟩
  simp only [Function.comp_apply, beq_iff_eq]
  by_cases hak : key a = k
  · have hbk : key b ≠ k := fun h => hkey (hak.trans h.symm)
    rw [if_pos hak, if_neg hbk]
    exact (hnew a ha hak b hb hbk).symm
  · rw [if_neg hak]
    split
    · exact hnew b hb ‹_› a ha hak
    · exact hval

theorem update_key (hkeys : (rows.map key).Nodup) (hget : get key k rows = some row) :
    update (fun r => key r == k) f rows = update (fun r => key r == k) (fun _ => f row) rows := by
  refine List.map_congr_left fun r hr => ?_
  by_cases hk : key r = k
  · have hrow : r = row :=
      List.inj_on_of_nodup_map hkeys hr (mem_of_get hget) (hk.trans (key_of_get hget).symm)
    rw [hrow]
  · simp [hk]

theorem update_absent (h : ∀ row ∈ rows, key row ≠ k) :
    update (fun row => key row == k) f rows = rows :=
  (List.map_congr_left fun row hrow => if_neg (mt beq_iff_eq.mp (h row hrow))).trans
    (List.map_id' rows)

theorem filter_key (hkeys : (rows.map key).Nodup) (hrow : row ∈ rows) (hkey : key row = k) :
    (rows.filter fun r => key r == k) = [row] := by
  induction rows with
  | nil => cases hrow
  | cons r rows ih =>
    rw [List.map_cons, List.nodup_cons] at hkeys
    rcases List.mem_cons.mp hrow with rfl | hrow
    · have hnone : (rows.filter fun r => key r == k) = [] :=
        List.filter_eq_nil_iff.mpr fun r hr heq => hkeys.1
          (hkey ▸ beq_iff_eq.mp heq ▸ List.mem_map_of_mem hr)
      rw [List.filter_cons, if_pos (beq_iff_eq.mpr hkey), hnone]
    · have hne : key r ≠ k := fun heq =>
      hkeys.1 (heq ▸ hkey ▸ List.mem_map_of_mem hrow)
      rw [List.filter_cons, if_neg (mt beq_iff_eq.mp hne), ih hkeys.2 hrow]

/-- Rows written one after another. -/
theorem foldl_write {written : List ρ} (hkeys : (written.map key).Nodup) :
    written.foldl (fun rows row => update (fun r => key r == key row) (fun _ => row) rows) rows =
      rows.map fun r => (get key (key r) written).getD r := by
  induction written generalizing rows with
  | nil => simp [get]
  | cons row written ih =>
    rw [List.map_cons, List.nodup_cons] at hkeys
    rw [List.foldl_cons, ih hkeys.2, update, List.map_map]
    refine List.map_congr_left fun r _ => ?_
    rw [Function.comp_apply]
    by_cases hr : key r = key row
    · have hnone : get key (key row) written = none :=
        List.find?_eq_none.mpr fun other hother heq =>
          hkeys.1 (beq_iff_eq.mp heq ▸ List.mem_map_of_mem hother)
      rw [if_pos (beq_iff_eq.mpr hr), hnone, hr, get, List.find?_cons_of_pos (by simp)]
      rfl
    · rw [if_neg (mt beq_iff_eq.mp hr), get, get,
        List.find?_cons_of_neg (by simpa using Ne.symm hr)]

/-! ### Numbered rows -/

/-- Keys given out one after another, so that the next one is free. -/
structure Supplied (key : ρ → Nat) (rows : List ρ) (next : Nat) : Prop where
  nodup : (rows.map key).Nodup
  below : ∀ row ∈ rows, key row < next

namespace Supplied

variable {key : ρ → Nat} {rows rows' : List ρ} {next next' : Nat}

theorem of_map_eq (h : Supplied key rows next) (heq : rows'.map key = rows.map key)
    (hle : next ≤ next') : Supplied key rows' next' where
  nodup := heq ▸ h.nodup
  below row hrow := by
    have hmem : key row ∈ rows.map key := heq ▸ List.mem_map_of_mem hrow
    obtain ⟨old, hold, hkey⟩ := List.mem_map.mp hmem
    exact hkey ▸ Nat.lt_of_lt_of_le (h.below old hold) hle

theorem append (h : Supplied key rows next) {row : ρ} (hrow : key row = next) :
    Supplied key (rows ++ [row]) (next + 1) where
  nodup := by
    rw [List.map_append, List.nodup_append]
    refine ⟨h.nodup, List.nodup_singleton _, fun a ha b hb heq => ?_⟩
    obtain ⟨old, hold, rfl⟩ := List.mem_map.mp ha
    rw [List.map_singleton, List.mem_singleton, hrow] at hb
    exact absurd (heq.trans hb) (Nat.ne_of_lt (h.below old hold))
  below r hr := by
    rcases List.mem_append.mp hr with hr | hr
    · exact Nat.lt_succ_of_lt (h.below r hr)
    · rw [List.mem_singleton.mp hr, hrow]
      exact Nat.lt_succ_self next

theorem get_mem (h : Supplied key rows next) {row : ρ} (hrow : row ∈ rows) :
    get key (key row) rows = some row := by
  cases hget : get key (key row) rows with
  | none =>
    have hne := List.find?_eq_none.mp hget row hrow
    exact absurd (beq_self_eq_true _) hne
  | some found =>
    rw [List.inj_on_of_nodup_map h.nodup (mem_of_get hget) hrow (key_of_get hget)]

theorem filter (h : Supplied key rows next) (p : ρ → Bool) :
    Supplied key (rows.filter p) next where
  nodup := h.nodup.sublist (List.filter_sublist.map key)
  below row hrow := h.below row (List.mem_of_mem_filter hrow)

theorem get_append_new (h : Supplied key rows next) {row : ρ} (hrow : key row = next) :
    get key next (rows ++ [row]) = some row := by
  have hnone : get key next rows = none := by
    refine List.find?_eq_none.mpr fun old hold => ?_
    simpa using Nat.ne_of_lt (h.below old hold)
  rw [get_append, hnone, Option.none_or, get, List.find?_cons_of_pos (by simp [hrow])]

end Supplied

/-! ### Marks -/

/-- Whether the row of a key carries a mark; `none` where there is no such row. -/
def marked (key : ρ → κ) (mark : ρ → Bool) (k : κ) (rows : List ρ) : Option Bool :=
  (get key k rows).map mark

/-- No row is lost, and no mark is taken off. -/
def Keeps (key : ρ → κ) (mark : ρ → Bool) (rows rows' : List ρ) : Prop :=
  ∀ k b, marked key mark k rows = some b →
    ∃ b', marked key mark k rows' = some b' ∧ (b = true → b' = true)

variable {mark : ρ → Bool}

namespace Keeps

theorem refl (rows : List ρ) : Keeps key mark rows rows :=
  fun _ b h => ⟨b, h, id⟩

theorem trans {a b c : List ρ} (hab : Keeps key mark a b) (hbc : Keeps key mark b c) :
    Keeps key mark a c := by
  intro k x hx
  obtain ⟨y, hy, hxy⟩ := hab k x hx
  obtain ⟨z, hz, hyz⟩ := hbc k y hy
  exact ⟨z, hz, hyz ∘ hxy⟩

theorem update {p : ρ → Bool} {f : ρ → ρ} (hkey : ∀ row, key (f row) = key row)
    (hmark : ∀ row, mark row = true → mark (f row) = true) (rows : List ρ) :
    Keeps key mark rows (update p f rows) := by
  intro k b h
  obtain ⟨row, hget, rfl⟩ := Option.map_eq_some_iff.mp h
  refine ⟨mark (if p row then f row else row), ?_, ?_⟩
  · rw [marked, get_update hkey, hget, Option.map_some, Option.map_some]
  · intro hrow
    split
    · exact hmark row hrow
    · exact hrow

theorem append (rows more : List ρ) : Keeps key mark rows (rows ++ more) := by
  intro k b h
  obtain ⟨row, hget, rfl⟩ := Option.map_eq_some_iff.mp h
  exact ⟨mark row, by rw [marked, get_append, hget, Option.some_or, Option.map_some], id⟩

end Keeps

theorem marked_update_self (hkey : ∀ row, key (f row) = key row)
    (hmark : ∀ row, mark (f row) = true) (hp : ∀ row, key row = k → p row = true) {b : Bool}
    (h : marked key mark k rows = some b) : marked key mark k (update p f rows) = some true := by
  obtain ⟨row, hget, -⟩ := Option.map_eq_some_iff.mp h
  rw [marked, get_update hkey, hget, Option.map_some, Option.map_some,
    if_pos (hp row (key_of_get hget)),
    hmark row]

end QnscKb.Rows
