import Mathlib.Data.List.Basic
import Mathlib.Order.Monotone.Basic
import Mathlib.Logic.Function.Iterate

/-!
# Foreign keys — what a deletion takes along

Rows of several tables that refer to one another by foreign keys with their `ON DELETE` rules.
`delete` is `DELETE FROM … WHERE hit`: what a cascading key refers to a deleted row from is deleted
too, and the other references to deleted rows are set to null.
-/

namespace QnscKb.ForeignKeys

inductive Rule
  | cascade | setNull
  deriving DecidableEq

/-- A foreign key, declared on a column of a table. -/
structure Key (T C : Type) where
  table : T
  column : C
  target : T
  rule : Rule

/-- A row, with its references that are not null. -/
structure Row (T C K D : Type) where
  table : T
  key : K
  refs : List (C × K)
  data : D
  deriving DecidableEq

variable {T C K D : Type} [DecidableEq T] [DecidableEq C] [DecidableEq K]

def Key.joins (fk : Key T C) (row other : Row T C K D) : Bool :=
  fk.table == row.table && fk.target == other.table && row.refs.contains (fk.column, other.key)

/-- The row goes with one that is doomed. -/
def follows (keys : List (Key T C)) (doomed : List (Row T C K D)) (row : Row T C K D) : Bool :=
  keys.any fun fk => fk.rule == .cascade && doomed.any (fk.joins row)

def grow [DecidableEq D] (keys : List (Key T C)) (db doomed : List (Row T C K D)) :
    List (Row T C K D) :=
  db.filter fun row => doomed.contains row || follows keys doomed row

/-- The rows that a deletion takes along; no cascade needs more rounds than there are rows. -/
def doomed [DecidableEq D] (keys : List (Key T C)) (hit : Row T C K D → Bool)
    (db : List (Row T C K D)) : List (Row T C K D) :=
  (grow keys db)^[db.length] (db.filter hit)

/-- A reference of a table's row to one of the rows. -/
def refersTo (keys : List (Key T C)) (rows : List (Row T C K D)) (table : T) (ref : C × K) : Bool :=
  keys.any fun fk => fk.table == table && fk.column == ref.1 &&
    rows.any fun other => fk.target == other.table && other.key == ref.2

/-- The row without its references to the rows. -/
def unlink (keys : List (Key T C)) (rows : List (Row T C K D)) (row : Row T C K D) : Row T C K D :=
  { row with refs := row.refs.filter fun ref => !refersTo keys rows row.table ref }

/-- `DELETE FROM … WHERE hit`. -/
def delete [DecidableEq D] (keys : List (Key T C)) (hit : Row T C K D → Bool)
    (db : List (Row T C K D)) : List (Row T C K D) :=
  (db.filter fun row => !(doomed keys hit db).contains row).map (unlink keys (doomed keys hit db))

variable {keys : List (Key T C)} {hit : Row T C K D → Bool} {db : List (Row T C K D)}
  {row other : Row T C K D}

theorem joins_iff {fk : Key T C} : fk.joins row other = true ↔
    fk.table = row.table ∧ fk.target = other.table ∧ (fk.column, other.key) ∈ row.refs := by
  simp only [Key.joins, Bool.and_eq_true, beq_iff_eq, List.contains_iff_mem, and_assoc]

theorem follows_iff {rows : List (Row T C K D)} : follows keys rows row = true ↔
    ∃ fk ∈ keys, fk.rule = .cascade ∧ ∃ other ∈ rows, fk.joins row other = true := by
  simp only [follows, List.any_eq_true, Bool.and_eq_true, beq_iff_eq]

theorem refersTo_iff {rows : List (Row T C K D)} {table : T} {ref : C × K} :
    refersTo keys rows table ref = true ↔ ∃ fk ∈ keys, (fk.table = table ∧ fk.column = ref.1) ∧
      ∃ other ∈ rows, fk.target = other.table ∧ other.key = ref.2 := by
  simp only [refersTo, List.any_eq_true, Bool.and_eq_true, beq_iff_eq]

theorem mem_unlink {rows : List (Row T C K D)} {ref : C × K} :
    ref ∈ (unlink keys rows row).refs ↔
      ref ∈ row.refs ∧ refersTo keys rows row.table ref = false := by
  rw [unlink, List.mem_filter, Bool.not_eq_true']

theorem unlink_eq_self {rows : List (Row T C K D)}
    (h : ∀ fk ∈ keys, ∀ other ∈ rows, ¬ fk.joins row other = true) :
    unlink keys rows row = row := by
  have hrefs : (row.refs.filter fun ref => !refersTo keys rows row.table ref) = row.refs := by
    refine List.filter_eq_self.mpr fun ref href => ?_
    rw [Bool.not_eq_true', ← Bool.not_eq_true, refersTo_iff]
    rintro ⟨fk, hfk, ⟨htable, hcolumn⟩, other, hother, htarget, hkey⟩
    refine h fk hfk other hother (joins_iff.mpr ⟨htable, htarget, ?_⟩)
    rw [hcolumn, hkey]
    exact href
  rw [unlink, hrefs]

/-! ### The cascade -/

variable [DecidableEq D]

/-- A row that a deletion takes along. -/
inductive Doomed (keys : List (Key T C)) (hit : Row T C K D → Bool) (db : List (Row T C K D)) :
    Row T C K D → Prop
  | hit {row : Row T C K D} : row ∈ db → hit row = true → Doomed keys hit db row
  | cascade {row other : Row T C K D} {fk : Key T C} : row ∈ db → fk ∈ keys → fk.rule = .cascade →
      fk.joins row other = true → Doomed keys hit db other → Doomed keys hit db row

theorem mem_grow {rows : List (Row T C K D)} : row ∈ grow keys db rows ↔
    row ∈ db ∧ (row ∈ rows ∨ follows keys rows row = true) := by
  rw [grow, List.mem_filter, Bool.or_eq_true, List.contains_iff_mem]

theorem filter_sublist_grow (p : Row T C K D → Bool) :
    List.Sublist (db.filter p) (grow keys db (db.filter p)) := by
  have h : db.filter p = db.filter fun row => p row && (db.filter p).contains row := by
    refine List.filter_congr fun row hrow => ?_
    cases hp : p row with
    | false => rfl
    | true =>
      exact (List.contains_iff_mem.mpr (List.mem_filter.mpr ⟨hrow, hp⟩)).symm
  rw [h]
  refine List.monotone_filter_right db fun row hrow => ?_
  rw [← h]
  rw [(Bool.and_eq_true_iff.mp hrow).2, Bool.true_or]

theorem round_eq_filter (keys : List (Key T C)) (db : List (Row T C K D))
    (hit : Row T C K D → Bool) (n : ℕ) :
    ∃ p, (grow keys db)^[n] (db.filter hit) = db.filter p := by
  cases n with
  | zero => exact ⟨hit, rfl⟩
  | succ n => exact ⟨_, Function.iterate_succ_apply' (grow keys db) n (db.filter hit)⟩

theorem round_sublist (keys : List (Key T C)) (db : List (Row T C K D))
    (hit : Row T C K D → Bool) (n : ℕ) :
    List.Sublist ((grow keys db)^[n] (db.filter hit)) ((grow keys db)^[n + 1] (db.filter hit)) := by
  obtain ⟨p, hp⟩ := round_eq_filter keys db hit n
  rw [Function.iterate_succ_apply', hp]
  exact filter_sublist_grow p

theorem grow_doomed (keys : List (Key T C)) (hit : Row T C K D → Bool) (db : List (Row T C K D)) :
    grow keys db (doomed keys hit db) = doomed keys hit db := by
  have hstep := round_sublist keys db hit
  have hlen : ∀ m, ((grow keys db)^[m] (db.filter hit)).length =
      ((grow keys db)^[m + 1] (db.filter hit)).length →
      ((grow keys db)^[m + 1] (db.filter hit)).length =
        ((grow keys db)^[m + 2] (db.filter hit)).length := by
    intro m h
    have heq := (hstep m).eq_of_length h
    have hnext := congrArg (grow keys db) heq
    rw [← Function.iterate_succ_apply' (grow keys db),
      ← Function.iterate_succ_apply' (grow keys db)] at hnext
    exact congrArg List.length hnext
  have hbound : ∀ m, ((grow keys db)^[m] (db.filter hit)).length ≤ db.length := by
    intro m
    obtain ⟨p, hp⟩ := round_eq_filter keys db hit m
    rw [hp]
    exact List.length_filter_le p db
  have hstable := Nat.stabilises_of_monotone (monotone_nat_of_le_succ fun m => (hstep m).length_le)
    hbound hlen (Nat.le_succ db.length)
  have heq := (hstep db.length).eq_of_length hstable.symm
  rw [doomed, ← Function.iterate_succ_apply' (grow keys db), ← heq]

/-- **The rows that go** are those from which cascading keys lead to a hit. -/
theorem mem_doomed : row ∈ doomed keys hit db ↔ Doomed keys hit db row := by
  constructor
  · have hround : ∀ n, ∀ row ∈ (grow keys db)^[n] (db.filter hit), Doomed keys hit db row := by
      intro n
      induction n with
      | zero =>
        intro row hrow
        exact Doomed.hit (List.mem_filter.mp hrow).1 (List.mem_filter.mp hrow).2
      | succ n ih =>
        intro row hrow
        rw [Function.iterate_succ_apply'] at hrow
        obtain ⟨hmem, hold | hnew⟩ := mem_grow.mp hrow
        · exact ih row hold
        · obtain ⟨fk, hfk, hrule, other, hother, hjoins⟩ := follows_iff.mp hnew
          exact Doomed.cascade hmem hfk hrule hjoins (ih other hother)
    exact hround db.length row
  · intro h
    induction h with
    | hit hmem hhit =>
      have hsub : ∀ n, List.Sublist (db.filter hit) ((grow keys db)^[n] (db.filter hit)) := by
        intro n
        induction n with
        | zero => exact List.Sublist.refl _
        | succ n ih => exact ih.trans (round_sublist keys db hit n)
      exact (hsub db.length).subset (List.mem_filter.mpr ⟨hmem, hhit⟩)
    | cascade hmem hfk hrule hjoins _ ih =>
      rw [← grow_doomed]
      exact mem_grow.mpr ⟨hmem, Or.inr (follows_iff.mpr ⟨_, hfk, hrule, _, ih, hjoins⟩)⟩

theorem mem_delete : row ∈ delete keys hit db ↔
    ∃ old ∈ db, ¬ Doomed keys hit db old ∧ unlink keys (doomed keys hit db) old = row := by
  simp only [delete, List.mem_map, List.mem_filter, Bool.not_eq_true', and_assoc,
    ← Bool.not_eq_true, List.contains_iff_mem, mem_doomed]

/-! ### The tables out of reach -/

/-- A column of the table refers to a table inside. -/
def leadsInto (keys : List (Key T C)) (inside : T → Bool) (table : T) (column : C) : Bool :=
  keys.any fun fk => fk.table == table && fk.column == column && inside fk.target

/-- The row without its references to the tables inside. -/
def strip (keys : List (Key T C)) (inside : T → Bool) (row : Row T C K D) : Row T C K D :=
  { row with refs := row.refs.filter fun ref => !leadsInto keys inside row.table ref.1 }

/-- What is seen of the tables outside, without their references to the tables inside. -/
def view (keys : List (Key T C)) (inside : T → Bool) (db : List (Row T C K D)) :
    List (Row T C K D) :=
  (db.filter fun row => !inside row.table).map (strip keys inside)

/-- No cascade leads out of the tables. -/
def closed (keys : List (Key T C)) (inside : T → Bool) : Bool :=
  keys.all fun fk => !(fk.rule == .cascade && inside fk.target) || inside fk.table

omit [DecidableEq D] in
theorem Doomed.inside {inside : T → Bool} (hclosed : closed keys inside = true)
    (hhit : ∀ row ∈ db, hit row = true → inside row.table = true)
    (h : Doomed keys hit db row) : inside row.table = true := by
  induction h with
  | hit hmem h => exact hhit _ hmem h
  | cascade hmem hfk hrule hjoins _ ih =>
    obtain ⟨htable, htarget, -⟩ := joins_iff.mp hjoins
    have h := List.all_eq_true.mp hclosed _ hfk
    rw [hrule, htarget, ih, htable] at h
    exact h

omit [DecidableEq D] in
theorem leadsInto_of_refersTo {inside : T → Bool} {rows : List (Row T C K D)} {table : T}
    {ref : C × K} (hrows : ∀ row ∈ rows, inside row.table = true)
    (h : refersTo keys rows table ref = true) : leadsInto keys inside table ref.1 = true := by
  obtain ⟨fk, hfk, ⟨htable, hcolumn⟩, other, hother, htarget, -⟩ := refersTo_iff.mp h
  refine List.any_eq_true.mpr ⟨fk, hfk, ?_⟩
  rw [htable, hcolumn, htarget, hrows other hother, beq_self_eq_true, beq_self_eq_true]
  rfl

omit [DecidableEq K] [DecidableEq D] in
theorem strip_of_refs {inside : T → Bool} {p : C × K → Bool}
    (h : ∀ ref, p ref = false → leadsInto keys inside row.table ref.1 = true) :
    strip keys inside { row with refs := row.refs.filter p } = strip keys inside row := by
  rw [strip]
  congr 1
  rw [List.filter_filter]
  refine List.filter_congr fun ref _ => ?_
  cases hp : p ref with
  | false => rw [h ref hp, Bool.not_true, Bool.false_and]
  | true => rw [Bool.and_true]

/-- **The tables out of reach** look as before. -/
theorem view_delete {inside : T → Bool} (hclosed : closed keys inside = true)
    (hhit : ∀ row ∈ db, hit row = true → inside row.table = true) :
    view keys inside (delete keys hit db) = view keys inside db := by
  have hinside : ∀ row ∈ doomed keys hit db, inside row.table = true :=
    fun row hrow => (mem_doomed.mp hrow).inside hclosed hhit
  rw [view, delete, List.filter_map, List.map_map, List.filter_filter]
  have hrows : (db.filter fun row => ((fun row : Row T C K D => !inside row.table) ∘
      unlink keys (doomed keys hit db)) row && !(doomed keys hit db).contains row) =
      db.filter fun row => !inside row.table := by
    refine List.filter_congr fun row _ => ?_
    rw [Function.comp_apply, unlink]
    cases hin : inside row.table with
    | true => rw [Bool.not_true, Bool.false_and]
    | false =>
      have hkept : (doomed keys hit db).contains row = false := by
        rw [← Bool.not_eq_true, List.contains_iff_mem]
        intro h
        rw [hinside row h] at hin
        cases hin
      rw [hkept, Bool.and_self]
  rw [hrows]
  refine List.map_congr_left fun row _ => ?_
  refine strip_of_refs fun ref href => leadsInto_of_refersTo hinside ?_
  rwa [Bool.not_eq_false'] at href

omit [DecidableEq K] [DecidableEq D] in
theorem filter_view {inside : T → Bool} {q : Row T C K D → Bool}
    (hq : ∀ row, q row = true → inside row.table = false)
    (hstrip : ∀ row, q (strip keys inside row) = q row) :
    (view keys inside db).filter q = (db.filter q).map (strip keys inside) := by
  rw [view, List.filter_map, List.filter_filter]
  congr 1
  refine List.filter_congr fun row _ => ?_
  rw [Function.comp_apply, hstrip]
  cases h : q row with
  | false => rw [Bool.false_and]
  | true => rw [hq row h, Bool.not_false, Bool.and_self]

omit [DecidableEq K] [DecidableEq D] in
theorem view_map {inside : T → Bool} {f : Row T C K D → Row T C K D}
    (htable : ∀ row, (f row).table = row.table)
    (hf : ∀ row, inside row.table = false → f row = row) :
    view keys inside (db.map f) = view keys inside db := by
  rw [view, List.filter_map, List.map_map]
  have hrows : (db.filter ((fun row : Row T C K D => !inside row.table) ∘ f)) =
      db.filter fun row => !inside row.table := by
    refine List.filter_congr fun row _ => ?_
    rw [Function.comp_apply, htable]
  rw [hrows]
  refine List.map_congr_left fun row hrow => ?_
  rw [Function.comp_apply, hf row]
  rw [← Bool.not_eq_true']
  exact (List.mem_filter.mp hrow).2

/-! ### What the rows refer to -/

/-- The row comes from an earlier one, and has no reference that is new. -/
structure Shrunk (own : D → Prop) (old row : Row T C K D) : Prop where
  table : row.table = old.table
  key : row.key = old.key
  refs : row.refs ⊆ old.refs
  own : own row.data → own old.data

/-- No row is new, and what a row refers to has not gone. -/
structure Intact (keys : List (Key T C)) (own : D → Prop) (before after : List (Row T C K D)) :
    Prop where
  stems : ∀ row ∈ after, ∃ old ∈ before, Shrunk own old row
  referred : ∀ row ∈ after, ∀ fk ∈ keys, ∀ other ∈ before, fk.joins row other = true →
    ∃ other' ∈ after, other'.table = other.table ∧ other'.key = other.key

variable {own : D → Prop} {before after after' : List (Row T C K D)}

omit [DecidableEq D] in
theorem Shrunk.joins {old : Row T C K D} (h : Shrunk own old row) {fk : Key T C}
    (hjoins : fk.joins row other = true) : fk.joins old other = true := by
  obtain ⟨htable, htarget, href⟩ := joins_iff.mp hjoins
  exact joins_iff.mpr ⟨htable.trans h.table, htarget, h.refs href⟩

namespace Intact

omit [DecidableEq D] in
theorem refl (before : List (Row T C K D)) : Intact keys own before before where
  stems row hrow := ⟨row, hrow, rfl, rfl, List.Subset.refl _, id⟩
  referred _ _ _ _ other hother _ := ⟨other, hother, rfl, rfl⟩

omit [DecidableEq D] in
theorem trans (h : Intact keys own before after) (h' : Intact keys own after after') :
    Intact keys own before after' where
  stems row hrow := by
    obtain ⟨mid, hmid, hs'⟩ := h'.stems row hrow
    obtain ⟨old, hold, hs⟩ := h.stems mid hmid
    exact ⟨old, hold, hs'.table.trans hs.table, hs'.key.trans hs.key,
      List.Subset.trans hs'.refs hs.refs, fun hown => hs.own (hs'.own hown)⟩
  referred row hrow fk hfk other hother hjoins := by
    obtain ⟨mid, hmid, hs⟩ := h'.stems row hrow
    obtain ⟨other₁, hother₁, htable, hkey⟩ :=
      h.referred mid hmid fk hfk other hother (hs.joins hjoins)
    obtain ⟨hrowtable, htarget, href⟩ := joins_iff.mp hjoins
    obtain ⟨other₂, hother₂, htable₂, hkey₂⟩ := h'.referred row hrow fk hfk other₁ hother₁
      (joins_iff.mpr ⟨hrowtable, htarget.trans htable.symm, hkey.symm ▸ href⟩)
    exact ⟨other₂, hother₂, htable₂.trans htable, hkey₂.trans hkey⟩

/-- **A deletion** leaves no reference to what it takes along. -/
theorem delete (keys : List (Key T C)) (own : D → Prop) (hit : Row T C K D → Bool)
    (db : List (Row T C K D)) : Intact keys own db (delete keys hit db) where
  stems row hrow := by
    obtain ⟨old, hold, -, rfl⟩ := mem_delete.mp hrow
    exact ⟨old, hold, rfl, rfl, List.filter_subset_self _, id⟩
  referred row hrow fk hfk other hother hjoins := by
    obtain ⟨old, -, -, rfl⟩ := mem_delete.mp hrow
    obtain ⟨htable, htarget, href⟩ := joins_iff.mp hjoins
    refine ⟨unlink keys (doomed keys hit db) other, mem_delete.mpr ⟨other, hother, ?_, rfl⟩,
      rfl, rfl⟩
    intro hdoomed
    have hrefers : refersTo keys (doomed keys hit db) old.table (fk.column, other.key) = true :=
      refersTo_iff.mpr ⟨fk, hfk, ⟨htable, rfl⟩, other, mem_doomed.mpr hdoomed, htarget, rfl⟩
    rw [(mem_unlink.mp href).2] at hrefers
    cases hrefers

omit [DecidableEq D] in
theorem map {f : Row T C K D → Row T C K D} (htable : ∀ row, (f row).table = row.table)
    (hkey : ∀ row, (f row).key = row.key) (hrefs : ∀ row, (f row).refs = row.refs)
    (hown : ∀ row, own (f row).data → own row.data) (db : List (Row T C K D)) :
    Intact keys own db (db.map f) where
  stems row hrow := by
    obtain ⟨old, hold, rfl⟩ := List.mem_map.mp hrow
    exact ⟨old, hold, htable old, hkey old, hrefs old ▸ List.Subset.refl _, hown old⟩
  referred _ _ _ _ other hother _ :=
    ⟨f other, List.mem_map_of_mem hother, htable other, hkey other⟩

end Intact

/-- Keys lead from the row to a row of one's own. -/
inductive Reaches (keys : List (Key T C)) (own : D → Prop) (db : List (Row T C K D)) :
    Row T C K D → Prop
  | own {row : Row T C K D} : own row.data → Reaches keys own db row
  | ref {row other : Row T C K D} {fk : Key T C} : fk ∈ keys → other ∈ db →
      fk.joins row other = true → Reaches keys own db other → Reaches keys own db row

omit [DecidableEq D] in
theorem Reaches.of_shrunk {old : Row T C K D} (hs : Shrunk own old row)
    (h : Reaches keys own db row) : Reaches keys own db old := by
  cases h with
  | own hown => exact Reaches.own (hs.own hown)
  | ref hfk hother hjoins h => exact Reaches.ref hfk hother (hs.joins hjoins) h

omit [DecidableEq D] in
theorem Reaches.of_joins {fk : Key T C} (hfk : fk ∈ keys)
    (hstems : ∃ old ∈ before, Shrunk own old other) (hjoins : fk.joins row other = true)
    (h : Reaches keys own before other) : Reaches keys own before row := by
  obtain ⟨old, hold, hs⟩ := hstems
  obtain ⟨htable, htarget, href⟩ := joins_iff.mp hjoins
  exact Reaches.ref hfk hold
    (joins_iff.mpr ⟨htable, htarget.trans hs.table, hs.key ▸ href⟩) (h.of_shrunk hs)

/-- **A row out of reach** of what is deleted stays as it is. -/
theorem mem_delete_of_not_reaches (hstems : ∀ row ∈ db, ∃ old ∈ before, Shrunk own old row)
    (hhit : ∀ row ∈ db, hit row = true → Reaches keys own before row) (hrow : row ∈ db)
    (hnot : ¬ Reaches keys own before row) : row ∈ delete keys hit db := by
  have hdoomed : ∀ row, Doomed keys hit db row → row ∈ db ∧ Reaches keys own before row := by
    intro row h
    induction h with
    | hit hmem h => exact ⟨hmem, hhit _ hmem h⟩
    | cascade hmem hfk _ hjoins _ ih =>
      exact ⟨hmem, Reaches.of_joins hfk (hstems _ ih.1) hjoins ih.2⟩
  refine mem_delete.mpr ⟨row, hrow, fun h => hnot (hdoomed row h).2, unlink_eq_self ?_⟩
  intro fk hfk other hother hjoins
  obtain ⟨hmem, h⟩ := hdoomed other (mem_doomed.mp hother)
  exact hnot (Reaches.of_joins hfk (hstems other hmem) hjoins h)

end QnscKb.ForeignKeys
