import QnscKb.Lib.Ink
import QnscKb.Review.Candidates

/-!
# Review — Conserved

What becomes of a document's text while its candidates are reviewed.  A candidate that is merged
away keeps its row and its text; the other rows, active or discarded, are the document's parts.
-/

namespace QnscKb.Candidates

open Ink (ink Reseam)
open Access (Id)
open Batch (CandidateStatus)
open Runs (Run Throughout)

variable {rows : List Candidate} {f : Candidate → Candidate} {new : Option Candidate}

/-! ### Runs of calls -/

/-- The rows, with those whose text went into another one, of which the table keeps a remark at
most. -/
structure Review where
  rows : List Candidate
  merged : List Id

/-- The two candidates of a merge, in order. -/
def pairOf (rows : List Candidate) (call : Call) : Option (Candidate × Candidate) :=
  if call.operation = .merge then
    (byId rows call.candidateId).bind fun c => (otherOf rows call c).map (inOrder c)
  else none

/-- The row whose text a merge puts into another. -/
def mergedAway (rows : List Candidate) (call : Call) : Option Id :=
  (pairOf rows call).map fun pair => pair.2.id

/-- The review after a call; one that fails is rolled back. -/
def Review.after (s : Review) (call : Call) : Review :=
  match reviewCandidate s.rows call with
  | .error _ => s
  | .ok rows => ⟨rows, (mergedAway s.rows call).toList ++ s.merged⟩

/-- A call is made, with a key that no row has for the row it may add. -/
def Step (s : Review) (call : Call) (t : Review) : Prop :=
  call.newId ∉ s.rows.map (·.id) ∧ t = s.after call

/-- The rows that hold text of their own: those whose text no merge has put into another row. -/
def Review.own (s : Review) : List Candidate := s.rows.filter fun row => !s.merged.contains row.id

def Review.parts (s : Review) : List Candidate :=
  s.own.insertionSort fun x y => x.position ≤ y.position

def Review.texts (s : Review) : List Text := s.parts.map (·.bodyMd)

/-- What holds of every review: the constraints, and what was merged away is a discarded row. -/
structure Kept (s : Review) : Prop extends Unique s.rows where
  merged : ∀ id ∈ s.merged, ∃ row ∈ s.rows, row.id = id ∧ row.status = .discarded

/-- The parts of a document before its review. -/
def Starts (s : Review) : Prop := Unique s.rows ∧ s.merged = []

variable {s t : Review}

variable {row first second c x y : Candidate}

theorem mem_own : row ∈ s.own ↔ row ∈ s.rows ∧ row.id ∉ s.merged := by
  simp [Review.own]

theorem mem_parts : row ∈ s.parts ↔ row ∈ s.rows ∧ row.id ∉ s.merged := by
  rw [Review.parts, List.mem_insertionSort, mem_own]

theorem perm_parts (s : Review) : s.parts.Perm s.own := List.perm_insertionSort _ _

theorem Kept.sorted (h : Kept s) : s.parts.Pairwise fun x y => x.position < y.position := by
  have hle : s.parts.Pairwise fun x y => x.position ≤ y.position :=
    List.pairwise_insertionSort _ _
  have hne : s.parts.Pairwise fun x y => x.position ≠ y.position := by
    have hown : (s.own.map (·.position)).Nodup :=
      h.positions.sublist (List.filter_sublist.map _)
    have hparts := ((perm_parts s).map (·.position)).nodup_iff.mpr hown
    rwa [List.Nodup, List.pairwise_map] at hparts
  exact (hle.and hne).imp fun h => Nat.lt_of_le_of_ne h.1 h.2

theorem parts_eq {all : List Candidate} (hperm : all.Perm s.own)
    (hsorted : all.Pairwise fun x y => x.position < y.position) : s.parts = all := by
  have hle : all.Pairwise fun x y => x.position ≤ y.position := hsorted.imp Nat.le_of_lt
  have hpositions : (all.map (·.position)).Nodup := by
    rw [List.Nodup, List.pairwise_map]
    exact hsorted.imp Nat.ne_of_lt
  have hsame : ∀ a b : Candidate, a ∈ s.parts → b ∈ all → a.position ≤ b.position →
      b.position ≤ a.position → a = b := by
    intro a b ha hb hab hba
    have hin : a ∈ all := hperm.mem_iff.mpr ((perm_parts s).mem_iff.mp ha)
    exact List.inj_on_of_nodup_map hpositions hin hb (Nat.le_antisymm hab hba)
  exact List.Perm.eq_of_pairwise hsame (List.pairwise_insertionSort _ _) hle
    ((perm_parts s).trans hperm.symm)

/-! ### Steps -/

def mergedRow (call : Call) (first second row : Candidate) : Candidate :=
  if row.id = first.id then joined call first second
  else if row.id = second.id then away call first second
  else row

/-- What a call can do to a review. -/
inductive Move (s : Review) (call : Call) : Review → Prop
  | idle (hfailed : ∀ rows, reviewCandidate s.rows call ≠ .ok rows) : Move s call s
  | edited {c row : Candidate} (hop : call.operation ≠ .merge ∧ call.operation ≠ .split)
      (hc : c ∈ s.rows) (hactive : c.status = .candidate) (hid : row.id = c.id)
      (hposition : row.position = c.position) (hbody : row.bodyMd = c.bodyMd)
      (hspan : row.sourceStart = c.sourceStart ∧ row.sourceEnd = c.sourceEnd) :
      Move s call ⟨set row s.rows, s.merged⟩
  | merged {first second : Candidate} (hpair : pairOf s.rows call = some (first, second))
      (hfirst : first ∈ s.rows) (hsecond : second ∈ s.rows) (hactive : first.status = .candidate)
      (hactive' : second.status = .candidate) (hne : second.id ≠ first.id)
      (hle : first.position ≤ second.position) :
      Move s call ⟨s.rows.map (mergedRow call first second), second.id :: s.merged⟩
  | split {c : Candidate} (hop : call.operation = .split)
      (hfound : byId s.rows call.candidateId = some c) (hc : c ∈ s.rows)
      (hactive : c.status = .candidate)
      (hinside : 1 ≤ boundary call c ∧ boundary call c < c.bodyMd.length) :
      Move s call ⟨s.rows.map (shifted call c) ++ [continued call c], s.merged⟩

theorem inOrder_cases (c other : Candidate) :
    (inOrder c other = (c, other) ∧ c.position ≤ other.position) ∨
      (inOrder c other = (other, c) ∧ other.position ≤ c.position) := by
  by_cases h : c.position ≤ other.position
  · exact .inl ⟨if_pos h, h⟩
  · exact .inr ⟨if_neg h, Nat.le_of_not_le h⟩

theorem set_set_eq_map (call : Call) (hne : second.id ≠ first.id) (rows : List Candidate) :
    set (joined call first second) (set (away call first second) rows) =
      rows.map (mergedRow call first second) := by
  rw [set, set, Rows.update, Rows.update, List.map_map]
  refine List.map_congr_left fun r _ => ?_
  have hfirst : (joined call first second).id = first.id := rfl
  have hsecond : (away call first second).id = second.id := rfl
  rw [mergedRow, hfirst, hsecond]
  by_cases h : r.id = first.id
  · simp [h, Ne.symm hne]
  · by_cases hr : r.id = second.id
    · simp [hr, hsecond, hne]
    · simp [h, hr]

theorem changed_set (row : Candidate) :
    Changed rows (fun r => if r.id == row.id then row else r) none where
  ids r _ := by
    split
    · next heq => exact (beq_iff_eq.mp heq).symm
    · rfl
  fresh := nofun

variable {call : Call}

theorem changed_merge :
    Changed rows (mergedRow call first second) none where
  ids r _ := by
    rw [mergedRow]
    split
    · next heq => exact heq.symm
    · split
      · next heq => exact heq.symm
      · rfl
  fresh := nofun

theorem shifted_id (call : Call) (c row : Candidate) : (shifted call c row).id = row.id := by
  rw [shifted]
  split
  · rfl
  · split <;> rfl

theorem changed_split (hnew : call.newId ∉ rows.map (·.id)) :
    Changed rows (shifted call c) (some (continued call c)) where
  ids r _ := shifted_id call c r
  fresh _ hadded := Option.some.inj hadded ▸ hnew

theorem merge_pair {other : Candidate} (hop : call.operation = .merge)
    (hfound : byId rows call.candidateId = some c) (hother : otherOf rows call c = some other) :
    pairOf rows call = some (inOrder c other) := by
  rw [pairOf, if_pos hop, hfound, Option.bind_some, hother, Option.map_some]

theorem reviewCandidate_ok {written : List Candidate} (h : reviewCandidate rows call = .ok written) :
    ∃ changed, modified rows call = .ok changed ∧ flush rows changed = some written := by
  rw [reviewCandidate] at h
  split at h
  · cases h
  · split at h
    · cases h
    · next changed hmodified =>
      split at h
      · cases h
      · next all hflush => exact ⟨changed, hmodified, hflush.trans (congrArg some (Except.ok.inj h))⟩

/-- **What a call does to a review**, and the constraints hold after it. -/
theorem step_move (h : Unique s.rows) (hstep : Step s call t) : Move s call t ∧ Unique t.rows := by
  obtain ⟨hnew, rfl⟩ := hstep
  rw [Review.after]
  cases hcall : reviewCandidate s.rows call with
  | error failure =>
    refine ⟨.idle fun rows hok => ?_, h⟩
    rw [hcall] at hok
    cases hok
  | ok written =>
    obtain ⟨changed, hmodified, hflush⟩ := reviewCandidate_ok hcall
    obtain ⟨c, hc, hcid, hactive, heffect⟩ := modified_cases hmodified
    have hfound : byId s.rows call.candidateId = some c := by
      obtain ⟨row, hrow⟩ := Option.isSome_iff_exists.mp
        (isSome_byId.mpr (List.mem_map.mpr ⟨c, hc, hcid⟩))
      have hsame : row = c := List.inj_on_of_nodup_map h.ids (Rows.mem_of_get hrow) hc
        ((Rows.key_of_get hrow).trans hcid.symm)
      rw [hrow, hsame]
    cases heffect with
    | @kept row hop hid hposition hbody hspan hstatus =>
      have hall : flush s.rows (s.rows.map (fun r => if r.id == row.id then row else r) ++
          (none : Option Candidate).toList) = some written := by
        rw [Option.toList_none, List.append_nil]
        exact hflush
      obtain ⟨rfl, hunique⟩ := flush_eq h (changed_set row) hall
      rw [Option.toList_none, List.append_nil] at hunique ⊢
      have hnone : mergedAway s.rows call = none := by
        rw [mergedAway, pairOf, if_neg hop.1, Option.map_none]
      rw [hnone]
      exact ⟨.edited hop hc hactive hid hposition hbody hspan, hunique⟩
    | @merged other hop hother =>
      obtain ⟨hmem, hother_active, hne⟩ := mem_of_otherOf hother
      have hpair := merge_pair hop hfound hother
      have hmerge : ∀ first second : Candidate, inOrder c other = (first, second) →
          first ∈ s.rows → second ∈ s.rows → first.status = .candidate →
          second.status = .candidate → second.id ≠ first.id →
          first.position ≤ second.position →
          Move s call ⟨written, (mergedAway s.rows call).toList ++ s.merged⟩ ∧
            Unique written := by
        intro first second horder hfirst hsecond hactive hactive' hne hle
        rw [horder] at hflush hpair
        rw [set_set_eq_map call hne] at hflush
        have hall : flush s.rows (s.rows.map (mergedRow call first second) ++
            (none : Option Candidate).toList) = some written := by
          rw [Option.toList_none, List.append_nil]
          exact hflush
        obtain ⟨rfl, hunique⟩ := flush_eq h changed_merge hall
        rw [Option.toList_none, List.append_nil] at hunique ⊢
        rw [mergedAway, hpair]
        exact ⟨.merged hpair hfirst hsecond hactive hactive' hne hle, hunique⟩
      rcases inOrder_cases c other with ⟨horder, hle⟩ | ⟨horder, hle⟩
      · exact hmerge c other horder hc hmem hactive hother_active hne hle
      · exact hmerge other c horder hmem hc hother_active hactive (Ne.symm hne) hle
    | split hop hinside =>
      obtain ⟨rfl, hunique⟩ := flush_eq h (changed_split hnew) hflush
      have hnone : mergedAway s.rows call = none := by
        rw [mergedAway, pairOf, if_neg (by rw [hop]; decide), Option.map_none]
      rw [hnone]
      exact ⟨.split hop hfound hc hactive hinside, hunique⟩

/-! ### The parts after a step -/

theorem Kept.not_merged (h : Kept s) (hrow : row ∈ s.rows) (hactive : row.status = .candidate) :
    row.id ∉ s.merged := by
  intro hmerged
  obtain ⟨r, hr, hid, hdiscarded⟩ := h.merged row.id hmerged
  have hsame : r = row := List.inj_on_of_nodup_map h.ids hr hrow hid
  rw [hsame, hactive] at hdiscarded
  cases hdiscarded

theorem Kept.active_mem_parts (h : Kept s) (hrow : row ∈ s.rows)
    (hactive : row.status = .candidate) : row ∈ s.parts :=
  mem_parts.mpr ⟨hrow, h.not_merged hrow hactive⟩

theorem own_map (h : Changed s.rows f new) (hnew : ∀ added ∈ new, added.id ∉ s.merged) :
    (⟨s.rows.map f ++ new.toList, s.merged⟩ : Review).own = s.own.map f ++ new.toList := by
  have hold : (s.rows.map f).filter (fun row => !s.merged.contains row.id) = s.own.map f := by
    rw [List.filter_map]
    refine congrArg (List.map f) (List.filter_congr fun row hrow => ?_)
    rw [Function.comp_apply, h.ids row hrow]
  have hadded : new.toList.filter (fun row => !s.merged.contains row.id) = new.toList := by
    rw [List.filter_eq_self]
    intro row hrow
    simpa using hnew row (Option.mem_toList.mp hrow)
  have hsplit : (⟨s.rows.map f ++ new.toList, s.merged⟩ : Review).own =
      (s.rows.map f).filter (fun row => !s.merged.contains row.id) ++
        new.toList.filter fun row => !s.merged.contains row.id := List.filter_append ..
  rw [hsplit, hold, hadded]

theorem own_map_merged (h : Changed s.rows f none) (id : Id) :
    (⟨s.rows.map f, id :: s.merged⟩ : Review).own =
      (s.own.filter fun row => row.id != id).map f := by
  have hall : (⟨s.rows.map f, id :: s.merged⟩ : Review).own =
      (s.rows.map f).filter fun row => !(id :: s.merged).contains row.id := rfl
  rw [hall, List.filter_map, Review.own, List.filter_filter]
  refine congrArg (List.map f) (List.filter_congr fun row hrow => ?_)
  rw [Function.comp_apply, h.ids row hrow, List.contains_cons, Bool.not_or]
  rfl

/-- A row that is changed and keeps its place, its text and its span. -/
structure Alike (row row' : Candidate) : Prop where
  position : row'.position = row.position
  body : row'.bodyMd = row.bodyMd
  start : row'.sourceStart = row.sourceStart
  stop : row'.sourceEnd = row.sourceEnd

theorem Alike.refl (row : Candidate) : Alike row row := ⟨rfl, rfl, rfl, rfl⟩

/-- An edit keeps the parts in their order. -/
theorem parts_edited (hk : Kept s) (h : Changed s.rows f none)
    (halike : ∀ row ∈ s.rows, Alike row (f row)) :
    (⟨s.rows.map f, s.merged⟩ : Review).parts = s.parts.map f := by
  have hown := own_map h nofun
  rw [Option.toList_none, List.append_nil, List.append_nil] at hown
  refine parts_eq ?_ ?_
  · rw [hown]
    exact (perm_parts s).map f
  · rw [List.pairwise_map]
    refine hk.sorted.imp_of_mem fun hx hy hlt => ?_
    rw [(halike _ (mem_parts.mp hx).1).position, (halike _ (mem_parts.mp hy).1).position]
    exact hlt

theorem adjacent {all : List Candidate} (hsorted : all.Pairwise fun x y => x.position < y.position)
    (hfirst : first ∈ all) (hsecond : second ∈ all) (hlt : first.position < second.position)
    (hnone : ∀ row ∈ all, ¬ (first.position < row.position ∧ row.position < second.position)) :
    ∃ pre post, all = pre ++ first :: second :: post := by
  obtain ⟨pre, rest, rfl⟩ := List.append_of_mem hfirst
  obtain ⟨-, hrest, hacross⟩ := List.pairwise_append.mp hsorted
  obtain ⟨hbehind, hrest⟩ := List.pairwise_cons.mp hrest
  have hmem : second ∈ rest := by
    rcases List.mem_append.mp hsecond with hin | hin
    · exact absurd (hacross second hin first List.mem_cons_self) (Nat.lt_asymm hlt)
    · rcases List.mem_cons.mp hin with rfl | hin
      · exact absurd hlt (Nat.lt_irrefl _)
      · exact hin
  cases rest with
  | nil => cases hmem
  | cons row post =>
    rcases List.mem_cons.mp hmem with rfl | hin
    · exact ⟨pre, post, rfl⟩
    · refine absurd ⟨hbehind row List.mem_cons_self, ?_⟩ (hnone row (by simp))
      exact (List.pairwise_cons.mp hrest).1 second hin

theorem Unique.eq_of_id (h : Unique rows) (hx : x ∈ rows) (hy : y ∈ rows) (hid : x.id = y.id) :
    x = y :=
  List.inj_on_of_nodup_map h.ids hx hy hid

theorem Unique.eq_of_position (h : Unique rows) (hx : x ∈ rows) (hy : y ∈ rows)
    (hposition : x.position = y.position) : x = y :=
  List.inj_on_of_nodup_map h.positions hx hy hposition

variable {pre post : List Candidate}

/-- A merge joins neighbours among the parts. -/
theorem parts_merged (hk : Kept s) (hne : second.id ≠ first.id)
    (hparts : s.parts = pre ++ first :: second :: post) :
    (⟨s.rows.map (mergedRow call first second), second.id :: s.merged⟩ : Review).parts =
      pre ++ joined call first second :: post := by
  have hsorted := hk.sorted
  rw [hparts] at hsorted
  obtain ⟨hpre, hrest, hacross⟩ := List.pairwise_append.mp hsorted
  obtain ⟨hbehind, hrest⟩ := List.pairwise_cons.mp hrest
  obtain ⟨hbehind', hpost⟩ := List.pairwise_cons.mp hrest
  have hmem : ∀ row ∈ pre ++ first :: second :: post, row ∈ s.rows := fun row hrow =>
    (mem_parts.mp (hparts ▸ hrow)).1
  have hfirst : first ∈ s.rows := hmem first (by simp)
  have hsecond : second ∈ s.rows := hmem second (by simp)
  have hothers : ∀ row, row ∈ pre ∨ row ∈ post → row.id ≠ first.id ∧ row.id ≠ second.id := by
    intro row hrow
    have hin : row ∈ s.rows := by
      refine hmem row ?_
      rcases hrow with hrow | hrow <;> simp [hrow]
    refine ⟨fun hid => ?_, fun hid => ?_⟩
    · obtain rfl := hk.eq_of_id hin hfirst hid
      rcases hrow with hrow | hrow
      · exact Nat.lt_irrefl _ (hacross _ hrow _ List.mem_cons_self)
      · exact Nat.lt_irrefl _ (hbehind _ (List.mem_cons_of_mem _ hrow))
    · obtain rfl := hk.eq_of_id hin hsecond hid
      rcases hrow with hrow | hrow
      · exact Nat.lt_irrefl _ (hacross _ hrow _ (List.mem_cons_of_mem _ List.mem_cons_self))
      · exact Nat.lt_irrefl _ (hbehind' _ hrow)
  have hkeep : ∀ row, row ∈ pre ∨ row ∈ post → (row.id != second.id) = true :=
    fun row hrow => bne_iff_ne.mpr (hothers row hrow).2
  have hfilter : s.parts.filter (fun row => row.id != second.id) = pre ++ first :: post := by
    have hstays : (first.id != second.id) = true := bne_iff_ne.mpr (Ne.symm hne)
    rw [hparts, List.filter_append, List.filter_cons, if_pos hstays, List.filter_cons,
      if_neg (by simp), List.filter_eq_self.mpr fun row hrow => hkeep row (.inl hrow),
      List.filter_eq_self.mpr fun row hrow => hkeep row (.inr hrow)]
  have hfix : ∀ row, row ∈ pre ∨ row ∈ post → mergedRow call first second row = row := by
    intro row hrow
    obtain ⟨hnot, hnot'⟩ := hothers row hrow
    rw [mergedRow, if_neg hnot, if_neg hnot']
  have hmap : (pre ++ first :: post).map (mergedRow call first second) =
      pre ++ joined call first second :: post := by
    have hself : mergedRow call first second first = joined call first second := if_pos rfl
    have hids : ∀ all : List Candidate, (∀ row ∈ all, row ∈ pre ∨ row ∈ post) →
        all.map (mergedRow call first second) = all := by
      intro all hall
      exact (List.map_congr_left fun row hrow => hfix row (hall row hrow)).trans (List.map_id' _)
    rw [List.map_append, List.map_cons, hself, hids pre fun _ => .inl, hids post fun _ => .inr]
  refine parts_eq ?_ ?_
  · rw [own_map_merged changed_merge, ← hmap, ← hfilter]
    exact ((perm_parts s).filter _).map _
  · refine List.pairwise_append.mpr ⟨hpre, List.pairwise_cons.mpr ⟨?_, hpost⟩, ?_⟩
    · exact fun row hrow => hbehind row (List.mem_cons_of_mem _ hrow)
    · intro row hrow other hother
      rcases List.mem_cons.mp hother with rfl | hother
      · exact hacross row hrow first List.mem_cons_self
      · exact hacross row hrow other (by simp [hother])

theorem shifted_position_le (call : Call) (c row : Candidate) :
    row.position ≤ (shifted call c row).position ∧
      (shifted call c row).position ≤ row.position + 1 := by
  rw [shifted]
  split
  · exact ⟨Nat.le_refl _, Nat.le_succ _⟩
  · split
    · exact ⟨Nat.le_succ _, Nat.le_refl _⟩
    · exact ⟨Nat.le_refl _, Nat.le_succ _⟩

theorem shifted_before (hk : Kept s) (hc : c ∈ s.rows) (hrow : row ∈ s.rows)
    (hlt : row.position < c.position) : shifted call c row = row := by
  have hid : row.id ≠ c.id := fun hid => Nat.lt_irrefl _ (hk.eq_of_id hrow hc hid ▸ hlt)
  rw [shifted, if_neg hid, if_neg fun h => Nat.lt_asymm hlt h.2]

theorem shifted_behind (hnew : call.newId ∉ s.rows.map (·.id))
    (hunique : Unique (s.rows.map (shifted call c) ++ [continued call c])) (hrow : row ∈ s.rows)
    (hlt : c.position < row.position) : c.position + 1 < (shifted call c row).position := by
  have hfree : (shifted call c row).position ≠ c.position + 1 := by
    intro heq
    have hin : shifted call c row ∈ s.rows.map (shifted call c) ++ [continued call c] :=
      List.mem_append_left _ (List.mem_map_of_mem hrow)
    have hsame := hunique.eq_of_position hin (y := continued call c) (by simp) heq
    have hid : row.id = call.newId := by
      rw [← shifted_id call c row, hsame]
      rfl
    exact hnew (hid ▸ List.mem_map_of_mem hrow)
  have hle := (shifted_position_le call c row).1
  exact Nat.lt_of_le_of_ne (Nat.le_trans hlt hle) (Ne.symm hfree)

theorem shifted_lt (hk : Kept s)
    (hunique : Unique (s.rows.map (shifted call c) ++ [continued call c])) (hx : x ∈ s.rows)
    (hy : y ∈ s.rows) (hlt : x.position < y.position) :
    (shifted call c x).position < (shifted call c y).position := by
  refine Nat.lt_of_le_of_ne ?_ fun heq => ?_
  · exact (shifted_position_le call c x).2.trans
      (Nat.le_trans hlt (shifted_position_le call c y).1)
  · have hsame := hunique.eq_of_position
      (List.mem_append_left _ (List.mem_map_of_mem hx))
      (List.mem_append_left _ (List.mem_map_of_mem hy)) heq
    have hid : x.id = y.id := by
      rw [← shifted_id call c x, hsame, shifted_id]
    exact Nat.lt_irrefl _ (hk.eq_of_id hx hy hid ▸ hlt)

/-- A split puts its parts where the whole was. -/
theorem parts_split (hk : Kept s) (hc : c ∈ s.rows) (hnew : call.newId ∉ s.rows.map (·.id))
    (hunique : Unique (s.rows.map (shifted call c) ++ [continued call c]))
    (hparts : s.parts = pre ++ c :: post) :
    (⟨s.rows.map (shifted call c) ++ [continued call c], s.merged⟩ : Review).parts =
      pre ++ shifted call c c :: continued call c :: post.map (shifted call c) := by
  have hsorted := hk.sorted
  rw [hparts] at hsorted
  obtain ⟨hpre, hrest, hacross⟩ := List.pairwise_append.mp hsorted
  obtain ⟨hbehind, hpost⟩ := List.pairwise_cons.mp hrest
  have hmem : ∀ row ∈ pre ++ c :: post, row ∈ s.rows := fun row hrow =>
    (mem_parts.mp (hparts ▸ hrow)).1
  have hfix : ∀ row ∈ pre, shifted call c row = row := fun row hrow =>
    shifted_before hk hc (hmem row (by simp [hrow])) (hacross row hrow c List.mem_cons_self)
  have hleft : (shifted call c c).position = c.position := by
    rw [shifted, if_pos rfl]
  have hafter : ∀ row ∈ post, c.position + 1 < (shifted call c row).position := fun row hrow =>
    shifted_behind hnew hunique (hmem row (by simp [hrow])) (hbehind row hrow)
  have hstrict : post.Pairwise fun x y =>
      (shifted call c x).position < (shifted call c y).position :=
    hpost.imp_of_mem fun hx hy hlt =>
      shifted_lt hk hunique (hmem _ (by simp [hx])) (hmem _ (by simp [hy])) hlt
  have hnot : ∀ added ∈ some (continued call c), added.id ∉ s.merged := by
    intro added hadded hmerged
    obtain rfl := Option.some.inj hadded
    obtain ⟨row, hrow, hid, -⟩ := hk.merged _ hmerged
    exact hnew (List.mem_map.mpr ⟨row, hrow, hid⟩)
  have hmap : (pre ++ c :: post).map (shifted call c) =
      pre ++ shifted call c c :: post.map (shifted call c) := by
    rw [List.map_append, List.map_cons, List.map_congr_left hfix, List.map_id']
  refine parts_eq ?_ ?_
  · have hown := own_map (changed_split (c := c) hnew) hnot
    rw [Option.toList_some] at hown
    rw [hown]
    have hperm : (pre ++ shifted call c c :: post.map (shifted call c)).Perm
        (s.own.map (shifted call c)) := by
      rw [← hmap, ← hparts]
      exact (perm_parts s).map _
    refine List.Perm.trans ?_ (hperm.append_right [continued call c])
    rw [List.append_assoc]
    refine List.Perm.append_left pre (List.Perm.cons _ ?_)
    exact (List.perm_append_singleton _ _).symm
  · refine List.pairwise_append.mpr ⟨hpre, ?_, ?_⟩
    · refine List.pairwise_cons.mpr ⟨?_, List.pairwise_cons.mpr ⟨?_, ?_⟩⟩
      · intro row hrow
        rw [hleft]
        rcases List.mem_cons.mp hrow with rfl | hrow
        · exact Nat.lt_succ_self _
        · obtain ⟨r, hr, rfl⟩ := List.mem_map.mp hrow
          exact Nat.lt_of_succ_lt (hafter r hr)
      · intro row hrow
        obtain ⟨r, hr, rfl⟩ := List.mem_map.mp hrow
        exact hafter r hr
      · rw [List.pairwise_map]
        exact hstrict
    · intro row hrow other hother
      have hlt : row.position < c.position := hacross row hrow c List.mem_cons_self
      rcases List.mem_cons.mp hother with rfl | hother
      · rw [hleft]
        exact hlt
      · rcases List.mem_cons.mp hother with rfl | hother
        · exact Nat.lt_succ_of_lt hlt
        · obtain ⟨r, hr, rfl⟩ := List.mem_map.mp hother
          exact Nat.lt_trans hlt (Nat.lt_of_succ_lt (hafter r hr))

/-! ### What a step keeps -/

/-- The text of a document, its white space apart. -/
def Review.visible (s : Review) : Text := s.texts.flatMap (ink Text.isSpace)

/-- The candidates a merge joins have no other part between them. -/
def Neighbours (s : Review) (call : Call) : Prop :=
  ∀ pair ∈ pairOf s.rows call, ∀ row ∈ s.own,
    ¬ (pair.1.position < row.position ∧ row.position < pair.2.position)

/-- The left part of a split is no longer than the span of its candidate. -/
def Fits (s : Review) (call : Call) : Prop :=
  call.operation = .split → ∀ c ∈ byId s.rows call.candidateId,
    c.sourceStart + (leftOf call c).length ≤ c.sourceEnd

/-- The spans of the parts lie one behind another. -/
structure Spans (s : Review) : Prop where
  ordered : ∀ row ∈ s.parts, row.sourceStart ≤ row.sourceEnd
  disjoint : s.parts.Pairwise fun x y => x.sourceEnd ≤ y.sourceStart

variable {call : Call}

theorem shifted_discarded (hne : row.id ≠ c.id) (h : row.status = .discarded) :
    shifted call c row = row := by
  rw [shifted, if_neg hne, if_neg fun hactive => by rw [h] at hactive; cases hactive.1]

theorem Kept.ne_of_status (h : Kept s) (hx : x ∈ s.rows) (hy : y ∈ s.rows)
    (hactive : x.status = .candidate) (hdiscarded : y.status = .discarded) : y.id ≠ x.id := by
  intro hid
  rw [h.eq_of_id hy hx hid, hactive] at hdiscarded
  cases hdiscarded

/-- A discarded row is never written again. -/
theorem Move.discarded (hk : Kept s) (h : Move s call t) (hrow : row ∈ s.rows)
    (hdiscarded : row.status = .discarded) : row ∈ t.rows := by
  cases h with
  | idle hfailed => exact hrow
  | @edited c new hop hc hactive hid hposition hbody hspan =>
    have hne : row.id ≠ new.id := hid ▸ hk.ne_of_status hc hrow hactive hdiscarded
    exact Rows.mem_update.mpr ⟨row, hrow, (if_neg (mt beq_iff_eq.mp hne)).symm⟩
  | @merged first second hpair hfirst hsecond hactive hactive' hne hle =>
    refine List.mem_map.mpr ⟨row, hrow, ?_⟩
    rw [mergedRow, if_neg (hk.ne_of_status hfirst hrow hactive hdiscarded),
      if_neg (hk.ne_of_status hsecond hrow hactive' hdiscarded)]
  | @split c hop hfound hc hactive hinside =>
    exact List.mem_append_left _ (List.mem_map.mpr ⟨row, hrow,
      shifted_discarded (hk.ne_of_status hc hrow hactive hdiscarded) hdiscarded⟩)

/-- The row a merge leaves of its second candidate. -/
theorem mem_merged_away (hsecond : second ∈ s.rows) (hne : second.id ≠ first.id) :
    away call first second ∈ s.rows.map (mergedRow call first second) := by
  refine List.mem_map.mpr ⟨second, hsecond, ?_⟩
  rw [mergedRow, if_neg hne, if_pos rfl]

theorem Kept.step (hk : Kept s) (h : Step s call t) : Kept t := by
  obtain ⟨hmove, hunique⟩ := step_move hk.toUnique h
  have hkeeps : ∀ id ∈ s.merged, ∃ row ∈ t.rows, row.id = id ∧ row.status = .discarded := by
    intro id hid
    obtain ⟨row, hrow, hrid, hdiscarded⟩ := hk.merged id hid
    exact ⟨row, hmove.discarded hk hrow hdiscarded, hrid, hdiscarded⟩
  refine ⟨hunique, ?_⟩
  cases hmove with
  | idle hfailed => exact hkeeps
  | edited hop hc hactive hid hposition hbody hspan => exact hkeeps
  | merged hpair hfirst hsecond hactive hactive' hne hle =>
    exact List.forall_mem_cons.mpr ⟨⟨_, mem_merged_away hsecond hne, rfl, rfl⟩, hkeeps⟩
  | split hop hfound hc hactive hinside => exact hkeeps

theorem alike_set (hk : Kept s) (hc : c ∈ s.rows) (hid : row.id = c.id) (halike : Alike c row) :
    ∀ r ∈ s.rows, Alike r (if r.id == row.id then row else r) := by
  intro r hr
  split
  · next heq =>
    obtain rfl := hk.eq_of_id hr hc ((beq_iff_eq.mp heq).trans hid)
    exact halike
  · exact .refl r

theorem texts_edited (hk : Kept s) (h : Changed s.rows f none)
    (halike : ∀ row ∈ s.rows, Alike row (f row)) :
    (⟨s.rows.map f, s.merged⟩ : Review).texts = s.texts := by
  rw [Review.texts, parts_edited hk h halike, List.map_map]
  exact List.map_congr_left fun row hrow => (halike row (mem_parts.mp hrow).1).body

theorem Spans.edited (hspans : Spans s) (hk : Kept s) (h : Changed s.rows f none)
    (halike : ∀ row ∈ s.rows, Alike row (f row)) :
    Spans (⟨s.rows.map f, s.merged⟩ : Review) := by
  refine ⟨?_, ?_⟩
  · rw [parts_edited hk h halike, List.forall_mem_map]
    intro row hrow
    have hrow' := halike row (mem_parts.mp hrow).1
    rw [hrow'.start, hrow'.stop]
    exact hspans.ordered row hrow
  · rw [parts_edited hk h halike, List.pairwise_map]
    refine hspans.disjoint.imp_of_mem fun hx hy hle => ?_
    rw [(halike _ (mem_parts.mp hx).1).stop, (halike _ (mem_parts.mp hy).1).start]
    exact hle

theorem merge_adjacent (hk : Kept s) (hneighbours : Neighbours s call)
    (hpair : pairOf s.rows call = some (first, second)) (hfirst : first ∈ s.rows)
    (hsecond : second ∈ s.rows) (hactive : first.status = .candidate)
    (hactive' : second.status = .candidate) (hne : second.id ≠ first.id)
    (hle : first.position ≤ second.position) :
    ∃ pre post, s.parts = pre ++ first :: second :: post := by
  refine adjacent hk.sorted (hk.active_mem_parts hfirst hactive)
    (hk.active_mem_parts hsecond hactive') ?_ fun row hrow => ?_
  · refine Nat.lt_of_le_of_ne hle fun heq => hne ?_
    rw [hk.eq_of_position hfirst hsecond heq]
  · exact hneighbours (first, second) hpair row ((perm_parts s).mem_iff.mp hrow)

theorem strip_parts (x y : Text) : ∃ u v : Text, (∀ c ∈ u, Text.isSpace c = true) ∧
    (∀ c ∈ v, Text.isSpace c = true) ∧ x = Text.rstrip x ++ u ∧ y = v ++ Text.lstrip y := by
  obtain ⟨u, hu, hx⟩ := Text.rstrip_prefix x
  obtain ⟨v, hv, hy, -⟩ := Text.dropWhile_split Text.isSpace y
  exact ⟨u, v, hu, hv, hx, hy⟩

theorem blankLine_isSpace : ∀ c ∈ "\n\n".toList, Text.isSpace c = true := by
  have hall : (['\n', '\n'].all Text.isSpace) = true := rfl
  exact List.all_eq_true.mp hall

/-- **A merge of neighbours** changes white space at its seam alone. -/
theorem reseam_merged (hk : Kept s) (hne : second.id ≠ first.id)
    (hparts : s.parts = pre ++ first :: second :: post) :
    Reseam Text.isSpace s.texts
      (⟨s.rows.map (mergedRow call first second), second.id :: s.merged⟩ : Review).texts := by
  obtain ⟨u, v, hu, hv, hfirst, hsecond⟩ := strip_parts first.bodyMd second.bodyMd
  have hjoin := Ink.Joined.intro (pre.map (·.bodyMd)) (post.map (·.bodyMd))
    (a := Text.rstrip first.bodyMd) (b := Text.lstrip second.bodyMd) hu hv blankLine_isSpace
  rw [← hfirst, ← hsecond] at hjoin
  rw [Review.texts, Review.texts, hparts, parts_merged hk hne hparts, List.map_append,
    List.map_append, List.map_cons, List.map_cons, List.map_cons]
  exact .inl hjoin

theorem Kept.later_ne (hk : Kept s) (hc : c ∈ s.rows) (hparts : s.parts = pre ++ c :: post)
    (hrow : row ∈ post) : row.id ≠ c.id := by
  have hsorted := hk.sorted
  rw [hparts] at hsorted
  have hlt := (List.pairwise_cons.mp (List.pairwise_append.mp hsorted).2.1).1 row hrow
  have hmem : row ∈ s.parts := by
    rw [hparts]
    exact List.mem_append_right _ (List.mem_cons_of_mem c hrow)
  exact fun hid => Nat.lt_irrefl _ (hk.eq_of_id (mem_parts.mp hmem).1 hc hid ▸ hlt)

theorem shifted_of_ne (hne : row.id ≠ c.id) :
    (shifted call c row).bodyMd = row.bodyMd ∧
      (shifted call c row).sourceStart = row.sourceStart ∧
      (shifted call c row).sourceEnd = row.sourceEnd := by
  rw [shifted, if_neg hne]
  split <;> exact ⟨rfl, rfl, rfl⟩

/-- **A split** does too. -/
theorem reseam_split (hk : Kept s) (hc : c ∈ s.rows) (hnew : call.newId ∉ s.rows.map (·.id))
    (hunique : Unique (s.rows.map (shifted call c) ++ [continued call c]))
    (hparts : s.parts = pre ++ c :: post) :
    Reseam Text.isSpace s.texts
      (⟨s.rows.map (shifted call c) ++ [continued call c], s.merged⟩ : Review).texts := by
  obtain ⟨u, v, hu, hv, hleft, hright⟩ := strip_parts
    (c.bodyMd.take (boundary call c).toNat) (c.bodyMd.drop (boundary call c).toNat)
  have hbody : c.bodyMd = leftOf call c ++ ((u ++ v) ++ rightOf call c) := by
    conv_lhs => rw [← List.take_append_drop (boundary call c).toNat c.bodyMd, hleft, hright]
    rw [leftOf, rightOf, List.append_assoc, List.append_assoc]
  have hpost : (post.map (shifted call c)).map (·.bodyMd) = post.map (·.bodyMd) := by
    rw [List.map_map]
    refine List.map_congr_left fun row hrow => ?_
    exact (shifted_of_ne (hk.later_ne hc hparts hrow)).1
  have hjoin := Ink.Joined.intro (pre.map (·.bodyMd)) (post.map (·.bodyMd))
    (a := leftOf call c) (u := []) (v := []) (b := rightOf call c) (List.forall_mem_nil _)
    (List.forall_mem_nil _) (List.forall_mem_append.mpr ⟨hu, hv⟩)
  rw [← hbody, List.append_nil] at hjoin
  have hself : (shifted call c c).bodyMd = leftOf call c := by
    rw [shifted, if_pos rfl]
  rw [Review.texts, Review.texts, hparts, parts_split hk hc hnew hunique hparts, List.map_append,
    List.map_append, List.map_cons, List.map_cons, List.map_cons, hself, hpost]
  exact .inr hjoin

theorem perm_visible (s : Review) :
    s.visible.Perm (s.own.flatMap fun row => ink Text.isSpace row.bodyMd) := by
  rw [Review.visible, Review.texts, List.flatMap_map]
  exact (perm_parts s).flatMap_right _

theorem ink_joined (call : Call) (first second : Candidate) :
    ink Text.isSpace (joined call first second).bodyMd =
      ink Text.isSpace first.bodyMd ++ ink Text.isSpace second.bodyMd := by
  obtain ⟨u, v, hu, hv, hfirst, hsecond⟩ := strip_parts first.bodyMd second.bodyMd
  conv_rhs => rw [hfirst, hsecond]
  rw [joined, Ink.ink_append, Ink.ink_append, Ink.ink_append, Ink.ink_append,
    Ink.ink_blanks blankLine_isSpace, Ink.ink_blanks hu, Ink.ink_blanks hv, List.append_nil,
    List.nil_append]

/-- **A merge** of any two candidates loses no text and doubles none. -/
theorem perm_merged (hk : Kept s) (hfirst : first ∈ s.rows) (hsecond : second ∈ s.rows)
    (hactive : first.status = .candidate) (hactive' : second.status = .candidate)
    (hne : second.id ≠ first.id) :
    (⟨s.rows.map (mergedRow call first second), second.id :: s.merged⟩ : Review).visible.Perm
      s.visible := by
  have hown : (s.own.map (·.id)).Nodup := hk.ids.sublist (List.filter_sublist.map _)
  have hfirst' : first ∈ s.own := mem_own.mpr ⟨hfirst, hk.not_merged hfirst hactive⟩
  have hsecond' : second ∈ s.own := mem_own.mpr ⟨hsecond, hk.not_merged hsecond hactive'⟩
  -- the own rows are the second one, the first one and the rest
  obtain ⟨rest, hrest⟩ : ∃ rest, s.own.Perm (second :: rest) :=
    ⟨_, List.perm_cons_erase hsecond'⟩
  have hnodup : ((second :: rest).map (·.id)).Nodup := (hrest.map (·.id)).nodup_iff.mp hown
  rw [List.map_cons, List.nodup_cons] at hnodup
  have hothers : ∀ row ∈ rest, (row.id != second.id) = true := by
    intro row hrow
    rw [bne_iff_ne]
    intro hid
    exact hnodup.1 (List.mem_map.mpr ⟨row, hrow, hid⟩)
  have hfilter : (s.own.filter fun row => row.id != second.id).Perm rest := by
    have hall := hrest.filter fun row => row.id != second.id
    rwa [List.filter_cons, if_neg (by simp), List.filter_eq_self.mpr hothers] at hall
  have hin : first ∈ rest := hfilter.mem_iff.mp
    (List.mem_filter.mpr ⟨hfirst', bne_iff_ne.mpr (Ne.symm hne)⟩)
  obtain ⟨others, hothers'⟩ : ∃ others, rest.Perm (first :: others) :=
    ⟨_, List.perm_cons_erase hin⟩
  have hnodup' : ((first :: others).map (·.id)).Nodup :=
    (hothers'.map (·.id)).nodup_iff.mp hnodup.2
  rw [List.map_cons, List.nodup_cons] at hnodup'
  have hfix : others.map (mergedRow call first second) = others := by
    refine (List.map_congr_left fun row hrow => ?_).trans (List.map_id' _)
    have hrow' : row ∈ rest := hothers'.mem_iff.mpr (List.mem_cons_of_mem _ hrow)
    rw [mergedRow, if_neg fun hid => hnodup'.1 (List.mem_map.mpr ⟨row, hrow, hid⟩),
      if_neg (bne_iff_ne.mp (hothers row hrow'))]
  have hself : mergedRow call first second first = joined call first second := if_pos rfl
  have hafter : (⟨s.rows.map (mergedRow call first second), second.id :: s.merged⟩ :
      Review).own.Perm (joined call first second :: others) := by
    rw [own_map_merged changed_merge]
    have hall := (hfilter.trans hothers').map (mergedRow call first second)
    rwa [List.map_cons, hself, hfix] at hall
  have hbefore : s.own.Perm (first :: second :: others) :=
    (hrest.trans (hothers'.cons second)).trans (List.Perm.swap first second others)
  calc (⟨s.rows.map (mergedRow call first second), second.id :: s.merged⟩ : Review).visible
      |>.Perm ((joined call first second :: others).flatMap fun row =>
        ink Text.isSpace row.bodyMd) := (perm_visible _).trans (hafter.flatMap_right _)
    _ = (first :: second :: others).flatMap fun row => ink Text.isSpace row.bodyMd := by
        rw [List.flatMap_cons, ink_joined, List.flatMap_cons, List.flatMap_cons,
          List.append_assoc]
    _ |>.Perm s.visible := ((perm_visible s).trans (hbefore.flatMap_right _)).symm

theorem Spans.merged (hspans : Spans s) (hk : Kept s) (hne : second.id ≠ first.id)
    (hparts : s.parts = pre ++ first :: second :: post) :
    Spans (⟨s.rows.map (mergedRow call first second), second.id :: s.merged⟩ : Review) := by
  obtain ⟨hordered, hdisjoint⟩ := hspans
  rw [hparts] at hordered hdisjoint
  obtain ⟨hpre, hrest, hacross⟩ := List.pairwise_append.mp hdisjoint
  obtain ⟨hbehind, hrest⟩ := List.pairwise_cons.mp hrest
  obtain ⟨hbehind', hpost⟩ := List.pairwise_cons.mp hrest
  have hfirst := hordered first (by simp)
  have hsecond := hordered second (by simp)
  have hstep := hbehind second List.mem_cons_self
  have hstop : (joined call first second).sourceEnd = second.sourceEnd :=
    Nat.max_eq_right (hstep.trans hsecond)
  refine ⟨?_, ?_⟩
  · rw [parts_merged hk hne hparts]
    intro row hrow
    rcases List.mem_append.mp hrow with hrow | hrow
    · exact hordered row (by simp [hrow])
    · rcases List.mem_cons.mp hrow with rfl | hrow
      · rw [hstop]
        exact (hfirst.trans hstep).trans hsecond
      · exact hordered row (by simp [hrow])
  · rw [parts_merged hk hne hparts]
    refine List.pairwise_append.mpr ⟨hpre, List.pairwise_cons.mpr ⟨?_, hpost⟩, ?_⟩
    · intro row hrow
      rw [hstop]
      exact hbehind' row hrow
    · intro row hrow other hother
      rcases List.mem_cons.mp hother with rfl | hother
      · exact hacross row hrow first List.mem_cons_self
      · exact hacross row hrow other (by simp [hother])

theorem Spans.split (hspans : Spans s) (hk : Kept s) (hc : c ∈ s.rows)
    (hnew : call.newId ∉ s.rows.map (·.id))
    (hunique : Unique (s.rows.map (shifted call c) ++ [continued call c]))
    (hparts : s.parts = pre ++ c :: post)
    (hfits : c.sourceStart + (leftOf call c).length ≤ c.sourceEnd) :
    Spans (⟨s.rows.map (shifted call c) ++ [continued call c], s.merged⟩ : Review) := by
  obtain ⟨hordered, hdisjoint⟩ := hspans
  rw [hparts] at hordered hdisjoint
  obtain ⟨hpre, hrest, hacross⟩ := List.pairwise_append.mp hdisjoint
  obtain ⟨hbehind, hpost⟩ := List.pairwise_cons.mp hrest
  have hself : shifted call c c = { c with
      bodyMd := leftOf call c
      sourceEnd := c.sourceStart + (leftOf call c).length } := if_pos rfl
  have hmoved : ∀ row ∈ post, (shifted call c row).sourceStart = row.sourceStart ∧
      (shifted call c row).sourceEnd = row.sourceEnd := fun row hrow =>
    (shifted_of_ne (hk.later_ne hc hparts hrow)).2
  refine ⟨?_, ?_⟩
  · rw [parts_split hk hc hnew hunique hparts, hself]
    intro row hrow
    rcases List.mem_append.mp hrow with hrow | hrow
    · exact hordered row (by simp [hrow])
    · rcases List.mem_cons.mp hrow with rfl | hrow
      · exact Nat.le_add_right _ _
      · rcases List.mem_cons.mp hrow with rfl | hrow
        · exact hfits
        · obtain ⟨r, hr, rfl⟩ := List.mem_map.mp hrow
          rw [(hmoved r hr).1, (hmoved r hr).2]
          exact hordered r (by simp [hr])
  · rw [parts_split hk hc hnew hunique hparts, hself]
    refine List.pairwise_append.mpr ⟨hpre, List.pairwise_cons.mpr ⟨?_, ?_⟩, ?_⟩
    · intro row hrow
      rcases List.mem_cons.mp hrow with rfl | hrow
      · exact Nat.le_refl _
      · obtain ⟨r, hr, rfl⟩ := List.mem_map.mp hrow
        rw [(hmoved r hr).1]
        exact hfits.trans (hbehind r hr)
    · refine List.pairwise_cons.mpr ⟨?_, ?_⟩
      · intro row hrow
        obtain ⟨r, hr, rfl⟩ := List.mem_map.mp hrow
        rw [(hmoved r hr).1]
        exact hbehind r hr
      · rw [List.pairwise_map]
        refine hpost.imp_of_mem fun hx hy hle => ?_
        rw [(hmoved _ hx).2, (hmoved _ hy).1]
        exact hle
    · intro row hrow other hother
      have hbefore := hacross row hrow c List.mem_cons_self
      rcases List.mem_cons.mp hother with rfl | hother
      · exact hbefore
      · rcases List.mem_cons.mp hother with rfl | hother
        · exact hbefore.trans (Nat.le_add_right _ _)
        · obtain ⟨r, hr, rfl⟩ := List.mem_map.mp hother
          rw [(hmoved r hr).1]
          exact hacross row hrow r (by simp [hr])

theorem flush_merged (h : Unique rows) (hfirst : first ∈ rows) (hsecond : second ∈ rows) :
    flush rows (rows.map (mergedRow call first second)) =
      some (rows.map (mergedRow call first second)) := by
  refine flush_unmoved h changed_merge fun r hr => ?_
  rw [mergedRow]
  split
  · next heq =>
    rw [h.eq_of_id hr hfirst heq]
    rfl
  · split
    · next heq =>
      rw [h.eq_of_id hr hsecond heq]
      rfl
    · rfl

theorem not_stopped (h : Unique rows) (hop : call.operation ≠ .split) :
    reviewCandidate rows call ≠ .error .uniqueViolation := by
  rw [reviewCandidate]
  cases call.refusal with
  | some refusal => nofun
  | none =>
    cases hmodified : modified rows call with
    | error refusal => nofun
    | ok changed =>
      have hwritten : flush rows changed = some changed := by
        obtain ⟨c, hc, -, hactive, heffect⟩ := modified_cases hmodified
        cases heffect with
        | @kept row hop hid hposition hbody hspan hstatus =>
          refine flush_unmoved h (changed_set row) fun r hr => ?_
          split
          · next heq =>
            rw [h.eq_of_id hr hc ((beq_iff_eq.mp heq).trans hid)]
            exact hposition
          · rfl
        | @merged other hop hother =>
          obtain ⟨hmem, -, hne⟩ := mem_of_otherOf hother
          rcases inOrder_cases c other with ⟨horder, -⟩ | ⟨horder, -⟩
          · rw [horder, set_set_eq_map call hne]
            exact flush_merged h hc hmem
          · rw [horder, set_set_eq_map call (Ne.symm hne)]
            exact flush_merged h hmem hc
        | split hsplit => exact absurd hsplit hop
      dsimp only
      rw [hwritten]
      nofun

/-- The candidate that a merge puts into another is there, discarded, with its text. -/
def StillThere (s : Review) (pair : Candidate × Candidate) : Prop :=
  ∃ row ∈ s.rows, row.id = pair.2.id ∧ row.status = .discarded ∧ row.bodyMd = pair.2.bodyMd

/-- **What a review keeps**: the constraint, all of the text, the candidates merged away, and where
merges join neighbours the text in order; where the left parts of splits fit their spans, the spans
one behind another. -/
structure Conserved (s₀ : Review) (tr : List (Review × Call)) (s : Review) : Prop where
  unique : Unique s.rows
  unstopped : ∀ call, call.operation ≠ .split →
    reviewCandidate s.rows call ≠ .error .uniqueViolation
  text : s.visible.Perm s₀.visible
  mergedAway : ∀ p ∈ tr, ∀ rows, reviewCandidate p.1.rows p.2 = .ok rows →
    ∀ pair ∈ pairOf p.1.rows p.2, StillThere s pair
  inOrder : Throughout Neighbours tr →
    Relation.ReflTransGen (Reseam Text.isSpace) s₀.texts s.texts ∧ s.visible = s₀.visible
  spans : Throughout (fun s call => Neighbours s call ∧ Fits s call) tr → Spans s₀ → Spans s

/-- One step of a review. -/
structure Preserved (s : Review) (call : Call) (t : Review) : Prop where
  text : t.visible.Perm s.visible
  inOrder : Neighbours s call → Relation.ReflTransGen (Reseam Text.isSpace) s.texts t.texts
  spans : Neighbours s call → Fits s call → Spans s → Spans t

/-- **What a call keeps.** -/
theorem step_preserved (hk : Kept s) (h : Step s call t) : Preserved s call t := by
  obtain ⟨hmove, hunique⟩ := step_move hk.toUnique h
  cases hmove with
  | idle hfailed => exact ⟨.refl _, fun _ => .refl, fun _ _ => id⟩
  | @edited c row hop hc hactive hid hposition hbody hspan =>
    have halike := alike_set hk hc hid ⟨hposition, hbody, hspan.1, hspan.2⟩
    have htexts : (⟨set row s.rows, s.merged⟩ : Review).texts = s.texts :=
      texts_edited hk (changed_set row) halike
    refine ⟨?_, fun _ => ?_, fun _ _ hspans => hspans.edited hk (changed_set row) halike⟩
    · rw [Review.visible, htexts]
      exact .refl _
    · rw [htexts]
  | @merged first second hpair hfirst hsecond hactive hactive' hne hle =>
    have hadjacent := fun hneighbours =>
      merge_adjacent hk hneighbours hpair hfirst hsecond hactive hactive' hne hle
    refine ⟨perm_merged hk hfirst hsecond hactive hactive' hne, fun hneighbours => ?_,
      fun hneighbours _ hspans => ?_⟩
    · obtain ⟨pre, post, hparts⟩ := hadjacent hneighbours
      exact .single (reseam_merged hk hne hparts)
    · obtain ⟨pre, post, hparts⟩ := hadjacent hneighbours
      exact hspans.merged hk hne hparts
  | @split c hop hfound hc hactive hinside =>
    obtain ⟨pre, post, hparts⟩ := List.append_of_mem (hk.active_mem_parts hc hactive)
    have hreseam := reseam_split hk hc h.1 hunique hparts
    refine ⟨?_, fun _ => .single hreseam, fun _ hfits hspans => ?_⟩
    · rw [Review.visible, Review.visible, Ink.reseams_ink_eq (.single hreseam)]
    · exact hspans.split hk hc h.1 hunique hparts (hfits hop c hfound)

theorem pairOf_merge {pair : Candidate × Candidate} (h : pair ∈ pairOf s.rows call) :
    call.operation = .merge := by
  by_contra hop
  rw [pairOf, if_neg hop] at h
  cases h

/-- **A merge** keeps the candidate it merges away. -/
theorem step_mergedAway (hk : Kept s) (h : Step s call t) {written : List Candidate}
    (hok : reviewCandidate s.rows call = .ok written) {pair : Candidate × Candidate}
    (hpair : pair ∈ pairOf s.rows call) : StillThere t pair := by
  have hop := pairOf_merge hpair
  obtain ⟨hmove, -⟩ := step_move hk.toUnique h
  cases hmove with
  | idle hfailed => exact absurd hok (hfailed written)
  | edited hother hc hactive hid hposition hbody hspan => exact absurd hop hother.1
  | merged hfound hfirst hsecond hactive hactive' hne hle =>
    obtain rfl := Option.some.inj (hfound.symm.trans hpair)
    exact ⟨_, mem_merged_away hsecond hne, rfl, rfl, rfl⟩
  | split hsplit hfound hc hactive hinside =>
    rw [hop] at hsplit
    cases hsplit

theorem StillThere.step {pair : Candidate × Candidate} (hs : StillThere s pair) (hk : Kept s)
    (h : Step s call t) : StillThere t pair := by
  obtain ⟨row, hrow, hid, hdiscarded, hbody⟩ := hs
  exact ⟨row, (step_move hk.toUnique h).1.discarded hk hrow hdiscarded, hid, hdiscarded, hbody⟩

/-- **The text of a document under review** is conserved over every run of calls. -/
theorem review_conserves {s₀ s : Review} {tr : List (Review × Call)}
    (r : Run (fun s => s = s₀ ∧ Starts s) Step tr s) : Conserved s₀ tr s := by
  have hall : Kept s ∧ Conserved s₀ tr s := by
    refine r.along (C := fun _ _ => True) (J := fun tr s => Kept s ∧ Conserved s₀ tr s) ?_ ?_
      fun _ _ => trivial
    · rintro s ⟨rfl, hunique, hmerged⟩
      refine ⟨⟨hunique, hmerged ▸ List.forall_mem_nil _⟩, hunique,
        fun _ hop => not_stopped hunique hop, .refl _, List.forall_mem_nil _,
        fun _ => ⟨.refl, rfl⟩, fun _ => id⟩
    · rintro tr s call t ⟨hk, hs⟩ - hstep
      have hkept := hk.step hstep
      have hpreserved := step_preserved hk hstep
      have horder : Throughout Neighbours ((s, call) :: tr) →
          Relation.ReflTransGen (Reseam Text.isSpace) s₀.texts t.texts := fun hall =>
        (hs.inOrder hall.tail).1.trans (hpreserved.inOrder hall.head)
      refine ⟨hkept, hkept.toUnique, fun _ hop => not_stopped hkept.toUnique hop,
        hpreserved.text.trans hs.text, List.forall_mem_cons.mpr ⟨?_, ?_⟩,
        fun hall => ⟨horder hall, ?_⟩, fun hall hspans => ?_⟩
      · exact fun rows hok pair hpair => step_mergedAway hk hstep hok hpair
      · intro p hp rows hok pair hpair
        exact (hs.mergedAway p hp rows hok pair hpair).step hk hstep
      · exact (Ink.reseams_ink_eq (horder hall)).symm
      · exact hpreserved.spans hall.head.1 hall.head.2 (hs.spans hall.tail hspans)
  exact hall.2

/-! ### Two parts of a document -/

def part (id position : Nat) (body : String) (start stop : Nat) (status : CandidateStatus) :
    Candidate :=
  ⟨id, position, "Part".toList, body.toList, start, stop, none, [], status, []⟩

def splitAt (id : Id) (place : Int) (newId : Id) : Call :=
  ⟨none, .split, id, none, none, some place, .ok [], none, newId⟩

def mergeOf (id other : Id) : Call := ⟨none, .merge, id, some other, none, none, .ok [], none, 0⟩

def twoParts : Review :=
  ⟨[part 1 1 "abcdef" 0 6 .candidate, part 2 2 "later" 6 11 .candidate], []⟩

def threeParts : Review := twoParts.after (splitAt 1 3 3)

theorem twoParts_conserved :
    Conserved twoParts [(threeParts, mergeOf 3 2), (twoParts, splitAt 1 3 3)]
      (threeParts.after (mergeOf 3 2)) :=
  review_conserves (.next (.next (.start ⟨rfl, ⟨by decide, by decide⟩, rfl⟩) ⟨by decide, rfl⟩)
    ⟨by decide +kernel, rfl⟩)

/-- The rows of a successful call, read in order with those that were merged away. -/
def everyText (rows : List Candidate) (call : Call) : Option Text :=
  (reviewCandidate rows call).toOption.map fun rows =>
    (rows.insertionSort fun x y => x.position ≤ y.position).flatMap (·.bodyMd)

/-- A split before a discarded part and one before two active ones meet the constraint, a part
merged away keeps its text, and the right part of a split that takes more than the span ends before
it starts. -/
theorem review_unconserved :
    flush [part 1 1 "abcdef" 0 6 .candidate, part 2 2 "x" 6 7 .discarded]
        ([part 1 1 "abcdef" 0 6 .candidate, part 2 2 "x" 6 7 .discarded].map
          (shifted (splitAt 1 3 3) (part 1 1 "abcdef" 0 6 .candidate)) ++
            [continued (splitAt 1 3 3) (part 1 1 "abcdef" 0 6 .candidate)]) = none ∧
      (reviewCandidate [part 1 1 "abcdef" 0 6 .candidate, part 2 2 "x" 6 7 .discarded]
        (splitAt 1 3 3)).toOption = none ∧
      (reviewCandidate [part 1 1 "abcdef" 0 6 .candidate, part 2 2 "x" 6 7 .candidate,
        part 3 3 "y" 7 8 .candidate] (splitAt 1 3 4)).toOption = none ∧
      everyText [part 1 1 "A" 0 1 .candidate, part 2 2 "B" 1 2 .candidate] (mergeOf 1 2) =
        some "A\n\nBB".toList ∧
      (reviewCandidate [part 1 1 "A\n\nBCD" 0 4 .candidate] (splitAt 1 5 2)).toOption.map
        (List.map fun row => (row.sourceStart, row.sourceEnd)) = some [(0, 5), (5, 4)] := by
  decide +kernel

end QnscKb.Candidates
