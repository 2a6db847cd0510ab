import Mathlib.Data.List.TakeDrop

/-!
# Pieces — a list cut into pieces

Edits of a list that is kept as the pieces it was cut into.
-/

namespace QnscKb.Pieces

variable {α : Type} {pieces cur : List (List α)}

/-! ### Positions -/

/-- The position at which piece `i` begins. -/
def offset (pieces : List (List α)) (i : Nat) : Nat := (pieces.take i).flatten.length

variable {i last : Nat} {piece : List α}

theorem offset_succ (h : pieces[i]? = some piece) :
    offset pieces (i + 1) = offset pieces i + piece.length := by
  rw [offset, List.take_add_one, h]
  simp [offset]

theorem offset_mono (pieces : List (List α)) {j : Nat} (h : i ≤ j) :
    offset pieces i ≤ offset pieces j := by
  have hsplit : pieces.take j = pieces.take i ++ (pieces.take j).drop i := by
    conv_lhs => rw [← List.take_append_drop i (pieces.take j)]
    rw [List.take_take, Nat.min_eq_left h]
  rw [offset, offset, hsplit, List.flatten_append, List.length_append]
  exact Nat.le_add_right _ _

theorem offset_length (pieces : List (List α)) :
    offset pieces pieces.length = pieces.flatten.length := by
  rw [offset, List.take_length]

theorem eq_take_cons_drop (h : pieces[i]? = some piece) :
    pieces = pieces.take i ++ piece :: pieces.drop (i + 1) := by
  obtain ⟨hi, rfl⟩ := List.getElem?_eq_some_iff.mp h
  rw [List.cons_getElem_drop_succ, List.take_append_drop]

/-- The list before a position, from the piece that holds it. -/
theorem take_flatten {start : Nat} (h : pieces[i]? = some piece) (hlow : offset pieces i ≤ start)
    (hhigh : start ≤ offset pieces i + piece.length) :
    pieces.flatten.take start =
      (pieces.take i).flatten ++ piece.take (start - offset pieces i) := by
  conv_lhs => rw [eq_take_cons_drop h, List.flatten_append, List.flatten_cons]
  have hpiece : start - (pieces.take i).flatten.length ≤ piece.length :=
    Nat.sub_le_iff_le_add'.mpr hhigh
  rw [List.take_append, List.take_of_length_le hlow, List.take_append_of_le_length hpiece]
  rfl

/-- The list after it. -/
theorem drop_flatten {stop : Nat} (h : pieces[i]? = some piece) (hlow : offset pieces i ≤ stop)
    (hhigh : stop ≤ offset pieces i + piece.length) :
    pieces.flatten.drop stop =
      piece.drop (stop - offset pieces i) ++ (pieces.drop (i + 1)).flatten := by
  conv_lhs => rw [eq_take_cons_drop h, List.flatten_append, List.flatten_cons]
  have hpiece : stop - (pieces.take i).flatten.length ≤ piece.length :=
    Nat.sub_le_iff_le_add'.mpr hhigh
  rw [List.drop_append, List.drop_of_length_le hlow, List.nil_append,
    List.drop_append_of_le_length hpiece]
  rfl

/-! ### Spreading an edit over pieces -/

/-- `head` goes into piece `first` and `tail` into piece `last`, the same or a later one. -/
def spread (pieces : List (List α)) (first last : Nat) (head tail : List α) : List (List α) :=
  pieces.mapIdx fun i piece =>
    if i = first then head ++ if first = last then tail else []
    else if first < i ∧ i < last then []
    else if i = last then tail
    else piece

theorem mapIdx_self (pieces : List (List α)) : pieces.mapIdx (fun _ piece => piece) = pieces :=
  List.ext_getElem? fun i => by simp

theorem flatten_clear (pieces : List (List α)) (h : last < pieces.length) (tail : List α) :
    (pieces.mapIdx fun i piece => if i < last then [] else if i = last then tail else piece).flatten =
      tail ++ (pieces.drop (last + 1)).flatten := by
  induction pieces generalizing last with
  | nil => exact absurd h (Nat.not_lt_zero _)
  | cons piece pieces ih =>
    rw [List.mapIdx_cons]
    cases last with
    | zero => simp [mapIdx_self]
    | succ last =>
      have hrest := ih (show last < pieces.length by simpa using h)
      simp only [Nat.add_lt_add_iff_right, Nat.add_right_cancel_iff, Nat.zero_lt_succ, if_true,
        List.flatten_cons, List.nil_append, List.drop_succ_cons]
      exact hrest

theorem flatten_spread (pieces : List (List α)) {first : Nat} (h : first ≤ last)
    (hlast : last < pieces.length) (head tail : List α) :
    (spread pieces first last head tail).flatten =
      (pieces.take first).flatten ++ (head ++ (tail ++ (pieces.drop (last + 1)).flatten)) := by
  induction pieces generalizing first last with
  | nil => exact absurd hlast (Nat.not_lt_zero _)
  | cons piece pieces ih =>
    cases first with
    | zero =>
      cases last with
      | zero => simp [spread, mapIdx_self]
      | succ last =>
        have hclear :=
          flatten_clear pieces (show last < pieces.length by simpa using hlast) tail
        simpa [spread] using hclear
    | succ first =>
      cases last with
      | zero => exact absurd h (Nat.not_succ_le_zero _)
      | succ last =>
        have hrest := ih (show first ≤ last by omega)
          (show last < pieces.length by simpa using hlast)
        simpa [spread] using hrest

theorem getElem?_spread (pieces : List (List α)) (first last : Nat) (head tail : List α) (i : Nat) :
    (spread pieces first last head tail)[i]? = (pieces[i]?).map fun piece =>
      if i = first then head ++ if first = last then tail else []
      else if first < i ∧ i < last then []
      else if i = last then tail
      else piece :=
  List.getElem?_mapIdx

theorem getElem?_spread_of_lt (pieces : List (List α)) {first : Nat} (hi : i < first)
    (h : first ≤ last) (head tail : List α) :
    (spread pieces first last head tail)[i]? = pieces[i]? := by
  rw [getElem?_spread]
  simp [Nat.ne_of_lt hi, show ¬first < i by omega, show i ≠ last by omega]

/-! ### Pieces edited from the right -/

/-- The pieces are as they were up to a position of the list: whole before the piece that holds it,
and in part there. -/
structure KeptTo (pieces cur : List (List α)) (bound : Nat) : Prop where
  length : cur.length = pieces.length
  whole : ∀ i, offset pieces (i + 1) ≤ bound → cur[i]? = pieces[i]?
  part : ∀ i piece, pieces[i]? = some piece → offset pieces i ≤ bound →
    ∃ now, cur[i]? = some now ∧
      now.take (bound - offset pieces i) = piece.take (bound - offset pieces i)

theorem KeptTo.refl (pieces : List (List α)) (bound : Nat) : KeptTo pieces pieces bound :=
  ⟨rfl, fun _ _ => rfl, fun _ piece h _ => ⟨piece, h, rfl⟩⟩

theorem take_of_take {a b : List α} {m n : Nat} (h : a.take n = b.take n) (hmn : m ≤ n) :
    a.take m = b.take m := by
  rw [← Nat.min_eq_left hmn, ← List.take_take, ← List.take_take, h]

theorem length_of_take {a b : List α} {n : Nat} (h : a.take n = b.take n) (hb : n ≤ b.length) :
    n ≤ a.length := by
  have hlength := congrArg List.length h
  rw [List.length_take, List.length_take] at hlength
  omega

section

variable {bound start stop first last : Nat} {P Q : List α}

theorem KeptTo.offset_eq (h : KeptTo pieces cur bound) {i : Nat} (hi : offset pieces i ≤ bound) :
    offset cur i = offset pieces i := by
  have htake : cur.take i = pieces.take i := by
    refine List.ext_getElem? fun j => ?_
    rw [List.getElem?_take, List.getElem?_take]
    split
    · next hj => exact h.whole j (Nat.le_trans (offset_mono pieces hj) hi)
    · rfl
  rw [offset, offset, htake]

/-- **An edit of the list, spread over its pieces**, which are as they were up to where the edit
begins. -/
theorem KeptTo.spread_splice (h : KeptTo pieces cur bound) (hspan : start < stop)
    (hbound : stop ≤ bound) (hP : pieces[first]? = some P) (hfirst : offset pieces first ≤ start)
    (hfirst' : start < offset pieces first + P.length) (hQ : pieces[last]? = some Q)
    (hlast : offset pieces last < stop) (hlast' : stop ≤ offset pieces last + Q.length)
    (new : List α) :
    ∃ head tail, cur[first]? = some head ∧ cur[last]? = some tail ∧
      KeptTo pieces (spread cur first last (head.take (start - offset pieces first) ++ new)
        (tail.drop (stop - offset pieces last))) start ∧
      (spread cur first last (head.take (start - offset pieces first) ++ new)
        (tail.drop (stop - offset pieces last))).flatten =
          cur.flatten.take start ++ (new ++ cur.flatten.drop stop) := by
  have hle : first ≤ last := by
    by_contra hlt
    have hmono := offset_mono pieces (Nat.not_le.mp hlt)
    rw [offset_succ hQ] at hmono
    omega
  obtain ⟨head, hhead, hhead'⟩ := h.part first P hP (by omega)
  obtain ⟨tail, htail, htail'⟩ := h.part last Q hQ (by omega)
  have hheadLength : start - offset pieces first ≤ head.length :=
    length_of_take (take_of_take hhead' (by omega)) (by omega)
  have htailLength : stop - offset pieces last ≤ tail.length :=
    length_of_take (take_of_take htail' (by omega)) (by omega)
  have hfirstOffset := h.offset_eq (i := first) (by omega)
  have hlastOffset := h.offset_eq (i := last) (by omega)
  refine ⟨head, tail, hhead, htail, ⟨?_, ?_, ?_⟩, ?_⟩
  · rw [spread, List.length_mapIdx, h.length]
  · intro i hi
    have hlt : i < first := by
      by_contra hge
      have hmono : offset pieces (first + 1) ≤ offset pieces (i + 1) :=
        offset_mono pieces (by omega)
      rw [offset_succ hP] at hmono
      omega
    rw [getElem?_spread_of_lt cur hlt hle]
    exact h.whole i (by omega)
  · intro i piece hpiece hi
    have hle' : i ≤ first := by
      by_contra hgt
      have hmono := offset_mono pieces (Nat.not_le.mp hgt)
      rw [offset_succ hP] at hmono
      omega
    rcases Nat.lt_or_eq_of_le hle' with hlt | rfl
    · have hmono : offset pieces (i + 1) ≤ offset pieces first := offset_mono pieces hlt
      rw [getElem?_spread_of_lt cur hlt hle, h.whole i (by omega)]
      exact ⟨piece, hpiece, rfl⟩
    · rw [hP] at hpiece
      cases hpiece
      rw [getElem?_spread, hhead]
      refine ⟨_, rfl, ?_⟩
      beta_reduce
      rw [if_pos rfl, List.append_assoc, List.take_append_of_le_length (by simp [hheadLength]),
        List.take_take, Nat.min_self]
      exact take_of_take hhead' (by omega)
  · rw [flatten_spread cur hle (List.getElem?_eq_some_iff.mp htail).1,
      take_flatten hhead (by omega) (by omega), drop_flatten htail (by omega) (by omega),
      hfirstOffset, hlastOffset]
    simp only [List.append_assoc]

/-- A piece with no element in the span of an edit. -/
def Clear (pieces : List (List α)) (i start stop : Nat) : Prop :=
  ∀ piece, pieces[i]? = some piece → ∀ k, offset pieces i ≤ k → k < offset pieces i + piece.length →
    k < start ∨ stop ≤ k

theorem KeptTo.spread_of_clear (h : KeptTo pieces cur bound) (hspan : start < stop)
    (hbound : stop ≤ bound) (hP : pieces[first]? = some P) (hfirst : offset pieces first ≤ start)
    (hfirst' : start < offset pieces first + P.length) (hQ : pieces[last]? = some Q)
    (hlast : offset pieces last < stop) (hlast' : stop ≤ offset pieces last + Q.length)
    {i : Nat} (hclear : Clear pieces i start stop) (head tail : List α) :
    (spread cur first last head tail)[i]? = cur[i]? := by
  have hnotFirst : i ≠ first := by
    rintro rfl
    have hstart := hclear P hP start hfirst hfirst'
    omega
  have hnotLast : i ≠ last := by
    rintro rfl
    have hstop := hclear Q hQ (stop - 1) (by omega) (by omega)
    omega
  rw [getElem?_spread]
  by_cases hbetween : first < i ∧ i < last
  · -- A piece that lies within the span is clear of it only where it is empty.
    have hlow : offset pieces (first + 1) ≤ offset pieces i := offset_mono pieces hbetween.1
    have hhigh : offset pieces (i + 1) ≤ offset pieces last := offset_mono pieces hbetween.2
    rw [offset_succ hP] at hlow
    have hlt : i < pieces.length :=
      Nat.lt_trans hbetween.2 (List.getElem?_eq_some_iff.mp hQ).1
    obtain ⟨piece, hpiece⟩ : ∃ piece, pieces[i]? = some piece := ⟨_, List.getElem?_eq_getElem hlt⟩
    rw [h.whole i (by omega), hpiece]
    rw [offset_succ hpiece] at hhigh
    cases piece with
    | nil => simp [hnotFirst, hbetween]
    | cons a piece =>
      have hfirstChar := hclear (a :: piece) hpiece (offset pieces i) (Nat.le_refl _) (by simp)
      omega
  · cases cur[i]? with
    | none => rfl
    | some piece => simp [hnotFirst, hnotLast, hbetween]

end

end QnscKb.Pieces
