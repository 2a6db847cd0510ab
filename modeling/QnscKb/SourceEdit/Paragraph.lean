import Mathlib.Data.List.MinMax
import QnscKb.Lib.Pieces
import QnscKb.Lib.Runs
import QnscKb.SourceEdit.Occurrences

/-!
# Source edit — Paragraph

A paragraph of an Office document is cut into runs, and a match may begin in one of them and end in
another.  The setter of an element's text raises on a character that XML does not allow; which these
are is a parameter, and `xmlLegal` is what `lxml` takes.
-/

namespace QnscKb.SourceEdit

open Pieces
open Runs (bind_ok_iff)

/-! ### Runs -/

/-- What the setter of an element's text raises. -/
inductive ValueError
  | notXml
  deriving DecidableEq

/-- The element that carries the text of a run; `preserve` is its `xml:space`.  Its text is one that
an XML document may hold. -/
structure Node (legal : Char → Bool) where
  text : Option Text
  preserve : Bool
  isXml : (text.getD []).all legal = true
  deriving DecidableEq

variable {legal : Char → Bool}

def Node.piece (node : Node legal) : Text := node.text.getD []

def Node.write (node : Node legal) (piece : Text) : Except ValueError (Node legal) :=
  if node.piece = piece then .ok node
  else if hlegal : piece.all legal = true then
    .ok
      { text := some piece
        preserve := node.preserve || piece != Text.strip piece
        isXml := hlegal }
  else .error .notXml

theorem Node.write_piece (node : Node legal) : node.write node.piece = .ok node := if_pos rfl

/-- A write that succeeds leaves the piece, and it is legal. -/
theorem Node.piece_write {node new : Node legal} {piece : Text} (h : node.write piece = .ok new) :
    new.piece = piece ∧ piece.all legal = true := by
  rw [Node.write] at h
  split at h
  · next heq =>
    obtain rfl := Except.ok.inj h
    exact ⟨heq, heq ▸ node.isXml⟩
  · split at h
    · next hlegal =>
      obtain rfl := Except.ok.inj h
      exact ⟨rfl, hlegal⟩
    · cases h

theorem Node.write_isOk (node : Node legal) {piece : Text} (h : piece.all legal = true) :
    ∃ new, node.write piece = .ok new := by
  rw [Node.write]
  split
  · exact ⟨node, rfl⟩
  · exact ⟨_, rfl⟩

def writeAll : List (Node legal) → List Text → Except ValueError (List (Node legal))
  | node :: nodes, piece :: pieces => do
    let node ← node.write piece
    let nodes ← writeAll nodes pieces
    .ok (node :: nodes)
  | nodes, _ => .ok nodes

def joined (texts : List (Node legal)) : Text := (texts.map Node.piece).flatten

/-! ### `_replace_in_paragraph` -/

def offsetsFrom (running : Nat) : List Text → List Nat
  | [] => []
  | piece :: pieces => running :: offsetsFrom (running + piece.length) pieces

/-- `max(i for i, offset in enumerate(offsets) if …)`. -/
def lastWhere (p : Nat → Bool) (offsets : List Nat) : Nat :=
  ((offsets.zipIdx.filter fun entry => p entry.1).map Prod.snd).max?.getD 0

/-- One match replaced; the offsets are those before any edit. -/
def replaceAt (item : Item) (offsets : List Nat) (start : Nat) (pieces : List Text) : List Text :=
  let stop := start + item.1.find.length
  let first := lastWhere (fun offset => offset ≤ start) offsets
  let last := lastWhere (fun offset => offset < stop) offsets
  let head := (pieces.getD first []).take (start - offsets.getD first 0)
  let tail := (pieces.getD last []).drop (stop - offsets.getD last 0)
  let pieces := pieces.set first (head ++ item.1.replace ++ if first = last then tail else [])
  let pieces := (List.range' (first + 1) (last - (first + 1))).foldl
    (fun pieces middle => pieces.set middle []) pieces
  if last ≠ first then pieces.set last tail else pieces

structure Paragraph (legal : Char → Bool) where
  texts : List (Node legal)
  counts : List Nat
  changed : Bool

/-- One replacement, the `index`-th. -/
def Paragraph.replace (p : Paragraph legal) (item : Item) (index : Nat) :
    Except ValueError (Paragraph legal) :=
  let pieces := p.texts.map Node.piece
  let starts := matchingStarts (joined p.texts) item
  if starts = [] then .ok p
  else do
    let texts ← writeAll p.texts (starts.foldr (replaceAt item (offsetsFrom 0 pieces)) pieces)
    .ok
      { texts
        counts := p.counts.modify index (· + starts.length)
        changed := true }

def Paragraph.replaceAll (p : Paragraph legal) (index : Nat) :
    List Item → Except ValueError (Paragraph legal)
  | [] => .ok p
  | item :: items => do
    let p ← p.replace item index
    p.replaceAll (index + 1) items

def replaceInParagraph (texts : List (Node legal)) (items : List Item) (counts : List Nat) :
    Except ValueError (Paragraph legal) :=
  Paragraph.replaceAll ⟨texts, counts, false⟩ 0 items

/-! ### The pieces a match lies in -/

theorem getElem?_offsetsFrom (pieces : List Text) (running i : Nat) :
    (offsetsFrom running pieces)[i]? =
      if i < pieces.length then some (running + offset pieces i) else none := by
  induction pieces generalizing running i with
  | nil => rfl
  | cons piece pieces ih =>
    cases i with
    | zero => rfl
    | succ i =>
      rw [offsetsFrom, List.getElem?_cons_succ, ih]
      simp [offset, Nat.add_assoc]

theorem lastWhere_spec {p : Nat → Bool} (pieces : List Text) (hzero : p 0 = true)
    (htotal : p pieces.flatten.length = false) :
    ∃ piece, pieces[lastWhere p (offsetsFrom 0 pieces)]? = some piece ∧
      p (offset pieces (lastWhere p (offsetsFrom 0 pieces))) = true ∧
      p (offset pieces (lastWhere p (offsetsFrom 0 pieces)) + piece.length) = false := by
  have hmem (i : Nat) : i ∈ (((offsetsFrom 0 pieces).zipIdx.filter fun entry => p entry.1).map
      Prod.snd) ↔ i < pieces.length ∧ p (offset pieces i) = true := by
    simp only [List.mem_map, List.mem_filter, List.mem_zipIdx_iff_getElem?, getElem?_offsetsFrom]
    constructor
    · rintro ⟨⟨o, j⟩, ⟨hentry, hp⟩, rfl⟩
      split at hentry
      · next hlt =>
        have ho : offset pieces j = o := by simpa using hentry
        exact ⟨hlt, by rwa [ho]⟩
      · cases hentry
    · rintro ⟨hlt, hp⟩
      exact ⟨(offset pieces i, i), ⟨by simp [hlt], hp⟩, rfl⟩
  have hpos : 0 < pieces.length := by
    rcases pieces with - | ⟨piece, pieces⟩
    · rw [List.flatten_nil, List.length_nil, hzero] at htotal
      cases htotal
    · exact Nat.zero_lt_succ _
  have hfirst := (hmem 0).mpr ⟨hpos, hzero⟩
  obtain ⟨m, hm⟩ := Option.isSome_iff_exists.mp (List.isSome_max?_of_mem hfirst)
  have hlast : lastWhere p (offsetsFrom 0 pieces) = m := by rw [lastWhere, hm, Option.getD_some]
  obtain ⟨hin, hmax⟩ := List.max?_eq_some_iff.mp hm
  obtain ⟨hlt, hp⟩ := (hmem m).mp hin
  rw [hlast]
  refine ⟨pieces[m], List.getElem?_eq_getElem hlt, hp, ?_⟩
  rw [← offset_succ (List.getElem?_eq_getElem hlt)]
  by_cases hend : m + 1 < pieces.length
  · -- The next piece would be a later one that meets the test.
    by_contra hnext
    have hle := hmax (m + 1) ((hmem (m + 1)).mpr ⟨hend, by simpa using hnext⟩)
    omega
  · rw [show m + 1 = pieces.length by omega, offset_length]
    exact htotal

theorem getElem?_set_map (pieces : List Text) (m i : Nat) (new : Text) :
    (pieces.set m new)[i]? = (pieces[i]?).map fun piece => if i = m then new else piece := by
  rw [List.getElem?_set]
  by_cases hmi : m = i
  · subst hmi
    by_cases hlt : m < pieces.length
    · simp [hlt]
    · simp [hlt]
  · rw [if_neg hmi]
    simp [show i ≠ m from fun him => hmi him.symm]

theorem getElem?_foldl_set (pieces : List Text) (from_ n i : Nat) :
    ((List.range' from_ n).foldl (fun pieces middle => pieces.set middle []) pieces)[i]? =
      (pieces[i]?).map fun piece => if from_ ≤ i ∧ i < from_ + n then [] else piece := by
  induction n generalizing from_ pieces with
  | zero =>
    rw [List.range'_zero, List.foldl_nil]
    cases pieces[i]? with
    | none => rfl
    | some piece =>
      rw [Option.map_some, if_neg]
      omega
  | succ n ih =>
    rw [List.range'_succ, List.foldl_cons, ih, getElem?_set_map, Option.map_map]
    refine congrArg (fun f => (pieces[i]?).map f) (funext fun piece => ?_)
    split_ifs <;> first | rfl | omega

theorem replaceAt_eq_spread (item : Item) {offsets : List Nat} {start first last : Nat}
    (hfirst : lastWhere (fun offset => offset ≤ start) offsets = first)
    (hlast : lastWhere (fun offset => offset < start + item.1.find.length) offsets = last)
    (hle : first ≤ last) (pieces : List Text) :
    replaceAt item offsets start pieces =
      spread pieces first last
        ((pieces.getD first []).take (start - offsets.getD first 0) ++ item.1.replace)
        ((pieces.getD last []).drop (start + item.1.find.length - offsets.getD last 0)) := by
  refine List.ext_getElem? fun i => ?_
  simp only [replaceAt, hfirst, hlast]
  rw [getElem?_spread]
  by_cases heq : first = last
  · rw [if_neg (not_not.mpr heq.symm), getElem?_foldl_set, getElem?_set_map, Option.map_map]
    refine congrArg (fun f => (pieces[i]?).map f) (funext fun piece => ?_)
    split_ifs <;> first | rfl | omega
  · rw [if_pos fun hlf => heq hlf.symm, getElem?_set_map, getElem?_foldl_set, getElem?_set_map,
      Option.map_map, Option.map_map]
    refine congrArg (fun f => (pieces[i]?).map f) (funext fun piece => ?_)
    split_ifs <;> first | rfl | omega

/-! ### All matches of a replacement -/

theorem getD_of {α : Type} {l : List α} {i : Nat} {a fallback : α} (h : l[i]? = some a) :
    l.getD i fallback = a := by
  rw [List.getD_eq_getElem?_getD, h, Option.getD_some]

/-- The matches of an item are replaced in the pieces as they are in the text; the pieces stay as
they were up to the first of them. -/
theorem foldr_replaceAt (item : Item) (pieces : List Text) {starts : List Nat}
    (h : Spaced item.1.find.length pieces.flatten.length starts) :
    (starts.foldr (replaceAt item (offsetsFrom 0 pieces)) pieces).flatten =
        starts.foldr (replaceMatch item) pieces.flatten ∧
      KeptTo pieces (starts.foldr (replaceAt item (offsetsFrom 0 pieces)) pieces)
        (nextStart pieces.flatten.length starts) ∧
      ∀ i, (∀ start ∈ starts, Clear pieces i start (start + item.1.find.length)) →
        (starts.foldr (replaceAt item (offsetsFrom 0 pieces)) pieces)[i]? = pieces[i]? := by
  induction starts with
  | nil => exact ⟨rfl, KeptTo.refl pieces _, fun _ _ => rfl⟩
  | cons start starts ih =>
    obtain ⟨hbound, hspaced⟩ := h
    obtain ⟨hflatten, hkept, hclear⟩ := ih hspaced
    have hlength := List.length_pos_iff.mpr item.2
    have hend := nextStart_le hspaced
    obtain ⟨P, hP, hlow, hhigh⟩ :=
      lastWhere_spec (p := fun offset => offset ≤ start) pieces
        (decide_eq_true (Nat.zero_le _)) (decide_eq_false (by omega))
    obtain ⟨Q, hQ, hlow', hhigh'⟩ :=
      lastWhere_spec (p := fun offset => offset < start + item.1.find.length) pieces
        (decide_eq_true (by omega)) (decide_eq_false (by omega))
    generalize hfirst : lastWhere (fun offset => offset ≤ start) (offsetsFrom 0 pieces) = first
      at hP hlow hhigh
    generalize hlast : lastWhere (fun offset => offset < start + item.1.find.length)
      (offsetsFrom 0 pieces) = last at hQ hlow' hhigh'
    simp only [decide_eq_true_eq, decide_eq_false_iff_not, not_le, not_lt] at hlow hhigh hlow' hhigh'
    have hle : first ≤ last := by
      by_contra hlt
      have hmono : offset pieces (last + 1) ≤ offset pieces first :=
        offset_mono pieces (Nat.not_le.mp hlt)
      rw [offset_succ hQ] at hmono
      omega
    have hspan : start < start + item.1.find.length := by omega
    obtain ⟨head, tail, hhead, htail, hkept', hflatten'⟩ :=
      hkept.spread_splice hspan hbound hP hlow hhigh hQ hlow' hhigh' item.1.replace
    have hoffset {i : Nat} {piece : Text} (hpiece : pieces[i]? = some piece) :
        (offsetsFrom 0 pieces).getD i 0 = offset pieces i := by
      refine getD_of ?_
      rw [getElem?_offsetsFrom, if_pos (List.getElem?_eq_some_iff.mp hpiece).1, Nat.zero_add]
    rw [List.foldr_cons, List.foldr_cons, replaceAt_eq_spread item hfirst hlast hle, getD_of hhead,
      getD_of htail, hoffset hP, hoffset hQ]
    refine ⟨?_, hkept', fun i hi => ?_⟩
    · rw [hflatten', hflatten]
      rfl
    · obtain ⟨hthis, hrest⟩ := List.forall_mem_cons.mp hi
      rw [hkept.spread_of_clear hspan hbound hP hlow hhigh hQ hlow' hhigh' hthis]
      exact hclear i hrest

/-! ### Writing the pieces -/

theorem writeAll_isOk (nodes : List (Node legal)) {pieces : List Text}
    (h : ∀ piece ∈ pieces, piece.all legal = true) :
    ∃ written, writeAll nodes pieces = .ok written := by
  induction nodes generalizing pieces with
  | nil => exact ⟨[], rfl⟩
  | cons node nodes ih =>
    cases pieces with
    | nil => exact ⟨node :: nodes, rfl⟩
    | cons piece pieces =>
      obtain ⟨hpiece, hpieces⟩ := List.forall_mem_cons.mp h
      obtain ⟨new, hnew⟩ := node.write_isOk hpiece
      obtain ⟨written, hwritten⟩ := ih hpieces
      refine ⟨new :: written, ?_⟩
      rw [writeAll, hnew, hwritten]
      rfl

/-- What a paragraph holds once its pieces are written. -/
structure Written (nodes : List (Node legal)) (pieces : List Text) (written : List (Node legal)) :
    Prop where
  texts : written.map Node.piece = pieces
  isXml : ∀ piece ∈ pieces, piece.all legal = true
  kept : ∀ i : Nat, pieces[i]? = (nodes[i]?).map Node.piece → written[i]? = nodes[i]?

theorem writeAll_ok {nodes written : List (Node legal)} {pieces : List Text}
    (hlength : pieces.length = nodes.length) (h : writeAll nodes pieces = .ok written) :
    Written nodes pieces written := by
  induction nodes generalizing pieces written with
  | nil =>
    obtain rfl := List.length_eq_zero_iff.mp hlength
    obtain rfl := Except.ok.inj h
    exact ⟨rfl, List.forall_mem_nil _, fun _ _ => rfl⟩
  | cons node nodes ih =>
    cases pieces with
    | nil => cases hlength
    | cons piece pieces =>
      rw [writeAll] at h
      cases hnew : node.write piece with
      | error failure =>
        rw [hnew] at h
        cases h
      | ok new =>
        cases hrest : writeAll nodes pieces with
        | error failure =>
          rw [hnew, hrest] at h
          cases h
        | ok rest =>
          rw [hnew, hrest] at h
          obtain rfl := Except.ok.inj h
          obtain ⟨hpiece, hlegal⟩ := Node.piece_write hnew
          have hwritten := ih (Nat.succ.inj hlength) hrest
          refine ⟨by rw [List.map_cons, hpiece, hwritten.texts],
            List.forall_mem_cons.mpr ⟨hlegal, hwritten.isXml⟩, fun i hi => ?_⟩
          cases i with
          | zero =>
            have heq : piece = node.piece := by simpa using hi
            rw [heq, Node.write_piece] at hnew
            rw [Except.ok.inj hnew]
            rfl
          | succ i => exact hwritten.kept i hi

theorem mem_replaceMatch {item : Item} {start : Nat} {text : Text} {c : Char}
    (h : c ∈ replaceMatch item start text) : c ∈ text ∨ c ∈ item.1.replace := by
  rcases List.mem_append.mp h with h | h
  · exact .inl (List.mem_of_mem_take h)
  · rcases List.mem_append.mp h with h | h
    · exact .inr h
    · exact .inl (List.mem_of_mem_drop h)

/-- Where it matches, its text is legal exactly when the text after it is. -/
theorem legal_foldr_iff (item : Item) {text : Text} (htext : text.all legal = true)
    {starts : List Nat} (hstarts : starts ≠ []) :
    (starts.foldr (replaceMatch item) text).all legal = true ↔ item.1.replace.all legal = true := by
  simp only [List.all_eq_true] at htext ⊢
  constructor
  · obtain ⟨start, rest, rfl⟩ := List.exists_cons_of_ne_nil hstarts
    intro h c hc
    exact h c (List.mem_append_right _ (List.mem_append_left _ hc))
  · intro h
    have hall : ∀ starts : List Nat, ∀ c ∈ starts.foldr (replaceMatch item) text, legal c = true := by
      intro starts
      induction starts with
      | nil => exact htext
      | cons start starts ih =>
        intro c hc
        exact (mem_replaceMatch hc).elim (ih c) (h c)
    exact hall starts

theorem all_flatten {pieces : List Text} :
    pieces.flatten.all legal = true ↔ ∀ piece ∈ pieces, piece.all legal = true := by
  simp only [List.all_eq_true, List.mem_flatten]
  constructor
  · intro h piece hpiece c hc
    exact h c ⟨piece, hpiece, hc⟩
  · rintro h c ⟨piece, hpiece, hc⟩
    exact h piece hpiece c hc

theorem joined_legal (texts : List (Node legal)) : (joined texts).all legal = true := by
  rw [joined, all_flatten, List.forall_mem_map]
  exact fun node _ => node.isXml

/-! ### The paragraph -/

/-- No character of run `i` lies in a match of an item. -/
def Untouched (texts : List (Node legal)) (item : Item) (i : Nat) : Prop :=
  ∀ start ∈ matchingStarts (joined texts) item,
    Clear (texts.map Node.piece) i start (start + item.1.find.length)

/-- What one replacement does to a paragraph. -/
structure Replaced (p : Paragraph legal) (item : Item) (index : Nat) (q : Paragraph legal) :
    Prop where
  text : joined q.texts = (replaceInText (joined p.texts) item).1
  counts : q.counts = p.counts.modify index (· + (replaceInText (joined p.texts) item).2)
  untouched : ∀ i, Untouched p.texts item i → q.texts[i]? = p.texts[i]?

theorem Paragraph.replace_none {p : Paragraph legal} {item : Item} (index : Nat)
    (hnone : matchingStarts (joined p.texts) item = []) :
    p.replace item index = .ok p ∧ Replaced p item index p := by
  refine ⟨if_pos hnone, ?_⟩
  have htext : replaceInText (joined p.texts) item = (joined p.texts, 0) := by
    simp [replaceInText, hnone]
  refine ⟨?_, ?_, fun _ _ => rfl⟩
  · rw [htext]
  · rw [htext]
    exact (List.modify_id ..).symm

/-- **One replacement** does to the runs what it does to their text, if it can be written. -/
theorem Paragraph.replace_ok {p q : Paragraph legal} {item : Item} {index : Nat}
    (h : p.replace item index = .ok q) : Replaced p item index q := by
  by_cases hnone : matchingStarts (joined p.texts) item = []
  · obtain ⟨hsame, hreplaced⟩ := Paragraph.replace_none index hnone
    rw [hsame] at h
    obtain rfl := Except.ok.inj h
    exact hreplaced
  · obtain ⟨hflatten, hkept, hclear⟩ := foldr_replaceAt item (p.texts.map Node.piece)
      (spaced_matchingStarts (joined p.texts) item)
    have hlength := hkept.length.trans (List.length_map _)
    -- the starts are taken from the last one, so that those before it stay where they are
    rw [Paragraph.replace, if_neg hnone] at h
    obtain ⟨texts, hwritten, h⟩ := bind_ok_iff.mp h
    obtain rfl := Except.ok.inj h
    have hwritten := writeAll_ok hlength hwritten
    refine ⟨?_, rfl, fun i hi => hwritten.kept i ?_⟩
    · rw [joined, hwritten.texts]
      exact hflatten
    · rw [hclear i hi, List.getElem?_map]

/-- It can be written where it does not match, or puts in legal characters alone. -/
theorem Paragraph.replace_isOk_iff {p : Paragraph legal} {item : Item} (index : Nat) :
    (∃ q, p.replace item index = .ok q) ↔
      matchingStarts (joined p.texts) item = [] ∨ item.1.replace.all legal = true := by
  by_cases hnone : matchingStarts (joined p.texts) item = []
  · exact iff_of_true ⟨p, (Paragraph.replace_none index hnone).1⟩ (.inl hnone)
  · obtain ⟨hflatten, hkept, -⟩ := foldr_replaceAt item (p.texts.map Node.piece)
      (spaced_matchingStarts (joined p.texts) item)
    have hlength := hkept.length.trans (List.length_map _)
    have hlegal := legal_foldr_iff item (joined_legal p.texts) hnone
    rw [← joined] at hflatten
    rw [or_iff_right hnone, ← hlegal, ← hflatten, all_flatten, Paragraph.replace, if_neg hnone]
    constructor
    · rintro ⟨q, h⟩
      obtain ⟨texts, hwritten, -⟩ := bind_ok_iff.mp h
      exact (writeAll_ok hlength hwritten).isXml
    · intro h
      obtain ⟨texts, hwritten⟩ := writeAll_isOk p.texts h
      exact ⟨_, by rw [hwritten]; rfl⟩

/-- Run `i` is untouched by each replacement in turn. -/
def Paragraph.Untouched (p : Paragraph legal) (index i : Nat) : List Item → Prop
  | [] => True
  | item :: items =>
    SourceEdit.Untouched p.texts item i ∧
      ∀ q, p.replace item index = .ok q → q.Untouched (index + 1) i items

/-- The replacements can be written to a paragraph of this text: each matches nowhere or puts in
legal characters alone. -/
def Writable (legal : Char → Bool) : Text → List Item → Prop
  | _, [] => True
  | text, item :: items =>
    (matchingStarts text item = [] ∨ item.1.replace.all legal = true) ∧
      Writable legal (replaceInText text item).1 items

/-- What becomes of the runs is what becomes of their text; the counts are those of
`replace_in_text`, and a run no match touches keeps its text. -/
structure EditedFrom (p : Paragraph legal) (index : Nat) (items : List Item) (q : Paragraph legal) :
    Prop where
  text : joined q.texts = (replaceAllInText (joined p.texts) items).1
  counts : ∀ k, q.counts[k]? = (p.counts[k]?).map fun count =>
    count + if index ≤ k then (replaceAllInText (joined p.texts) items).2.getD (k - index) 0 else 0
  untouched : ∀ i, p.Untouched index i items → q.texts[i]? = p.texts[i]?

theorem Paragraph.replaceAll_ok {items : List Item} {p q : Paragraph legal} {index : Nat}
    (h : p.replaceAll index items = .ok q) : EditedFrom p index items q := by
  induction items generalizing p index with
  | nil =>
    obtain rfl := Except.ok.inj h
    refine ⟨rfl, fun k => ?_, fun _ _ => rfl⟩
    simp [replaceAllInText]
  | cons item items ih =>
    obtain ⟨next, hnext, h⟩ := bind_ok_iff.mp h
    have hreplaced := Paragraph.replace_ok hnext
    have hedited := ih h
    have htexts := hedited.text
    have hcounts := hedited.counts
    rw [hreplaced.text] at htexts hcounts
    refine ⟨htexts, fun k => ?_, fun i hi => ?_⟩
    · rw [hcounts k, hreplaced.counts, List.getElem?_modify]
      simp only [replaceAllInText]
      cases p.counts[k]? with
      | none => rfl
      | some count =>
        rcases Nat.lt_trichotomy k index with hlt | rfl | hgt
        · simp [show ¬index ≤ k by omega, show ¬index + 1 ≤ k by omega, hlt.ne']
        · simp
        · simp [hgt.le, show index + 1 ≤ k by omega, hgt.ne,
            show k - index = k - (index + 1) + 1 by omega]
    · exact (hedited.untouched i (hi.2 next hnext)).trans (hreplaced.untouched i hi.1)

theorem Paragraph.replaceAll_isOk_iff (items : List Item) (p : Paragraph legal) (index : Nat) :
    (∃ q, p.replaceAll index items = .ok q) ↔ Writable legal (joined p.texts) items := by
  induction items generalizing p index with
  | nil => exact iff_of_true ⟨p, rfl⟩ trivial
  | cons item items ih =>
    rw [Writable, ← Paragraph.replace_isOk_iff index]
    constructor
    · rintro ⟨q, h⟩
      obtain ⟨next, hnext, h⟩ := bind_ok_iff.mp h
      rw [← (Paragraph.replace_ok hnext).text]
      exact ⟨⟨next, hnext⟩, (ih _ _).mp ⟨q, h⟩⟩
    · rintro ⟨⟨next, hnext⟩, hrest⟩
      rw [← (Paragraph.replace_ok hnext).text] at hrest
      obtain ⟨q, h⟩ := (ih _ _).mpr hrest
      exact ⟨q, bind_ok_iff.mpr ⟨next, hnext, h⟩⟩

/-- Editing the runs returns, and is editing their text. -/
def EditsAsText (texts : List (Node legal)) (items : List Item) (counts : List Nat) : Prop :=
  ∃ p, replaceInParagraph texts items counts = .ok p ∧
    joined p.texts = (replaceAllInText (joined texts) items).1 ∧
    (∀ k, p.counts[k]? = (counts[k]?).map fun count =>
      count + (replaceAllInText (joined texts) items).2.getD k 0) ∧
    ∀ i, Paragraph.Untouched ⟨texts, counts, false⟩ 0 i items → p.texts[i]? = texts[i]?

/-- **Editing runs is editing their text**, exactly where the replacements can be written. -/
theorem editsAsText_iff (texts : List (Node legal)) (items : List Item) (counts : List Nat) :
    EditsAsText texts items counts ↔ Writable legal (joined texts) items := by
  have hreturns := Paragraph.replaceAll_isOk_iff items ⟨texts, counts, false⟩ 0
  rw [← hreturns]
  constructor
  · rintro ⟨p, h, -⟩
    exact ⟨p, h⟩
  · rintro ⟨p, h⟩
    have hedited := Paragraph.replaceAll_ok h
    refine ⟨p, h, hedited.text, fun k => ?_, hedited.untouched⟩
    simpa using hedited.counts k

/-! ### A control character -/

/-- The characters that `lxml` takes: no control character but the tab and the ends of lines, and
neither of the two that are none. -/
def xmlLegal (c : Char) : Bool :=
  c == '\t' || c == '\n' || c == '\r' || (32 ≤ c.toNat && c.toNat != 0xFFFE && c.toNat != 0xFFFF)

def feeRun : Node xmlLegal := ⟨some "Fee".toList, false, by decide⟩

/-- `A` and `B` with a vertical tab between them. -/
def verticalTab : Item :=
  ⟨{ find := "Fee".toList, replace := ['A', '\x0b', 'B'], before := [], after := [] }, by decide⟩

theorem matchingStarts_verticalTab : matchingStarts "Fee".toList verticalTab = [0] := by
  have hfirst : find "Fee".toList verticalTab.1.find 0 = some 0 := by decide
  have hlast : find "Fee".toList verticalTab.1.find 3 = none := by decide
  rw [matchingStarts_eq, stops, stopsFrom_some hfirst]
  change ([0] ++ stopsFrom _ _ 3).filter _ = [0]
  rw [stopsFrom_none hlast]
  rfl

/-- The checks of a request let the replacement through, `replace_in_text` makes it, and the run
cannot be written. -/
theorem control_refused :
    (validateReplacements [verticalTab.1]).toOption = some [verticalTab] ∧
      replaceInText "Fee".toList verticalTab = (['A', '\x0b', 'B'], 1) ∧
        ¬ EditsAsText [feeRun] [verticalTab] [0] := by
  refine ⟨rfl, ?_, ?_⟩
  · rw [replaceInText, matchingStarts_verticalTab]
    rfl
  · rintro ⟨p, h, -⟩
    obtain ⟨hwritten, -⟩ := (Paragraph.replaceAll_isOk_iff _ _ _).mp ⟨p, h⟩
    have hstarts : matchingStarts (joined [feeRun]) verticalTab = [0] := matchingStarts_verticalTab
    rw [hstarts] at hwritten
    revert hwritten
    decide

end QnscKb.SourceEdit
