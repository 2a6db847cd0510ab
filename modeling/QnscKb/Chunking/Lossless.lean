import Mathlib.Data.List.Chain
import Mathlib.Data.PNat.Notation
import QnscKb.Chunking.Model
import QnscKb.Lib.Ink

/-!
# Chunking — Lossless

No character of a text that is not white space is lost on the way into its chunks, and none is put
in, the overlap apart.
-/

namespace QnscKb.Chunking

open QnscKb.Ask (Unicode)
open QnscKb.Routing (splitlines joinLines)
open Ink
open Text (isSpace)

/-! ### Lines and ends -/

theorem ink_lstrip (t : Text) : ink isSpace (Text.lstrip t) = ink isSpace t := ink_dropWhile t

theorem ink_rstrip (t : Text) : ink isSpace (Text.rstrip t) = ink isSpace t := ink_rdropWhile t

theorem ink_strip (t : Text) : ink isSpace (Text.strip t) = ink isSpace t := by
  rw [Text.strip, ink_rstrip, ink_lstrip]

theorem ink_join {sep : Text} (h : ∀ c ∈ sep, isSpace c = true) (ts : List Text) :
    ink isSpace (Text.join sep ts) = ts.flatMap (ink isSpace) :=
  ink_intercalate h ts

theorem ink_joinLines (ts : List Text) : ink isSpace (joinLines ts) = ts.flatMap (ink isSpace) :=
  ink_join (by simp [isSpace]) ts

theorem ink_chomp (line : Text) : ink isSpace (Ask.chomp line) = ink isSpace line := by
  rw [← ink_strip, Routing.strip_chomp, ink_strip]

theorem splitLinesFrom_flatten (line t : Text) : (Ask.splitLinesFrom line t).flatten = line ++ t := by
  fun_induction Ask.splitLinesFrom line t with
  | case1 line hempty => simp [List.isEmpty_iff.mp hempty]
  | case2 line hempty => simp
  | case3 line t ih => rw [List.flatten_cons, ih]; simp
  | case4 line c t _ hbreak ih => rw [List.flatten_cons, ih]; simp
  | case5 line c t _ hbreak ih => rw [ih]; simp

theorem ink_splitlines (t : Text) : (splitlines t).flatMap (ink isSpace) = ink isSpace t := by
  have hlines : (splitlines t).flatMap (ink isSpace) = (Ask.splitLines t).flatMap (ink isSpace) := by
    rw [splitlines, List.flatMap_map]
    exact congrArg (List.flatMap · _) (funext ink_chomp)
  rw [hlines, ← ink_flatten, Ask.splitLines, splitLinesFrom_flatten, List.nil_append]

theorem ink_stripped (ts : List Text) :
    ((ts.map Text.strip).filter (!·.isEmpty)).flatMap (ink isSpace) = ts.flatMap (ink isSpace) := by
  rw [flatMap_filter, List.flatMap_map]
  · exact congrArg (List.flatMap · ts) (funext ink_strip)
  · intro t _ hempty
    have hnil : t = [] := by simpa using hempty
    rw [hnil]
    rfl

/-! ### Sentences and paragraphs -/

theorem ink_sentencesFrom (between : Bool) (read t : Text) :
    (sentencesFrom between read t).flatMap (ink isSpace) = ink isSpace (read ++ t) := by
  induction t generalizing between read with
  | nil => simp [sentencesFrom]
  | cons c t ih =>
    rw [sentencesFrom]
    split
    · rename_i hspace
      rw [ih, ink_append, ink_append, ink_cons_blank (Bool.and_eq_true_iff.mp hspace).2]
    · split
      · rename_i hspace
        rw [List.flatMap_cons, ih, ink_append, ink_append,
          ink_cons_blank (Bool.and_eq_true_iff.mp hspace).1, ink_nil, List.nil_append]
      · rw [ih, List.append_assoc, List.singleton_append]

theorem ink_splitSentences (t : Text) : (splitSentences t).flatMap (ink isSpace) = ink isSpace t := by
  rw [splitSentences, ink_stripped, ink_sentencesFrom, List.nil_append, ink_strip]

theorem ink_behindNewlines {run : Text} (h : ∀ c ∈ run, isSpace c = true) :
    ink isSpace (behindNewlines run) = [] := by
  refine ink_blanks fun c hc => h c ?_
  exact List.mem_reverse.mp ((List.takeWhile_prefix _).subset (List.mem_reverse.mp hc))

theorem ink_paragraphsFrom (read run t : Text) (hrun : ∀ c ∈ run, isSpace c = true) :
    (paragraphsFrom read run t).flatMap (ink isSpace) = ink isSpace (read ++ t) := by
  induction t generalizing read run with
  | nil =>
    rw [paragraphsFrom]
    split
    · simp [ink_behindNewlines hrun]
    · simp [ink_blanks hrun]
  | cons c t ih =>
    rw [paragraphsFrom]
    split
    · rename_i hspace
      have hc : isSpace c = true := by
        rcases hspace with rfl | hspace
        · rfl
        · exact hspace.2
      rw [ih _ _ (by simpa [or_imp, forall_and, hc] using hrun), ink_append, ink_append,
        ink_cons_blank hc]
    · split
      · rw [List.flatMap_cons, ih _ _ (List.forall_mem_nil _)]
        rw [List.append_assoc, ink_append (behindNewlines run), ink_behindNewlines hrun,
          List.nil_append, ← ink_append, List.singleton_append]
      · rw [ih _ _ (List.forall_mem_nil _)]
        simp [ink_append, ink_blanks hrun]

theorem ink_paragraphs (t : Text) : (paragraphs t).flatMap (ink isSpace) = ink isSpace t :=
  ink_paragraphsFrom [] [] t (List.forall_mem_nil _)

theorem ink_paragraphLines (clean : Text) :
    (paragraphLines clean).flatMap (ink isSpace) = ink isSpace clean := by
  have hrstrip : (paragraphLines clean).flatMap (ink isSpace) =
      ((splitlines clean).filter fun line => !(Text.strip line).isEmpty).flatMap (ink isSpace) := by
    rw [paragraphLines, List.flatMap_map]
    exact congrArg (List.flatMap · _) (funext ink_rstrip)
  rw [hrstrip, flatMap_filter, ink_splitlines]
  intro line _ hblank
  have hnil : Text.strip line = [] := by simpa using hblank
  rw [← ink_strip, hnil]
  rfl

/-! ### Blocks and pieces -/

def inkOf (blocks : List Block) : Text := blocks.flatMap fun block => ink isSpace block.text

theorem inkOf_append (bs bs' : List Block) : inkOf (bs ++ bs') = inkOf bs ++ inkOf bs' :=
  List.flatMap_append

theorem inkOf_map (ts : List Text) (f : Text → Block) (h : ∀ t, (f t).text = t) :
    inkOf (ts.map f) = ts.flatMap (ink isSpace) := by
  rw [inkOf, List.flatMap_map]
  refine congrArg (List.flatMap · ts) (funext fun t => ?_)
  rw [h]

theorem ink_paragraphBlocks (U : Unicode) (active raw : Text) :
    inkOf (paragraphBlocks U active raw).1 = ink isSpace raw := by
  have hlines := ink_paragraphLines (Text.strip raw)
  rw [ink_strip] at hlines
  unfold paragraphBlocks
  dsimp only
  split
  · rename_i hcase
    rw [← hlines, hcase]
    rfl
  · rename_i first rest hcase
    rw [hcase] at hlines
    split
    · simp only [inkOf, List.flatMap_singleton, ink_strip]
    · split
      · simp only [inkOf, List.flatMap_singleton, ink_joinLines, hlines]
      · split
        · simp only [inkOf, List.flatMap_singleton, ink_joinLines, hlines]
        · rw [inkOf_map _ _ fun _ => rfl, ink_splitSentences, ink_strip]

theorem ink_blocksFrom (U : Unicode) (active : Text) (raws : List Text) :
    inkOf (blocksFrom U active raws) = raws.flatMap (ink isSpace) := by
  induction raws generalizing active with
  | nil => rfl
  | cons raw raws ih =>
    rw [blocksFrom, inkOf_append, ink_paragraphBlocks, ih, List.flatMap_cons]

/-- The blocks of a text are the text. -/
theorem ink_blocks (U : Unicode) (t : Text) (heading : Option Text) :
    inkOf (blocks U t heading) = ink isSpace t := by
  rw [blocks, ink_blocksFrom, ink_paragraphs]

theorem ink_rowsFrom (size : Nat) (current lines : List Text) :
    (rowsFrom size current lines).flatMap (ink isSpace) =
      (current ++ lines).flatMap (ink isSpace) := by
  induction lines generalizing current with
  | nil =>
    rw [rowsFrom]
    split
    · rename_i hempty
      rw [List.isEmpty_iff.mp hempty]
      rfl
    · rw [List.flatMap_singleton, ink_joinLines, List.append_nil]
  | cons line lines ih =>
    rw [rowsFrom]
    split
    · rw [List.flatMap_cons, ih, ink_joinLines, ← List.flatMap_append, List.singleton_append]
    · rw [ih, List.append_assoc, List.singleton_append]

theorem ink_sentenceRunsFrom (size : Nat) (running : Text) (sentences : List Text) :
    (sentenceRunsFrom size running sentences).flatMap (ink isSpace) =
      ink isSpace running ++ sentences.flatMap (ink isSpace) := by
  induction sentences generalizing running with
  | nil =>
    rw [sentenceRunsFrom]
    split
    · rename_i hempty
      rw [List.isEmpty_iff.mp hempty]
      rfl
    · rw [List.flatMap_singleton, List.flatMap_nil, List.append_nil]
  | cons sentence sentences ih =>
    rw [sentenceRunsFrom]
    split
    · rw [List.flatMap_cons, ih, List.flatMap_cons]
    · rw [ih, ink_strip, ink_append, ink_cons_blank rfl, List.append_assoc, List.flatMap_cons]

theorem slicesFrom_flatten (size : Nat) (read t : Text) :
    (slicesFrom size read t).flatten = read ++ t := by
  induction t generalizing read with
  | nil =>
    rw [slicesFrom]
    split
    · rename_i hempty
      rw [List.isEmpty_iff.mp hempty]
      rfl
    · rw [List.flatten_singleton, List.append_nil]
  | cons c t ih =>
    rw [slicesFrom]
    split
    · rw [List.flatten_cons, ih, List.singleton_append]
    · rw [ih, List.append_assoc, List.singleton_append]

/-- The pieces of a block are the block. -/
theorem ink_splitLargeBlock (size : Nat) (block : Block) :
    inkOf (splitLargeBlock size block) = ink isSpace block.text := by
  unfold splitLargeBlock
  split
  · exact List.flatMap_singleton ..
  · rw [inkOf_map _ _ fun _ => rfl]
    split
    · rw [ink_rowsFrom, List.nil_append, ink_splitlines]
    · split
      · rw [← ink_flatten, slicesFrom_flatten, List.nil_append]
      · rw [ink_sentenceRunsFrom, ink_nil, List.nil_append, ink_splitSentences]

/-! ### Packs -/

namespace Pack

def overlapText (p : Pack) : Text := (p.overlap.map Block.text).getD []

/-- What a chunk holds besides. -/
def own (p : Pack) : Text := inkOf p.pieces

theorem ink_text (p : Pack) : ink isSpace p.text = ink isSpace p.overlapText ++ p.own := by
  have hitems : ink isSpace p.joined = (p.items.map Block.text).flatMap (ink isSpace) :=
    ink_join (by simp [isSpace]) _
  rw [text, ink_strip, hitems, List.flatMap_map, items, List.flatMap_append]
  refine congrArg₂ (· ++ ·) ?_ rfl
  unfold overlapText
  cases p.overlap with
  | none => rfl
  | some block => exact List.flatMap_singleton ..

theorem own_of_text_nil {p : Pack} (h : p.text = []) : p.own = [] := by
  have hink := p.ink_text
  rw [h] at hink
  exact (List.append_eq_nil_iff.mp hink.symm).2

theorem overlapText_next (p : Pack) (overlap : Nat) :
    (p.next overlap).overlapText = p.lastCharacters overlap := by
  unfold next overlapText
  split
  · rename_i hempty
    rw [List.isEmpty_iff.mp hempty]
    rfl
  · rfl

theorem lastCharacters_of_text_nil {p : Pack} (h : p.text = []) (overlap : Nat) :
    p.lastCharacters overlap = [] := by
  unfold lastCharacters
  split
  · rw [h, List.drop_nil]
  · rfl

end Pack

theorem Open.own_add (piece : Block) (o : Open) :
    (o.add piece).pack.own = o.pack.own ++ ink isSpace piece.text := by
  simp [Open.add, Pack.own, inkOf]

theorem Open.own_after (overlap : Nat) (p : Pack) : (Open.after overlap p).pack.own = [] := rfl

/-- The pieces go into the packs, in order. -/
theorem own_packFrom (size overlap : Nat) (o : Open) (pieces : List Block) :
    (packFrom size overlap o pieces).flatMap Pack.own = o.pack.own ++ inkOf pieces := by
  induction pieces generalizing o with
  | nil =>
    rw [packFrom]
    split
    · rename_i hempty
      have hpieces : o.pack.pieces = [] := (List.append_eq_nil_iff.mp (List.isEmpty_iff.mp hempty)).2
      simp [Pack.own, hpieces, inkOf]
    · simp [inkOf]
  | cons piece pieces ih =>
    rw [packFrom]
    split
    · rw [List.flatMap_cons, ih, Open.own_add]
      rfl
    · rw [ih, Open.own_add, List.append_assoc]
      rfl

/-- Of a chain, those are left out that nothing is taken over from: what is taken over is then the
end of the one left before, or nothing. -/
theorem isChain_filter {α β : Type} {took last : α → List β} {keep : α → Bool} {l : List α}
    (h : l.IsChain fun p q => took q = last p) (hdrop : ∀ p ∈ l, keep p = false → last p = []) :
    (l.filter keep).IsChain (fun p q => took q = [] ∨ took q = last p) ∧
      ∀ p ∈ (l.filter keep).head?, took p = [] ∨ l.head? = some p := by
  induction l with
  | nil => exact ⟨List.isChain_nil, fun p hp => by cases hp⟩
  | cons p l ih =>
    obtain ⟨hnext, hchain⟩ := List.isChain_cons.mp h
    obtain ⟨hkept, hhead⟩ := ih hchain fun q hq => hdrop q (List.mem_cons_of_mem p hq)
    cases hkeep : keep p with
    | true =>
      rw [List.filter_cons_of_pos hkeep]
      refine ⟨List.isChain_cons.mpr ⟨fun q hq => ?_, hkept⟩, fun q hq => Or.inr hq⟩
      rcases hhead q hq with hnil | hfirst
      · exact Or.inl hnil
      · exact Or.inr (hnext q hfirst)
    | false =>
      rw [List.filter_cons_of_neg (by simp [hkeep])]
      refine ⟨hkept, fun q hq => Or.inl ?_⟩
      rcases hhead q hq with hnil | hfirst
      · exact hnil
      · rw [hnext q hfirst]
        exact hdrop p List.mem_cons_self hkeep

theorem isChain_packFrom (size overlap : Nat) (o : Open) (pieces : List Block) :
    (∀ p ∈ (packFrom size overlap o pieces).head?, p.overlap = o.pack.overlap) ∧
      (packFrom size overlap o pieces).IsChain fun p q =>
        q.overlapText = p.lastCharacters overlap := by
  induction pieces generalizing o with
  | nil =>
    rw [packFrom]
    split
    · exact ⟨fun p hp => (by cases hp), List.isChain_nil⟩
    · refine ⟨fun p hp => ?_, List.isChain_singleton _⟩
      cases hp
      rfl
  | cons piece pieces ih =>
    rw [packFrom]
    split
    · obtain ⟨hhead, hchain⟩ := ih ((Open.after overlap o.pack).add piece)
      refine ⟨fun p hp => ?_, List.isChain_cons.mpr ⟨fun q hq => ?_, hchain⟩⟩
      · cases hp
        rfl
      · rw [← Pack.overlapText_next, Pack.overlapText, hhead q hq]
        exact rfl
    · exact ih (o.add piece)

/-! ### Chunks -/

/-- Chunks cover a text: each is an overlap, of the end of the chunk before it, and its own; these,
in order, are the text. -/
structure Covers (overlap : Nat) (t : Text) (packs : List Pack) : Prop where
  first : ∀ p ∈ packs.head?, p.overlapText = []
  overlaps : packs.IsChain fun p q => q.overlapText = [] ∨ q.overlapText = p.lastCharacters overlap
  texts : ∀ p ∈ packs, ink isSpace p.text = ink isSpace p.overlapText ++ p.own
  whole : packs.flatMap Pack.own = ink isSpace t

theorem covers_pack (size overlap : Nat) (t : Text) {blocks : List Block}
    (h : inkOf blocks = ink isSpace t) : Covers overlap t (pack size overlap blocks) := by
  obtain ⟨hhead, hchain⟩ := isChain_packFrom size overlap .start
    (blocks.flatMap (splitLargeBlock size))
  have hdrop : ∀ p ∈ packAll size overlap blocks, (!p.text.isEmpty) = false →
      p.lastCharacters overlap = [] := by
    intro p _ hempty
    exact p.lastCharacters_of_text_nil (by simpa using hempty) overlap
  obtain ⟨hoverlaps, hfirst⟩ := isChain_filter hchain hdrop
  refine ⟨fun p hp => ?_, hoverlaps, fun p _ => p.ink_text, ?_⟩
  · rcases hfirst p hp with hnil | hstart
    · exact hnil
    · rw [Pack.overlapText, hhead p hstart]
      rfl
  · have hall : (pack size overlap blocks).flatMap Pack.own =
        (packAll size overlap blocks).flatMap Pack.own := by
      refine flatMap_filter fun p _ hempty => ?_
      exact p.own_of_text_nil (by simpa using hempty)
    have hpieces : inkOf (blocks.flatMap (splitLargeBlock size)) = inkOf blocks := by
      rw [inkOf, List.flatMap_assoc]
      exact congrArg (List.flatMap · blocks) (funext (ink_splitLargeBlock size))
    rw [hall, packAll, own_packFrom, hpieces, h]
    rfl

theorem children_eq {U : Unicode} {t : Text} {heading : Option Text} {parent : Parent}
    (h : parent ∈ createParentChildChunks U t heading) :
    parent.children = slidingChunks U parent.parentText 250 60 := by
  obtain ⟨index, hindex, rfl⟩ := List.mem_mapIdx.mp h
  dsimp only

/-- **No text is lost** in chunks of any size of a character or more, in parents, or in the children
of a parent. -/
theorem chunks_lossless (U : Unicode) (t : Text) :
    (∀ (size : ℕ+) (overlap : Nat), ∃ packs, slidingChunks U t size overlap = packs.map Pack.text ∧
      Covers overlap t packs) ∧
    ∀ heading : Option Text, ∃ packs,
      (createParentChildChunks U t heading).map Parent.parentText = packs.map Pack.text ∧
      Covers 250 t packs ∧
      ∀ parent ∈ createParentChildChunks U t heading, ∃ packs,
        parent.children = packs.map Pack.text ∧ Covers 60 parent.parentText packs := by
  have hchunks : ∀ (t : Text) (size overlap : Nat), ∃ packs,
      slidingChunks U t size overlap = packs.map Pack.text ∧ Covers overlap t packs :=
    fun t size overlap => ⟨_, rfl, covers_pack size overlap t (ink_blocks U t none)⟩
  refine ⟨fun size overlap => hchunks t size overlap, fun heading => ?_⟩
  refine ⟨_, ?_, covers_pack 1800 250 t (ink_blocks U t heading), fun parent hparent => ?_⟩
  · refine List.ext_getElem? fun index => ?_
    simp only [createParentChildChunks, List.getElem?_map, List.getElem?_mapIdx, Option.map_map]
    rfl
  · rw [children_eq hparent]
    exact hchunks parent.parentText 250 60

end QnscKb.Chunking
