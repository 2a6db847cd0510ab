import Mathlib.Data.List.Basic

/-!
# Tags — the tags of a text, and templates

A `Grammar` says which names are tags and what white space is.  `tags` reads a text left to right:
`<`, white space, possibly `/` and white space, then a name, the longest run of name characters,
compared in lower case.  What follows the name up to `>` is not looked at, so a tag that is never
closed counts.

A template is a list of pieces, texts it writes itself and values it is given; `render` joins them,
and `written` is the tags of its own texts.
-/

namespace QnscKb.Tags

/-- The names read as tags, in lower case, and the characters read as white space. -/
structure Grammar where
  names : List (List Char)
  white : Char → Bool

/-- One tag of a text. -/
structure Tag where
  closing : Bool
  spaced : Bool
  name : List Char
  deriving DecidableEq, Repr

/-- `[A-Za-z0-9_:-]`. -/
def nameChar (c : Char) : Bool :=
  c.isAlpha || c.isDigit || c == '_' || c == ':' || c == '-'

theorem not_nameChar_lt : nameChar '<' = false := by decide

theorem nameChar_of_isAlpha {c : Char} (h : c.isAlpha = true) : nameChar c = true := by
  simp [nameChar, h]

/-- Where a reader stands: outside a tag, after `<`, after `</`, or inside a name. -/
inductive State
  | idle
  | head (spaced : Bool)
  | slash (spaced : Bool)
  | name (closing spaced : Bool) (read : List Char)
  deriving DecidableEq, Repr

variable (G : Grammar)

def next (s : State) (c : Char) : State :=
  if c = '<' then .head false
  else
    match s with
    | .idle => .idle
    | .head sp =>
      if c = '/' then .slash sp
      else if c.isAlpha then .name false sp [c.toLower]
      else if G.white c then .head true
      else .idle
    | .slash sp =>
      if c.isAlpha then .name true sp [c.toLower]
      else if G.white c then .slash true
      else .idle
    | .name closing sp read => if nameChar c then .name closing sp (read ++ [c.toLower]) else .idle

local instance lawfulNames : LawfulBEq (List Char) := List.instLawfulBEq

/-- The tag a name that has ended is, if its name is one. -/
def ended : State → List Tag
  | .name closing sp read => if read ∈ G.names then [⟨closing, sp, read⟩] else []
  | _ => []

/-- The tag a character ends. -/
def emit (s : State) (c : Char) : List Tag :=
  if nameChar c then [] else ended G s

/-- The tags of a text read from a state on. -/
def scan : State → List Char → List Tag
  | s, [] => ended G s
  | s, c :: t => emit G s c ++ scan (next G s c) t

def run : State → List Char → State
  | s, [] => s
  | s, c :: t => run (next G s c) t

def tags (t : List Char) : List Tag := scan G .idle t

variable {G}

@[simp] theorem ended_idle : ended G .idle = [] := rfl
@[simp] theorem ended_head (sp : Bool) : ended G (.head sp) = [] := rfl
@[simp] theorem ended_slash (sp : Bool) : ended G (.slash sp) = [] := rfl

@[simp] theorem emit_idle (c : Char) : emit G .idle c = [] := by simp [emit]
@[simp] theorem emit_head (sp : Bool) (c : Char) : emit G (.head sp) c = [] := by simp [emit]
@[simp] theorem emit_slash (sp : Bool) (c : Char) : emit G (.slash sp) c = [] := by simp [emit]

@[simp] theorem next_lt (s : State) : next G s '<' = .head false := by simp [next]

@[simp] theorem emit_lt (s : State) : emit G s '<' = ended G s := by
  simp [emit, not_nameChar_lt]

theorem next_idle {c : Char} (h : c ≠ '<') : next G .idle c = .idle := by simp [next, h]

@[simp] theorem scan_nil (s : State) : scan G s [] = ended G s := rfl

@[simp] theorem scan_cons (s : State) (c : Char) (t : List Char) :
    scan G s (c :: t) = emit G s c ++ scan G (next G s c) t := rfl

@[simp] theorem tags_nil : tags G [] = [] := rfl

variable {t sep : List Char}

theorem run_of_plain (h : '<' ∉ t) : run G .idle t = .idle := by
  induction t with
  | nil => rfl
  | cons c t ih =>
    obtain ⟨hc, ht⟩ : '<' ≠ c ∧ '<' ∉ t := by simpa using h
    rw [run, next_idle (Ne.symm hc), ih ht]

theorem tags_of_plain (h : '<' ∉ t) : tags G t = [] := by
  induction t with
  | nil => rfl
  | cons c t ih =>
    obtain ⟨hc, ht⟩ : '<' ≠ c ∧ '<' ∉ t := by simpa using h
    rw [tags, scan_cons, emit_idle, next_idle (Ne.symm hc)]
    exact ih ht

/-! ### Cutting a text -/

/-- A text after which the reader is outside every tag. -/
def Settled (G : Grammar) (t : List Char) : Prop := run G .idle t = .idle

instance (t : List Char) : Decidable (Settled G t) := inferInstanceAs (Decidable (_ = _))

theorem settled_of_plain (h : '<' ∉ t) : Settled G t := run_of_plain h

/-- A text that ends whatever the text before it left open: it starts, white space apart, with `<`
or a character that continues no tag. -/
def closes (G : Grammar) : List Char → Bool
  | [] => false
  | c :: t => c == '<' || (c != '/' && !nameChar c && (!G.white c || closes G t))

theorem scan_append_of_run {s : State} {a : List Char} (h : run G s a = .idle) (b : List Char) :
    scan G s (a ++ b) = scan G s a ++ tags G b := by
  induction a generalizing s with
  | nil =>
    obtain rfl : s = .idle := h
    rfl
  | cons c a ih => rw [List.cons_append, scan_cons, scan_cons, ih h, List.append_assoc]

/-- A text may be cut where no tag is open. -/
theorem tags_append_of_settled {a : List Char} (h : Settled G a) (b : List Char) :
    tags G (a ++ b) = tags G a ++ tags G b :=
  scan_append_of_run h b

theorem scan_of_closes (h : closes G t = true) (s : State) (r : List Char) :
    scan G s (t ++ r) = ended G s ++ tags G (t ++ r) := by
  induction t generalizing s with
  | nil => cases h
  | cons c t ih =>
    by_cases hlt : c = '<'
    · subst hlt
      simp [tags]
    · obtain ⟨⟨hslash, hname⟩, hrest⟩ : (c ≠ '/' ∧ nameChar c = false) ∧
          (G.white c = false ∨ closes G t = true) := by simpa [closes, hlt] using h
      have halpha : c.isAlpha = false := by
        by_contra ha
        exact absurd (nameChar_of_isAlpha (by simpa using ha)) (by simp [hname])
      -- the character ends the name, and leaves a state that only white space keeps open
      have hemit : emit G s c = ended G s := by simp [emit, hname]
      have hquiet : ended G (next G s c) = [] := by
        cases s <;> simp [next, hlt, hslash, halpha, hname] <;> split <;> rfl
      have hnext : scan G (next G s c) (t ++ r) = tags G (t ++ r) := by
        rcases hrest with hw | ht
        · have hidle : next G s c = .idle := by
            cases s <;> simp [next, hlt, hslash, halpha, hname, hw]
          rw [hidle, tags]
        · rw [ih ht, hquiet, List.nil_append]
      have hidle : tags G (c :: (t ++ r)) = tags G (t ++ r) := by
        rw [tags, scan_cons, emit_idle, next_idle hlt, List.nil_append, tags]
      rw [List.cons_append, scan_cons, hemit, hnext, hidle]

theorem scan_append_of_closes {b : List Char} (h : closes G b = true) (s : State)
    (a r : List Char) : scan G s (a ++ (b ++ r)) = scan G s a ++ tags G (b ++ r) := by
  induction a generalizing s with
  | nil => exact scan_of_closes h s r
  | cons c a ih => rw [List.cons_append, scan_cons, scan_cons, ih, List.append_assoc]

/-- It may be cut after a tag's end. -/
theorem tags_append_of_closes {b : List Char} (h : closes G b = true) (a r : List Char) :
    tags G (a ++ (b ++ r)) = tags G a ++ tags G (b ++ r) :=
  scan_append_of_closes h .idle a r

/-! ### Templates -/

/-- A text a template writes, or a value it is given. -/
inductive Piece
  | lit (t : List Char)
  | value (t : List Char)

def Piece.text : Piece → List Char
  | .lit t => t
  | .value t => t

@[simp] theorem Piece.text_lit (t : List Char) : (Piece.lit t).text = t := rfl
@[simp] theorem Piece.text_value (t : List Char) : (Piece.value t).text = t := rfl

def render (ps : List Piece) : List Char := ps.flatMap Piece.text

/-- The tags a template's own texts hold, in its order. -/
def written (G : Grammar) (ps : List Piece) : List Tag :=
  ps.flatMap fun
    | .lit t => tags G t
    | .value _ => []

@[simp] theorem render_nil : render [] = [] := rfl

@[simp] theorem render_cons (p : Piece) (ps : List Piece) :
    render (p :: ps) = p.text ++ render ps := rfl

@[simp] theorem render_append (ps qs : List Piece) : render (ps ++ qs) = render ps ++ render qs := by
  simp [render]

@[simp] theorem written_nil : written G [] = [] := rfl

@[simp] theorem written_lit (t : List Char) (ps : List Piece) :
    written G (.lit t :: ps) = tags G t ++ written G ps := rfl

@[simp] theorem written_value (t : List Char) (ps : List Piece) :
    written G (.value t :: ps) = written G ps := rfl

@[simp] theorem written_append (ps qs : List Piece) :
    written G (ps ++ qs) = written G ps ++ written G qs := by simp [written]

/-- No value of the template holds a tag. -/
def Quiet (G : Grammar) (ps : List Piece) : Prop := ∀ v, Piece.value v ∈ ps → tags G v = []

@[simp] theorem quiet_nil : Quiet G [] := by simp [Quiet]

variable {ps : List Piece}

@[simp] theorem quiet_lit : Quiet G (.lit t :: ps) ↔ Quiet G ps := by
  simp [Quiet]

@[simp] theorem quiet_value : Quiet G (.value t :: ps) ↔ tags G t = [] ∧ Quiet G ps := by
  simp [Quiet]

@[simp] theorem quiet_append {qs : List Piece} : Quiet G (ps ++ qs) ↔ Quiet G ps ∧ Quiet G qs := by
  simp [Quiet, or_imp, forall_and]

theorem written_of_render_nil (h : render ps = []) : written G ps = [] := by
  simp only [written, List.flatMap_eq_nil_iff]
  rintro (t | t) hp
  · obtain rfl : t = [] := List.flatMap_eq_nil_iff.mp h _ hp
    rfl
  · rfl

theorem quiet_of_render_nil (h : render ps = []) : Quiet G ps := by
  intro v hv
  obtain rfl : v = [] := List.flatMap_eq_nil_iff.mp h _ hv
  rfl

/-- The template goes on with a text of its own that ends what a value left open. -/
def closesNext (G : Grammar) : List Piece → Bool
  | .lit b :: _ => closes G b
  | _ => false

/-- Every own text ends outside a tag, and so does every value unless the text after it closes. -/
def Guarded (G : Grammar) : List Piece → Prop
  | [] => True
  | .lit t :: ps => Settled G t ∧ Guarded G ps
  | .value t :: ps => (Settled G t ∨ closesNext G ps = true) ∧ Guarded G ps

theorem closesNext_append (h : closesNext G ps = true) (qs : List Piece) :
    closesNext G (ps ++ qs) = true := by
  rcases ps with _ | ⟨b | t, ps⟩
  · cases h
  · exact h
  · cases h

theorem Guarded.append {qs : List Piece} (hp : Guarded G ps) (hq : Guarded G qs) :
    Guarded G (ps ++ qs) := by
  induction ps with
  | nil => exact hq
  | cons p ps ih =>
    cases p with
    | lit t => exact ⟨hp.1, ih hp.2⟩
    | value t =>
      exact ⟨hp.1.imp_right fun h => closesNext_append h qs, ih hp.2⟩

/-- **The tags of a guarded template** are the tags of its pieces, one after the other. -/
theorem tags_render (h : Guarded G ps) :
    tags G (render ps) = ps.flatMap fun p => tags G p.text := by
  induction ps with
  | nil => rfl
  | cons p ps ih =>
    cases p with
    | lit t =>
      obtain ⟨ht, hps⟩ := h
      rw [List.flatMap_cons, ← ih hps]
      exact tags_append_of_settled ht _
    | value t =>
      obtain ⟨hs | hb, hps⟩ := h
      · rw [List.flatMap_cons, ← ih hps]
        exact tags_append_of_settled hs _
      · rw [List.flatMap_cons, ← ih hps]
        obtain _ | ⟨b | v, qs⟩ := ps
        · cases hb
        · exact tags_append_of_closes hb t (render qs)
        · cases hb

theorem written_length_le (ps : List Piece) :
    (written G ps).length ≤ (ps.flatMap fun p => tags G p.text).length := by
  induction ps with
  | nil => exact Nat.le_refl _
  | cons p ps ih =>
    cases p with
    | lit t => simpa using ih
    | value t =>
      simp only [written_value, List.flatMap_cons, List.length_append]
      omega

theorem flatMap_tags_eq_written_iff (ps : List Piece) :
    (ps.flatMap fun p => tags G p.text) = written G ps ↔ Quiet G ps := by
  induction ps with
  | nil => simp
  | cons p ps ih =>
    cases p with
    | lit t => simp [ih]
    | value t =>
      simp only [List.flatMap_cons, Piece.text_value, written_value, quiet_value]
      refine ⟨fun h => ?_, fun ⟨ht, hps⟩ => ?_⟩
      · -- the rest alone is at least as long as what is written
        have hlen := congrArg List.length h
        rw [List.length_append] at hlen
        have hle := written_length_le (G := G) ps
        have ht : tags G t = [] := List.eq_nil_of_length_eq_zero (by omega)
        rw [ht] at h
        exact ⟨ht, ih.mp h⟩
      · rw [ht]
        exact ih.mpr hps

/-- **No forged tag**: a guarded template reads as it is written exactly when no value it is given
holds a tag. -/
theorem render_unforged_iff (h : Guarded G ps) :
    tags G (render ps) = written G ps ↔ Quiet G ps := by
  rw [tags_render h]
  exact flatMap_tags_eq_written_iff ps

/-! ### Joining templates -/

/-- `sep.join(parts)`. -/
def joined (sep : List Char) (parts : List (List Piece)) : List Piece :=
  [Piece.lit sep].intercalate parts

@[simp] theorem joined_nil (sep : List Char) : joined sep [] = [] := rfl

@[simp] theorem joined_singleton (sep : List Char) (ps : List Piece) : joined sep [ps] = ps :=
  List.intercalate_singleton

theorem joined_cons_cons (sep : List Char) (ps qs : List Piece) (parts : List (List Piece)) :
    joined sep (ps :: qs :: parts) = ps ++ .lit sep :: joined sep (qs :: parts) := by
  simp [joined, List.intercalate_cons_cons]

theorem Guarded.joined (hsep : Settled G sep) {parts : List (List Piece)}
    (h : ∀ ps ∈ parts, Guarded G ps) : Guarded G (joined sep parts) := by
  induction parts with
  | nil => trivial
  | cons ps parts ih =>
    obtain ⟨hps, hparts⟩ := List.forall_mem_cons.mp h
    cases parts with
    | nil => rwa [joined_singleton]
    | cons qs parts =>
      exact hps.append ⟨hsep, ih hparts⟩

theorem written_joined (hsep : tags G sep = []) (parts : List (List Piece)) :
    written G (joined sep parts) = parts.flatMap (written G) := by
  induction parts with
  | nil => rfl
  | cons ps parts ih =>
    cases parts with
    | nil => simp
    | cons qs parts => simp only [joined_cons_cons, written_append, written_lit, hsep, ih,
        List.nil_append, List.flatMap_cons]

theorem quiet_joined {parts : List (List Piece)} :
    Quiet G (joined sep parts) ↔ ∀ ps ∈ parts, Quiet G ps := by
  induction parts with
  | nil => simp
  | cons ps parts ih =>
    cases parts with
    | nil => simp
    | cons qs parts =>
      rw [joined_cons_cons, quiet_append, quiet_lit, ih, List.forall_mem_cons (a := ps)]

end QnscKb.Tags
