import QnscKb.Lib.Tags
import QnscKb.Lib.Text

/-!
# Ask — Fence

`fence_untrusted` (`src/rag/prompt_fencing.py`): a zero-width space after the `<` of every tag-like
run.  The run starts with the name or `/` and the name, so `</ title>` passes it, and the tags of a
fenced text are those whose name has white space before it (`tags_fenceUntrusted`).  The proof runs
the reader over both texts; `mirror` is its state on the fenced one.
-/

namespace QnscKb.Ask

open Tags (Grammar State)

def zeroWidthSpace : Char := Char.ofNat 0x200b

/-- `[A-Za-z]` stands first. -/
def startsName : Text → Bool
  | c :: _ => c.isAlpha
  | [] => false

/-- What `_TAG_LIKE` asks for after `<`: an optional slash and a letter. -/
def tagLike : Text → Bool
  | '/' :: t => startsName t
  | t => startsName t

/-- `fence_untrusted`.  A run that matches holds no second `<`, so each `<` is decided alone. -/
def fenceUntrusted : Text → Text
  | [] => []
  | c :: t =>
    if c = '<' && tagLike t then '<' :: zeroWidthSpace :: fenceUntrusted t
    else c :: fenceUntrusted t

@[simp] theorem fenceUntrusted_nil : fenceUntrusted [] = [] := rfl

theorem fenceUntrusted_lt (t : Text) :
    fenceUntrusted ('<' :: t) =
      if tagLike t then '<' :: zeroWidthSpace :: fenceUntrusted t else '<' :: fenceUntrusted t := by
  simp [fenceUntrusted]

variable {c : Char}

theorem fenceUntrusted_of_ne (h : c ≠ '<') (t : Text) :
    fenceUntrusted (c :: t) = c :: fenceUntrusted t := by
  simp [fenceUntrusted, h]

theorem tagLike_cons_of_ne (h : c ≠ '/') (t : Text) : tagLike (c :: t) = c.isAlpha := by
  unfold tagLike
  split
  · next heq => exact absurd (List.cons.inj heq).1 h
  · rfl

@[simp] theorem startsName_cons (c : Char) (t : Text) : startsName (c :: t) = c.isAlpha := rfl

@[simp] theorem tagLike_slash (t : Text) : tagLike ('/' :: t) = startsName t := rfl

/-! ### The reader on the fenced text -/

/-- The reader's state on the fenced text, where it is in `s` on the text itself with `t` left. -/
def mirror (s : State) (t : Text) : State :=
  match s with
  | .head false => if tagLike t then .idle else .head false
  | .slash false => if startsName t then .idle else .slash false
  | .name _ false _ => .idle
  | s => s

@[simp] theorem mirror_idle (t : Text) : mirror .idle t = .idle := rfl

@[simp] theorem mirror_head (t : Text) :
    mirror (.head false) t = if tagLike t then .idle else .head false := rfl

@[simp] theorem mirror_head_spaced (t : Text) : mirror (.head true) t = .head true := rfl

@[simp] theorem mirror_slash (t : Text) :
    mirror (.slash false) t = if startsName t then .idle else .slash false := rfl

@[simp] theorem mirror_slash_spaced (t : Text) : mirror (.slash true) t = .slash true := rfl

@[simp] theorem mirror_name (closing : Bool) (read t : Text) :
    mirror (.name closing false read) t = .idle := rfl

@[simp] theorem mirror_name_spaced (closing : Bool) (read t : Text) :
    mirror (.name closing true read) t = .name closing true read := rfl

variable {G : Grammar}

theorem ended_mirror (s : State) (t : Text) :
    Tags.ended G (mirror s t) = (Tags.ended G s).filter Tags.Tag.spaced := by
  cases s with
  | idle => rfl
  | head sp => cases sp <;> simp [apply_ite (Tags.ended G)]
  | slash sp => cases sp <;> simp [apply_ite (Tags.ended G)]
  | name closing sp read => cases sp <;> simp [Tags.ended, apply_ite (List.filter _)]

theorem emit_mirror (s : State) (t : Text) (c : Char) :
    Tags.emit G (mirror s t) c = (Tags.emit G s c).filter Tags.Tag.spaced := by
  unfold Tags.emit
  split
  · rfl
  · exact ended_mirror s t

theorem next_mirror (h : c ≠ '<') (s : State) (t : Text) :
    Tags.next G (mirror s (c :: t)) c = mirror (Tags.next G s c) t := by
  cases s with
  | idle => rw [mirror_idle, Tags.next_idle h, mirror_idle]
  | head sp =>
    by_cases hslash : c = '/'
    · subst hslash
      cases sp
      · -- the fence has looked past the slash, as the reader now does
        by_cases ht : startsName t = true <;> simp [Tags.next, ht]
      · simp [Tags.next]
    · by_cases halpha : c.isAlpha = true <;> by_cases hwhite : G.white c = true <;>
        cases sp <;> simp [Tags.next, h, hslash, halpha, hwhite, tagLike_cons_of_ne hslash]
  | slash sp =>
    by_cases halpha : c.isAlpha = true <;> by_cases hwhite : G.white c = true <;>
      cases sp <;> simp [Tags.next, h, halpha, hwhite]
  | name closing sp read =>
    by_cases hname : Tags.nameChar c = true <;> cases sp <;> simp [Tags.next, h, hname]

theorem next_zeroWidthSpace (hzwsp : G.white zeroWidthSpace = false) :
    Tags.next G (.head false) zeroWidthSpace = .idle := by
  have hlt : zeroWidthSpace ≠ '<' := by decide
  have hslash : zeroWidthSpace ≠ '/' := by decide
  have halpha : zeroWidthSpace.isAlpha = false := by decide
  simp [Tags.next, hlt, hslash, halpha, hzwsp]

theorem scan_fenceUntrusted (hzwsp : G.white zeroWidthSpace = false) (s : State) (t : Text) :
    Tags.scan G (mirror s t) (fenceUntrusted t) = (Tags.scan G s t).filter Tags.Tag.spaced := by
  induction t generalizing s with
  | nil => exact ended_mirror s []
  | cons c t ih =>
    by_cases hlt : c = '<'
    · subst hlt
      -- after `<` the reader is in `head` on both texts; the fence has decided what follows
      have hrest := ih (.head false)
      rw [mirror_head] at hrest
      rw [Tags.scan_cons s, Tags.emit_lt, Tags.next_lt, List.filter_append, ← hrest,
        ← ended_mirror s ('<' :: t), fenceUntrusted_lt]
      by_cases htag : tagLike t = true
      · rw [if_pos htag, if_pos htag, Tags.scan_cons, Tags.scan_cons, Tags.next_lt, Tags.emit_lt,
          Tags.emit_head, next_zeroWidthSpace hzwsp, List.nil_append]
      · rw [if_neg htag, if_neg htag, Tags.scan_cons, Tags.next_lt, Tags.emit_lt]
    · rw [fenceUntrusted_of_ne hlt, Tags.scan_cons, Tags.scan_cons, List.filter_append,
        emit_mirror, next_mirror hlt, ih]

/-- **The fence**: what is left of a text's tags are those with white space before the name. -/
theorem tags_fenceUntrusted (hzwsp : G.white zeroWidthSpace = false) (t : Text) :
    Tags.tags G (fenceUntrusted t) = (Tags.tags G t).filter Tags.Tag.spaced :=
  scan_fenceUntrusted hzwsp .idle t

end QnscKb.Ask
