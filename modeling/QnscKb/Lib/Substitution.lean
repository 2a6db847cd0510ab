import Mathlib.Data.List.Basic

/-!
# Substitution — a pattern replaced from left to right

What `re.sub` does with a pattern: a reader goes over a text, and where the pattern matches it puts
the new text down and goes on behind the match.  A pattern sees the character before and the rest of
the text.
-/

namespace QnscKb.Substitution

variable {α β : Type}

/-- The match at the head of a text, after the character before it, and what it becomes. -/
abbrev Pattern (α : Type) := Option α → List α → Option (List α × List α)

/-- A match is a beginning of the text, and not empty. -/
def Sound (p : Pattern α) : Prop :=
  ∀ prev t m new, p prev t = some (m, new) → m ≠ [] ∧ m <+: t

variable (p : Pattern α) (onHit : List α × List α → List β) (onPass : α → List β)

/-- What a reader puts down, with the character before it and the number of characters of a match
still before it. -/
def scanFrom : Option α → Nat → List α → List β
  | _, _, [] => []
  | _, skip + 1, c :: t => scanFrom (some c) skip t
  | prev, 0, c :: t =>
    match p prev (c :: t) with
    | some (m, new) => onHit (m, new) ++ scanFrom (some c) (m.length - 1) t
    | none => onPass c ++ scanFrom (some c) 0 t

def substFrom (prev : Option α) (t : List α) : List α := scanFrom p (·.2) (fun c => [c]) prev 0 t

def hitsFrom (prev : Option α) (t : List α) : List (List α × List α) :=
  scanFrom p (fun hit => [hit]) (fun _ => []) prev 0 t

def subst (t : List α) : List α := substFrom p none t

def hits (t : List α) : List (List α × List α) := hitsFrom p none t

variable {p onHit onPass} {prev : Option α} {c : α} {m new t : List α}

theorem getLast?_cons_or (c : α) (m : List α) (prev : Option α) :
    ((c :: m).getLast?).or prev = m.getLast?.or (some c) := by
  cases m with
  | nil => rfl
  | cons d m => simp [List.getLast?_cons]

theorem scanFrom_skip (prev : Option α) (m t : List α) :
    scanFrom p onHit onPass prev m.length (m ++ t) =
      scanFrom p onHit onPass (m.getLast?.or prev) 0 t := by
  induction m generalizing prev with
  | nil => rfl
  | cons c m ih =>
    rw [List.length_cons, List.cons_append, scanFrom, ih, getLast?_cons_or]

theorem scanFrom_hit (h : p prev (m ++ t) = some (m, new)) (hne : m ≠ []) :
    scanFrom p onHit onPass prev 0 (m ++ t) =
      onHit (m, new) ++ scanFrom p onHit onPass m.getLast? 0 t := by
  obtain ⟨c, m, rfl⟩ := List.exists_cons_of_ne_nil hne
  rw [List.cons_append] at h
  have hlast := getLast?_cons_or c m none
  rw [Option.or_none] at hlast
  rw [List.cons_append, scanFrom, h, hlast]
  exact congrArg (onHit _ ++ ·) (scanFrom_skip (some c) m t)

theorem scanFrom_pass (h : p prev (c :: t) = none) :
    scanFrom p onHit onPass prev 0 (c :: t) = onPass c ++ scanFrom p onHit onPass (some c) 0 t := by
  rw [scanFrom, h]

theorem substFrom_hit (h : p prev (m ++ t) = some (m, new)) (hne : m ≠ []) :
    substFrom p prev (m ++ t) = new ++ substFrom p m.getLast? t :=
  scanFrom_hit h hne

theorem substFrom_pass (h : p prev (c :: t) = none) :
    substFrom p prev (c :: t) = c :: substFrom p (some c) t :=
  scanFrom_pass h

theorem hitsFrom_hit (h : p prev (m ++ t) = some (m, new)) (hne : m ≠ []) :
    hitsFrom p prev (m ++ t) = (m, new) :: hitsFrom p m.getLast? t :=
  scanFrom_hit h hne

theorem hitsFrom_pass (h : p prev (c :: t) = none) :
    hitsFrom p prev (c :: t) = hitsFrom p (some c) t :=
  scanFrom_pass h

/-- Induction over what a reader meets. -/
theorem scan_induction (hp : Sound p) {motive : Option α → List α → Prop}
    (nil : ∀ prev, motive prev [])
    (pass : ∀ prev c t, p prev (c :: t) = none → motive (some c) t → motive prev (c :: t))
    (hit : ∀ prev m new t, p prev (m ++ t) = some (m, new) → m ≠ [] → motive m.getLast? t →
      motive prev (m ++ t))
    (prev : Option α) (t : List α) : motive prev t := by
  induction hlength : t.length using Nat.strongRecOn generalizing prev t with
  | _ n ih =>
    subst hlength
    match t with
    | [] => exact nil prev
    | c :: t =>
      cases hmatch : p prev (c :: t) with
      | none => exact pass prev c t hmatch (ih _ (Nat.lt_succ_self _) _ _ rfl)
      | some found =>
        obtain ⟨m, new⟩ := found
        obtain ⟨hne, rest, hrest⟩ := hp _ _ _ _ hmatch
        rw [← hrest] at hmatch ih ⊢
        refine hit prev m new rest hmatch hne (ih _ ?_ _ _ rfl)
        have hpos := List.length_pos_iff.mpr hne
        rw [List.length_append]
        omega

variable {z : List α}

/-- A text read in two parts. -/
theorem scanFrom_append (hp : Sound p) {u : List α}
    (h : ∀ prev w, w ≠ [] → w <:+ u → p prev (w ++ z) = p prev w) (prev : Option α) :
    scanFrom p onHit onPass prev 0 (u ++ z) =
      scanFrom p onHit onPass prev 0 u ++ scanFrom p onHit onPass (u.getLast?.or prev) 0 z := by
  induction prev, u using scan_induction hp with
  | nil prev => rfl
  | pass prev c u hnone ih =>
    have hwhole : p prev (c :: (u ++ z)) = none :=
      (h prev (c :: u) (List.cons_ne_nil c u) List.suffix_rfl).trans hnone
    rw [List.cons_append, scanFrom_pass hwhole, scanFrom_pass hnone,
      ih fun prev w hne hw => h prev w hne (hw.trans (List.suffix_cons c u)), List.append_assoc,
      getLast?_cons_or]
  | hit prev m new u hsome hne ih =>
    have hwhole := h prev (m ++ u) (by simp [hne]) List.suffix_rfl
    rw [hsome, List.append_assoc] at hwhole
    rw [List.append_assoc, scanFrom_hit hwhole hne, scanFrom_hit hsome hne,
      ih fun prev w hne' hw => h prev w hne' (hw.trans (List.suffix_append m u)),
      List.append_assoc, List.getLast?_append, Option.or_assoc]
    rw [List.getLast?_eq_some_getLast hne]
    rfl

variable {prev : Option α}

theorem scanFrom_quiet {w : List α}
    (h : ∀ a c b, w = a ++ c :: b → p (a.getLast?.or prev) (c :: (b ++ z)) = none) :
    scanFrom p onHit onPass prev 0 (w ++ z) =
      w.flatMap onPass ++ scanFrom p onHit onPass (w.getLast?.or prev) 0 z := by
  induction w generalizing prev with
  | nil => rfl
  | cons c w ih =>
    have hrest : ∀ a d b, w = a ++ d :: b →
        p (a.getLast?.or (some c)) (d :: (b ++ z)) = none := by
      intro a d b hw
      rw [← getLast?_cons_or c a prev]
      exact h (c :: a) d b (by rw [hw, List.cons_append])
    have hfirst : p prev (c :: (w ++ z)) = none := h [] c w rfl
    rw [List.cons_append, scanFrom_pass hfirst, ih hrest, List.flatMap_cons,
      List.append_assoc, getLast?_cons_or]

theorem hitsFrom_quiet {w : List α}
    (h : ∀ a c b, w = a ++ c :: b → p (a.getLast?.or prev) (c :: (b ++ z)) = none) :
    hitsFrom p prev (w ++ z) = hitsFrom p (w.getLast?.or prev) z := by
  have hnone : w.flatMap (fun _ => ([] : List (List α × List α))) = [] :=
    List.flatMap_eq_nil_iff.mpr fun _ _ => rfl
  rw [hitsFrom, scanFrom_quiet h, hnone, List.nil_append, ← hitsFrom]

/-! ### Matches that change nothing -/

/-- **Matches that become themselves** leave the text as it is. -/
theorem subst_of_fixed (hp : Sound p) (prev : Option α) (t : List α)
    (h : ∀ hit ∈ hitsFrom p prev t, hit.2 = hit.1) : substFrom p prev t = t := by
  induction prev, t using scan_induction hp with
  | nil prev => rfl
  | pass prev c t hnone ih =>
    rw [hitsFrom_pass hnone] at h
    rw [substFrom_pass hnone, ih h]
  | hit prev m new t hsome hne ih =>
    rw [hitsFrom_hit hsome hne] at h
    obtain ⟨hfirst, hrest⟩ := List.forall_mem_cons.mp h
    rw [substFrom_hit hsome hne, ih hrest]
    exact congrArg (· ++ t) hfirst

theorem subst_of_no_hits (hp : Sound p) {t : List α} (h : hitsFrom p prev t = []) :
    substFrom p prev t = t := by
  refine subst_of_fixed hp prev t fun hit hmem => ?_
  rw [h] at hmem
  cases hmem

/-- No match is met where none stands. -/
theorem hits_eq_nil_iff (prev : Option α) (t : List α) :
    hitsFrom p prev t = [] ↔
      ∀ a c b, t = a ++ c :: b → p (a.getLast?.or prev) (c :: b) = none := by
  induction t generalizing prev with
  | nil => exact iff_of_true rfl fun a c b h => by simp at h
  | cons c t ih =>
    cases hmatch : p prev (c :: t) with
    | some found =>
      refine iff_of_false ?_ fun h => ?_
      · rw [hitsFrom, scanFrom, hmatch]
        exact List.cons_ne_nil _ _
      · have hnone := h [] c t rfl
        rw [List.getLast?_nil, Option.none_or, hmatch] at hnone
        cases hnone
    | none =>
      rw [hitsFrom_pass hmatch, ih]
      constructor
      · intro h a d b ht
        cases a with
        | nil =>
          obtain ⟨rfl, rfl⟩ := List.cons.inj ht
          exact hmatch
        | cons e a =>
          obtain ⟨rfl, rfl⟩ := List.cons.inj ht
          rw [getLast?_cons_or]
          exact h a d b rfl
      · intro h a d b ht
        rw [← getLast?_cons_or c a prev]
        exact h (c :: a) d b (by rw [ht, List.cons_append])

theorem length_substFrom_le (hp : Sound p)
    (hshort : ∀ prev t m new, p prev t = some (m, new) → new.length < m.length)
    (prev : Option α) (t : List α) :
    (substFrom p prev t).length + (hitsFrom p prev t).length ≤ t.length := by
  induction prev, t using scan_induction hp with
  | nil prev => exact Nat.le_refl 0
  | pass prev c t hnone ih =>
    rw [substFrom_pass hnone, hitsFrom_pass hnone, List.length_cons, List.length_cons]
    omega
  | hit prev m new t hsome hne ih =>
    have hlength := hshort _ _ _ _ hsome
    rw [substFrom_hit hsome hne, hitsFrom_hit hsome hne, List.length_append, List.length_append,
      List.length_cons]
    omega

/-- **Matches that get shorter** leave a text as it is only where there are none. -/
theorem subst_eq_self_iff (hp : Sound p)
    (hshort : ∀ prev t m new, p prev t = some (m, new) → new.length < m.length)
    (prev : Option α) (t : List α) : substFrom p prev t = t ↔ hitsFrom p prev t = [] := by
  constructor
  · intro h
    have hlength := length_substFrom_le hp hshort prev t
    rw [h] at hlength
    exact List.length_eq_zero_iff.mp (by omega)
  · exact subst_of_no_hits hp

end QnscKb.Substitution
