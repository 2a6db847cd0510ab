import QnscKb.Logs.Redaction

/-!
# Logs — Secrets

What is left of the sensitive parameters of a text once it is redacted, and redacting again.
-/

namespace QnscKb.Logs

open Substitution
open Text (isSpace)

variable {W : Words} {lower : Text → Text}

/-! ### Characters -/

variable {c : Char}

theorem isValue_of_isName (h : isName W c = true) : isValue c = true := by
  by_contra hvalue
  have hstop : (isSpace c || "&'\"<>#".toList.contains c) = true := by
    rw [isValue, Bool.not_eq_true', Bool.not_eq_false] at hvalue
    exact hvalue
  rcases Bool.or_eq_true_iff.mp hstop with hspace | hmem
  · rw [isName, W.word_visible c hspace] at h
    rcases Bool.or_eq_true_iff.mp h with h | h
    · rw [beq_iff_eq.mp h] at hspace
      cases hspace
    · rw [beq_iff_eq.mp h] at hspace
      cases hspace
  · have hstops : c = '&' ∨ c = Char.ofNat 39 ∨ c = '"' ∨ c = '<' ∨ c = '>' ∨ c = '#' := by
      simpa using hmem
    rcases hstops with rfl | rfl | rfl | rfl | rfl | rfl <;>
      exact absurd ((isName_ascii (by decide)).symm.trans h) (by decide)

theorem not_isSep_of {p : Char → Bool} (h : p c = true) (hquery : p '?' = false)
    (hamp : p '&' = false) (hsemi : p ';' = false) : isSep c = false := by
  by_contra hsep
  simp only [Bool.not_eq_false, isSep, Bool.or_eq_true, beq_iff_eq] at hsep
  rcases hsep with (rfl | rfl) | rfl
  · exact absurd (hquery.symm.trans h) Bool.false_ne_true
  · exact absurd (hamp.symm.trans h) Bool.false_ne_true
  · exact absurd (hsemi.symm.trans h) Bool.false_ne_true

theorem not_isSep_of_isName (h : isName W c = true) : isSep c = false :=
  not_isSep_of h (isName_ascii (by decide)) (isName_ascii (by decide)) (isName_ascii (by decide))

theorem not_isSep_of_isToken (h : isToken c = true) : isSep c = false :=
  not_isSep_of h rfl rfl rfl

theorem not_isSep_of_isSpace (h : isSpace c = true) : isSep c = false :=
  not_isSep_of h rfl rfl rfl

/-- No value reads on into a text. -/
def Stops (z : Text) : Prop := ∀ c ∈ z.head?, isValue c = false

theorem stops_of_isSpace (h : isSpace c = true) (z : Text) : Stops (c :: z) := by
  intro d hd
  obtain rfl : c = d := Option.some.inj hd
  simp [isValue, h]

variable {w z t name value t' : Text}

theorem prefix_of_stops {p : Char → Bool} {q : Text} (hq : ∀ c ∈ q, p c = true)
    (hz : ∀ c ∈ z.head?, p c = false) (h : q <+: w ++ z) : q <+: w := by
  induction q generalizing w with
  | nil => exact List.nil_prefix
  | cons c q ih =>
    obtain ⟨hc, hq⟩ := List.forall_mem_cons.mp hq
    cases w with
    | nil =>
      obtain ⟨rest, hrest⟩ := h
      have hhead : c ∈ z.head? := by
        rw [List.nil_append] at hrest
        rw [← hrest]
        rfl
      rw [hz c hhead] at hc
      cases hc
    | cons d w =>
      obtain ⟨rfl, htail⟩ := List.cons_prefix_cons.mp h
      exact List.cons_prefix_cons.mpr ⟨rfl, ih hq htail⟩

/-! ### Parameters -/

theorem paramOf_name_iff :
    (∃ value, paramOf W t = some (name, value)) ↔
      name ≠ [] ∧ (∀ c ∈ name, isName W c = true) ∧ name ++ ['='] <+: t := by
  constructor
  · rintro ⟨value, h⟩
    obtain ⟨rest, hparam⟩ := paramOf_some h
    exact ⟨hparam.name_ne, hparam.name_chars, value ++ rest, by simp [hparam.split]⟩
  · rintro ⟨hne, hname, rest, rfl⟩
    obtain ⟨value, hvalue, hrest, hstop⟩ := Text.dropWhile_split isValue rest
    have hparam : Param W (name ++ ['='] ++ rest) name value (rest.dropWhile isValue) :=
      ⟨by rw [← hrest, List.append_assoc, List.singleton_append], hne, hname, hvalue, hstop⟩
    exact ⟨value, hparam.eq_some⟩

theorem name_value_chars (h : ∀ c ∈ name, isName W c = true) :
    ∀ c ∈ name ++ ['='], isValue c = true :=
  List.forall_mem_append.mpr
    ⟨fun c hc => isValue_of_isName (h c hc), List.forall_mem_singleton.mpr rfl⟩

theorem name_no_sep (h : ∀ c ∈ name, isName W c = true) : ∀ c ∈ name ++ ['='], isSep c = false :=
  List.forall_mem_append.mpr
    ⟨fun c hc => not_isSep_of_isName (h c hc), List.forall_mem_singleton.mpr rfl⟩

theorem paramOf_append (hz : Stops z) (w : Text) : paramOf W (w ++ z) = paramOf W w := by
  cases hw : paramOf W w with
  | some found =>
    obtain ⟨name, value⟩ := found
    obtain ⟨rest, hparam⟩ := paramOf_some hw
    have hstop : Stops (rest ++ z) := by
      cases rest with
      | nil => exact hz
      | cons c rest => exact hparam.stops
    have hmore : Param W (w ++ z) name value (rest ++ z) :=
      ⟨by simp [hparam.split], hparam.name_ne, hparam.name_chars, hparam.value_chars, hstop⟩
    exact hmore.eq_some
  | none =>
    rw [Option.eq_none_iff_forall_ne_some]
    rintro ⟨name, value⟩ hfound
    obtain ⟨hne, hname, hprefix⟩ := paramOf_name_iff.mp ⟨value, hfound⟩
    have hinside := prefix_of_stops (name_value_chars hname) hz hprefix
    obtain ⟨value', hsome⟩ := paramOf_name_iff.mpr ⟨hne, hname, hinside⟩
    rw [hw] at hsome
    cases hsome

/-- The parameters of a text, wherever a separator stands before one. -/
def params (W : Words) : Text → List (Text × Text)
  | [] => []
  | c :: t => (if isSep c then (paramOf W t).toList else []) ++ params W t

/-- Parameters do not read on over a character that ends values. -/
theorem params_append (hz : Stops z) (u : Text) : params W (u ++ z) = params W u ++ params W z := by
  induction u with
  | nil => rfl
  | cons c u ih => rw [List.cons_append, params, params, paramOf_append hz, ih, List.append_assoc]

theorem params_quiet (h : ∀ c ∈ w, isSep c = false) (z : Text) :
    params W (w ++ z) = params W z := by
  induction w with
  | nil => rfl
  | cons c w ih =>
    obtain ⟨hc, hw⟩ := List.forall_mem_cons.mp h
    rw [List.cons_append, params, hc, if_neg Bool.false_ne_true, List.nil_append, ih hw]

theorem params_param {rest : Text} (hsep : isSep c = true) (h : Param W t name value rest) :
    params W (c :: t) = (name, value) :: (params W value ++ params W rest) := by
  have hbehind : params W t = params W value ++ params W rest := by
    rw [h.split, ← params_append h.stops, ← List.singleton_append, ← List.append_assoc]
    exact params_quiet (name_no_sep h.name_chars) _
  rw [params, hsep, h.eq_some, hbehind]
  rfl

/-! ### The substitution of parameters -/

abbrev hide (W : Words) (lower : Text → Text) (prev : Option Char) (t : Text) : Text :=
  substFrom (queryParam W lower) prev t

def scannedFrom (W : Words) (lower : Text → Text) (prev : Option Char) (t : Text) :
    List (Text × Text) :=
  scanFrom (queryParam W lower) (fun hit => (paramOf W hit.1.tail).toList) (fun _ => []) prev 0 t

def scanned (W : Words) (lower : Text → Text) (t : Text) : List (Text × Text) :=
  scannedFrom W lower none t

theorem scanFrom_prev {β : Type} {onHit : Text × Text → List β} {onPass : Char → List β}
    (prev prev' : Option Char) (t : Text) :
    scanFrom (queryParam W lower) onHit onPass prev 0 t =
      scanFrom (queryParam W lower) onHit onPass prev' 0 t := by
  cases t with
  | nil => rfl
  | cons c t => rfl

theorem scanFrom_plain {β : Type} {onHit : Text × Text → List β} {onPass : Char → List β}
    (h : ∀ c ∈ w, isSep c = false) (prev : Option Char) (z : Text) :
    scanFrom (queryParam W lower) onHit onPass prev 0 (w ++ z) =
      w.flatMap onPass ++ scanFrom (queryParam W lower) onHit onPass none 0 z := by
  rw [scanFrom_quiet, scanFrom_prev]
  rintro a c b rfl
  rw [queryParam, h c (by simp), if_neg Bool.false_ne_true]

theorem hide_plain (h : ∀ c ∈ w, isSep c = false) (prev : Option Char) (z : Text) :
    hide W lower prev (w ++ z) = w ++ hide W lower none z := by
  rw [hide, substFrom, scanFrom_plain h, List.flatMap_singleton']
  rfl

/-- A match: a separator, and a parameter with a value. -/
structure Matched (W : Words) (c : Char) (name value rest : Text) : Prop where
  sep : isSep c = true
  value_ne : value ≠ []
  param : Param W (name ++ '=' :: (value ++ rest)) name value rest

namespace Matched

variable {c : Char} {name value rest : Text}

theorem match_eq (h : Matched W c name value rest) (prev : Option Char) :
    queryParam W lower prev (c :: (name ++ '=' :: value) ++ rest) =
      some (c :: (name ++ '=' :: value), c :: (name ++ '=' :: shown lower name value)) := by
  have hsome := h.param.eq_some
  rw [List.cons_append, List.append_assoc, List.cons_append, queryParam, h.sep, hsome]
  simp [h.value_ne]

theorem hide_eq (h : Matched W c name value rest) (prev : Option Char) :
    hide W lower prev (c :: (name ++ '=' :: value) ++ rest) =
      c :: (name ++ '=' :: (shown lower name value ++ hide W lower none rest)) := by
  rw [hide, substFrom_hit (h.match_eq prev) (List.cons_ne_nil _ _), substFrom, scanFrom_prev _ none]
  simp [hide, substFrom]

theorem scanned_eq (h : Matched W c name value rest) (prev : Option Char) :
    scannedFrom W lower prev (c :: (name ++ '=' :: value) ++ rest) =
      (name, value) :: scannedFrom W lower none rest := by
  have hself : Param W (name ++ '=' :: value) name value [] :=
    ⟨by simp, h.param.name_ne, h.param.name_chars, h.param.value_chars, fun _ hc => by cases hc⟩
  rw [scannedFrom, scanFrom_hit (h.match_eq prev) (List.cons_ne_nil _ _), List.tail_cons,
    hself.eq_some, scanFrom_prev _ none]
  rfl

end Matched

theorem param_induction (W : Words) (lower : Text → Text) {motive : Option Char → Text → Prop}
    (nil : ∀ prev, motive prev [])
    (pass : ∀ prev c t, queryParam W lower prev (c :: t) = none → motive (some c) t →
      motive prev (c :: t))
    (hit : ∀ prev c name value rest, Matched W c name value rest → (∀ prev, motive prev rest) →
      motive prev (c :: (name ++ '=' :: value) ++ rest))
    (hprev : ∀ prev prev' t, motive prev t → motive prev' t)
    (prev : Option Char) (t : Text) : motive prev t := by
  induction prev, t using scan_induction (queryParam_sound : Sound (queryParam W lower)) with
  | nil prev => exact nil prev
  | pass prev c t hnone ih => exact pass prev c t hnone ih
  | hit prev m new t hsome hne ih =>
    obtain ⟨c, name, value, rest, hsep, hvalue, hparam, rfl, -, hrest⟩ := queryParam_some hsome
    obtain rfl := List.append_cancel_left hrest
    exact hit prev c name value t ⟨hsep, hvalue, hparam⟩ fun prev' => hprev _ prev' t ih

variable {prev : Option Char}

theorem hide_pass (h : queryParam W lower prev (c :: t) = none) :
    hide W lower prev (c :: t) = c :: hide W lower (some c) t :=
  substFrom_pass h

theorem scannedFrom_pass (h : queryParam W lower prev (c :: t) = none) :
    scannedFrom W lower prev (c :: t) = scannedFrom W lower (some c) t :=
  scanFrom_pass h

theorem head_hide (prev : Option Char) (t : Text) : (hide W lower prev t).head? = t.head? := by
  induction prev, t using param_induction W lower with
  | nil prev => rfl
  | pass prev c t hnone _ => rw [hide_pass hnone]; rfl
  | hit prev c name value rest hmatched _ => rw [hmatched.hide_eq]; rfl
  | hprev prev prev' t h => rwa [hide, substFrom, scanFrom_prev prev' prev]

theorem stops_hide (h : Stops t) (prev : Option Char) : Stops (hide W lower prev t) := by
  rw [Stops, head_hide]
  exact h

theorem prefix_of_hide {q : Text} (hq : ∀ c ∈ q, isSep c = false) (h : q <+: hide W lower prev t) :
    q <+: t := by
  obtain ⟨w, hw, ht, hstop⟩ := Text.dropWhile_split (fun c => !isSep c) t
  have hw : ∀ c ∈ w, isSep c = false := fun c hc => by simpa using hw c hc
  rw [ht, hide_plain hw] at h
  have hinside : q <+: w := by
    refine prefix_of_stops (p := fun c => !isSep c) (fun c hc => by simp [hq c hc]) ?_ h
    rwa [head_hide]
  rw [ht]
  exact hinside.trans (List.prefix_append _ _)

theorem paramOf_hide {prev' : Option Char} (hsep : isSep c = true)
    (h : queryParam W lower prev (c :: t) = none)
    (hparam : paramOf W (hide W lower prev' t) = some (name, value)) : value = [] := by
  obtain ⟨hne, hname, hprefix⟩ := paramOf_name_iff.mp ⟨value, hparam⟩
  obtain ⟨value', hvalue'⟩ :=
    paramOf_name_iff.mpr ⟨hne, hname, prefix_of_hide (name_no_sep hname) hprefix⟩
  have hempty : value' = [] := by
    rw [queryParam, hsep, hvalue'] at h
    by_contra hne
    simp [hne] at h
  subst hempty
  obtain ⟨rest, hrest⟩ := paramOf_some hvalue'
  have hafter : Param W (hide W lower prev' t) name [] (hide W lower none rest) := by
    refine ⟨?_, hne, hname, List.forall_mem_nil _, stops_hide hrest.stops none⟩
    have hplain : hide W lower prev' (name ++ ['='] ++ rest) =
        name ++ ['='] ++ hide W lower none rest :=
      hide_plain (name_no_sep hname) prev' rest
    rw [hrest.split]
    simpa using hplain
  rw [hafter.eq_some] at hparam
  exact (Prod.mk.inj (Option.some.inj hparam)).2.symm

/-! ### What is hidden -/

/-- A parameter that gives nothing away. -/
def Sealed (lower : Text → Text) (p : Text × Text) : Prop :=
  sensitiveName lower p.1 = true → p.2 = [] ∨ p.2 = redacted

/-- No parameter that is left alone has a sensitive one in its value. -/
def NestedSealed (W : Words) (lower : Text → Text) (matched : List (Text × Text)) : Prop :=
  ∀ p ∈ matched, sensitiveName lower p.1 = false → ∀ q ∈ params W p.2, Sealed lower q

theorem redacted_isValue : ∀ c ∈ redacted, isValue c = true := List.all_eq_true.mp rfl

theorem redacted_no_sep : ∀ c ∈ redacted, isSep c = false := by
  have hall : redacted.all (fun c => !isSep c) = true := rfl
  intro c hc
  simpa using List.all_eq_true.mp hall c hc

theorem redacted_no_letter : ∀ c ∈ redacted, c ≠ 'b' ∧ c ≠ 'B' := by
  have hall : redacted.all (fun c => c != 'b' && c != 'B') = true := rfl
  intro c hc
  simpa using List.all_eq_true.mp hall c hc

theorem params_redacted : params W redacted = [] := by
  have hplain := params_quiet (W := W) redacted_no_sep []
  rwa [List.append_nil] at hplain

theorem shown_isValue (h : ∀ c ∈ value, isValue c = true) :
    ∀ c ∈ shown lower name value, isValue c = true := by
  rw [shown]
  split
  · exact redacted_isValue
  · exact h

theorem Matched.shown {rest : Text} (h : Matched W c name value rest) (lower : Text → Text)
    (prev : Option Char) : Matched W c name (shown lower name value) (hide W lower prev rest) := by
  refine ⟨h.sep, ?_, rfl, h.param.name_ne, h.param.name_chars, shown_isValue h.param.value_chars,
    stops_hide h.param.stops prev⟩
  rw [Logs.shown]
  split
  · exact List.cons_ne_nil _ _
  · exact h.value_ne

/-- **Every sensitive parameter is hidden**, but for those inside the values that are kept. -/
theorem sealed_iff (prev : Option Char) (t : Text) :
    (∀ q ∈ params W (hide W lower prev t), Sealed lower q) ↔
      NestedSealed W lower (scannedFrom W lower prev t) := by
  induction prev, t using param_induction W lower with
  | nil prev => exact iff_of_true (List.forall_mem_nil _) (List.forall_mem_nil _)
  | pass prev c t hnone ih =>
    rw [hide_pass hnone, scannedFrom_pass hnone, ← ih, params, List.forall_mem_append,
      and_iff_right_iff_imp]
    intro _ q hq
    split at hq
    · rename_i hsep
      intro _
      exact .inl (paramOf_hide hsep hnone (Option.mem_toList.mp hq))
    · cases hq
  | hit prev c name value rest hmatched ih =>
    have hafter := hmatched.shown lower none
    rw [hmatched.hide_eq, hmatched.scanned_eq, params_param hafter.sep hafter.param,
      List.forall_mem_cons, List.forall_mem_append, NestedSealed, List.forall_mem_cons,
      ← NestedSealed, ← ih]
    cases hsensitive : sensitiveName lower name with
    | true =>
      have hshown : shown lower name value = redacted := by rw [shown, hsensitive, if_pos rfl]
      rw [hshown, params_redacted]
      have hsealed : Sealed lower (name, redacted) := fun _ => .inr rfl
      simp [hsealed]
    | false =>
      have hshown : shown lower name value = value := by
        rw [shown, hsensitive, if_neg Bool.false_ne_true]
      have hsealed : Sealed lower (name, value) := fun h => by
        rw [hsensitive] at h
        cases h
      rw [hshown]
      simp [hsealed]
  | hprev prev prev' t h =>
    rwa [hide, scannedFrom, substFrom, scanFrom_prev prev' prev, scanFrom_prev prev' prev]

theorem scannedFrom_hide (prev prev' : Option Char) (t : Text) :
    scannedFrom W lower prev' (hide W lower prev t) =
      (scannedFrom W lower prev t).map fun p => (p.1, shown lower p.1 p.2) := by
  induction prev, t using param_induction W lower with
  | nil prev => rfl
  | pass prev c t hnone ih =>
    have hagain : queryParam W lower prev' (c :: hide W lower (some c) t) = none := by
      rw [queryParam]
      split
      · rename_i hsep
        split
        · rename_i name value hparam
          rw [paramOf_hide hsep hnone hparam]
          rfl
        · rfl
      · rfl
    rw [hide_pass hnone, scannedFrom_pass hagain, scannedFrom_pass hnone, ← ih, scannedFrom,
      scanFrom_prev _ prev', ← scannedFrom]
  | hit prev c name value rest hmatched ih =>
    have hafter : scannedFrom W lower prev'
        (c :: (name ++ '=' :: (shown lower name value ++ hide W lower none rest))) =
          (name, shown lower name value) ::
            scannedFrom W lower none (hide W lower none rest) := by
      rw [← (hmatched.shown lower none).scanned_eq prev']
      simp
    rw [hmatched.hide_eq, hmatched.scanned_eq, hafter, List.map_cons, ← ih none, scannedFrom,
      scanFrom_prev _ prev', ← scannedFrom]
  | hprev prev prev'' t h =>
    rwa [hide, scannedFrom, scannedFrom, substFrom, scanFrom_prev prev'' prev,
      scanFrom_prev prev'' prev]

theorem hide_eq_self (h : ∀ p ∈ scannedFrom W lower prev t, shown lower p.1 p.2 = p.2) :
    hide W lower prev t = t := by
  induction prev, t using param_induction W lower with
  | nil prev => rfl
  | pass prev c t hnone ih =>
    rw [scannedFrom_pass hnone] at h
    rw [hide_pass hnone, ih h]
  | hit prev c name value rest hmatched ih =>
    rw [hmatched.scanned_eq] at h
    obtain ⟨hfirst, hrest⟩ := List.forall_mem_cons.mp h
    rw [hmatched.hide_eq, ih none hrest, hfirst]
    simp
  | hprev prev prev' t ih =>
    rw [hide, substFrom, scanFrom_prev prev' prev]
    rw [scannedFrom, scanFrom_prev prev' prev] at h
    exact ih h

/-! ### The substitution of bearer tokens -/

/-- A text and what is left of it when runs without separators that follow white space are
replaced. -/
inductive Masked : Text → Text → Prop
  | refl (t : Text) : Masked t t
  | replace {u run y y' : Text} {s : Char} (hs : isSpace s = true)
      (hrun : ∀ c ∈ run, isSep c = false) (htail : Masked y y') :
      Masked (u ++ s :: (run ++ y)) (u ++ s :: (redacted ++ y'))

theorem Masked.cons (h : Masked t t') (c : Char) : Masked (c :: t) (c :: t') := by
  cases h with
  | refl => exact .refl _
  | replace hs hrun htail => exact .replace (u := c :: _) hs hrun htail

theorem masked_bearer (prev : Option Char) (t : Text) :
    Masked t (substFrom (bearer W) prev t) := by
  induction prev, t using scan_induction (bearer_sound : Sound (bearer W)) with
  | nil prev => exact .refl _
  | pass prev c t hnone ih =>
    rw [substFrom_pass hnone]
    exact ih.cons c
  | hit prev m new t hsome hne ih =>
    obtain ⟨w, gap, token, -, hcredential, hm, rfl, -, -⟩ := bearer_some hsome
    have hlast := hcredential.gap_space _ (List.getLast_mem hcredential.gap_ne)
    have hrun : ∀ c ∈ token, isSep c = false := fun c hc =>
      not_isSep_of_isToken (hcredential.token_chars c hc)
    have hmasked := Masked.replace (u := w ++ gap.dropLast) hlast hrun ih
    have hsplit (z : Text) : w ++ gap.dropLast ++ gap.getLast hcredential.gap_ne :: z =
        w ++ (gap ++ z) := by
      conv_rhs => rw [← List.dropLast_concat_getLast hcredential.gap_ne]
      simp
    rw [hsplit, hsplit] at hmasked
    have hbefore : m ++ t = w ++ (gap ++ (token ++ t)) := by rw [hm]; simp
    have hafter : substFrom (bearer W) prev (m ++ t) =
        w ++ (gap ++ (redacted ++ substFrom (bearer W) m.getLast? t)) := by
      rw [substFrom_hit hsome hne]
      simp
    rwa [hafter, hbefore]

theorem Masked.params_eq (h : Masked t t') : params W t' = params W t := by
  induction h with
  | refl t => rfl
  | replace hs hrun _ ih =>
    have hspace (z : Text) : params W (_ :: z) = params W z :=
      params_quiet (List.forall_mem_singleton.mpr (not_isSep_of_isSpace hs)) z
    rw [params_append (stops_of_isSpace hs _), params_append (stops_of_isSpace hs _), hspace,
      hspace, params_quiet hrun, params_quiet redacted_no_sep, ih]

theorem scannedFrom_append (hz : Stops z) (prev : Option Char) (u : Text) :
    scannedFrom W lower prev (u ++ z) =
      scannedFrom W lower prev u ++ scannedFrom W lower none z := by
  rw [scannedFrom, scanFrom_append queryParam_sound, scanFrom_prev (u.getLast?.or prev) none]
  · rfl
  · intro prev w hne _
    obtain ⟨c, w, rfl⟩ := List.exists_cons_of_ne_nil hne
    rw [List.cons_append, queryParam, queryParam, paramOf_append hz]

theorem scannedFrom_plain (h : ∀ c ∈ w, isSep c = false) (prev : Option Char) (z : Text) :
    scannedFrom W lower prev (w ++ z) = scannedFrom W lower none z := by
  rw [scannedFrom, scanFrom_plain h]
  simp [scannedFrom]

theorem Masked.scanned_eq (h : Masked t t') (prev : Option Char) :
    scannedFrom W lower prev t' = scannedFrom W lower prev t := by
  induction h generalizing prev with
  | refl t => rfl
  | replace hs hrun _ ih =>
    have hspace (z : Text) :
        scannedFrom W lower none (_ :: z) = scannedFrom W lower none z :=
      scannedFrom_plain (List.forall_mem_singleton.mpr (not_isSep_of_isSpace hs)) none z
    rw [scannedFrom_append (stops_of_isSpace hs _), scannedFrom_append (stops_of_isSpace hs _),
      hspace, hspace, scannedFrom_plain hrun, scannedFrom_plain redacted_no_sep, ih]

/-! ### No token is left -/

theorem Spelled.letters {letters : List (Char × Char)} (h : Spelled letters w) :
    ∀ c ∈ w, ∃ letter ∈ letters, c = letter.1 ∨ c = letter.2 := by
  induction h with
  | nil => exact List.forall_mem_nil _
  | cons hc _ ih =>
    refine List.forall_mem_cons.mpr ⟨⟨_, List.mem_cons_self, hc⟩, fun c hmem => ?_⟩
    obtain ⟨letter, hletter, h⟩ := ih c hmem
    exact ⟨letter, List.mem_cons_of_mem _ hletter, h⟩

theorem Spelled.isAlphanum (h : Spelled bearerLetters w) :
    ∀ c ∈ w, c.isAlphanum = true ∧ c.toNat < 128 := by
  intro c hc
  obtain ⟨letter, hletter, hcase⟩ := h.letters c hc
  simp only [bearerLetters, List.mem_cons, List.not_mem_nil, or_false] at hletter
  rcases hletter with rfl | rfl | rfl | rfl | rfl | rfl <;> rcases hcase with rfl | rfl <;> decide

theorem Spelled.word (h : Spelled bearerLetters w) : ∀ c ∈ w, W.word c = true := by
  intro c hc
  obtain ⟨halnum, hascii⟩ := h.isAlphanum c hc
  rw [W.word_ascii c hascii, halnum]
  rfl

theorem Credential.no_bracket {gap token : Text} (h : Credential w gap token) :
    '[' ∉ w ++ (gap ++ token) := by
  intro hmem
  rcases List.mem_append.mp hmem with hmem | hmem
  · exact absurd (h.spelled.isAlphanum _ hmem).1 (by decide)
  · rcases List.mem_append.mp hmem with hmem | hmem
    · exact absurd (h.gap_space _ hmem) (by decide)
    · exact absurd (h.token_chars _ hmem) (by decide)

theorem prefix_of_bracket {q w z : Text} (hq : '[' ∉ q) (h : q <+: w ++ '[' :: z) : q <+: w :=
  prefix_of_stops (p := fun c => c != '[') (fun c hc => by
      rw [bne_iff_ne]
      rintro rfl
      exact hq hc)
    (fun c hc => by
      obtain rfl : '[' = c := Option.some.inj hc
      rfl) h

theorem prefix_of_bearer {q t : Text} {prev : Option Char} (hq : '[' ∉ q)
    (h : q <+: substFrom (bearer W) prev t) : q <+: t := by
  induction prev, t using scan_induction (bearer_sound : Sound (bearer W)) generalizing q with
  | nil prev => exact h
  | pass prev c t hnone ih =>
    rw [substFrom_pass hnone] at h
    cases q with
    | nil => exact List.nil_prefix
    | cons d q =>
      obtain ⟨rfl, htail⟩ := List.cons_prefix_cons.mp h
      have hq' : '[' ∉ q := fun hmem => hq (List.mem_cons_of_mem d hmem)
      exact List.cons_prefix_cons.mpr ⟨rfl, ih hq' htail⟩
  | hit prev m new t hsome hne ih =>
    rw [substFrom_hit hsome hne] at h
    obtain ⟨w, gap, token, -, -, rfl, rfl, -, -⟩ := bearer_some hsome
    obtain ⟨behind, hredacted⟩ : ∃ behind, redacted = '[' :: behind := ⟨_, rfl⟩
    have hkept : q <+: w ++ gap := by
      rw [← List.append_assoc, List.append_assoc (w ++ gap)] at h
      exact prefix_of_bracket hq h
    exact hkept.trans (by simp)

theorem head_bearer (prev : Option Char) (t : Text) :
    (substFrom (bearer W) prev t).head? = t.head? := by
  induction prev, t using scan_induction (bearer_sound : Sound (bearer W)) with
  | nil prev => rfl
  | pass prev c t hnone _ =>
    rw [substFrom_pass hnone]
    rfl
  | hit prev m new t hsome hne _ =>
    rw [substFrom_hit hsome hne]
    obtain ⟨w, gap, token, -, hcredential, rfl, rfl, -, -⟩ := bearer_some hsome
    obtain ⟨c, w, rfl⟩ := List.exists_cons_of_ne_nil hcredential.spelled.ne_nil
    rfl

theorem bearer_of_not_letter (h : c ≠ 'b' ∧ c ≠ 'B') : bearer W prev (c :: t) = none := by
  rw [bearer]
  split
  · rfl
  · rw [bearerOf, bearerLetters, afterWord, if_neg (by simpa using h)]
    rfl

theorem bearer_of_word (h : W.word c = true) (t : Text) : bearer W (some c) t = none := by
  rw [bearer, Option.any_some, h, if_pos rfl]

theorem bearer_pass {prev' : Option Char} (h : bearer W prev (c :: t) = none) :
    bearer W prev (c :: substFrom (bearer W) prev' t) = none := by
  rw [Option.eq_none_iff_forall_ne_some]
  rintro ⟨m, new⟩ hsome
  obtain ⟨w, gap, token, rest, hcredential, rfl, -, hsplit, -⟩ := bearer_some hsome
  obtain ⟨d, w', hw⟩ := List.exists_cons_of_ne_nil hcredential.spelled.ne_nil
  have hbracket := hcredential.no_bracket
  rw [hw] at hsplit
  obtain ⟨rfl, htail⟩ := List.cons.inj hsplit
  have hinside : w' ++ (gap ++ token) <+: t := by
    refine prefix_of_bearer (fun hmem => hbracket ?_) ⟨rest, htail.symm⟩
    rw [hw]
    exact List.mem_cons_of_mem _ hmem
  obtain ⟨rest', rfl⟩ := hinside
  have hfound := hcredential.found (z := rest')
  rw [bearer] at h hsome
  split at h
  · rename_i hword
    rw [if_pos hword] at hsome
    cases hsome
  · rw [Option.map_eq_none_iff] at h
    have hsame : c :: (w' ++ (gap ++ token) ++ rest') = w ++ (gap ++ (token ++ rest')) := by
      rw [hw]
      simp
    rw [← hsame, h] at hfound
    cases hfound

theorem hits_redacted {gap token : Text} (h : Credential w gap token) (prev : Option Char)
    (z : Text) :
    hitsFrom (bearer W) prev (w ++ (gap ++ (redacted ++ z))) =
      hitsFrom (bearer W) (some ']') z := by
  obtain ⟨c, w', rfl⟩ := List.exists_cons_of_ne_nil h.spelled.ne_nil
  have hfirst : bearer W prev (c :: (w' ++ (gap ++ (redacted ++ z)))) = none := by
    rw [Option.eq_none_iff_forall_ne_some]
    rintro ⟨m, new⟩ hsome
    obtain ⟨w₂, gap₂, token₂, rest, h₂, rfl, -, hsplit, -⟩ := bearer_some hsome
    -- What is matched would end before the bracket, so the white space would hold the token.
    obtain ⟨behind, hredacted⟩ : ∃ behind, redacted = '[' :: behind := ⟨_, rfl⟩
    have hinside : w₂ ++ (gap₂ ++ token₂) <+: c :: w' ++ gap := by
      refine prefix_of_bracket (z := behind ++ z) h₂.no_bracket ⟨rest, ?_⟩
      rw [← hsplit, hredacted, List.append_assoc]
      rfl
    have hlength : w₂.length = (c :: w').length :=
      (List.Forall₂.length_eq h₂.spelled).symm.trans (List.Forall₂.length_eq h.spelled)
    obtain ⟨more, hmore⟩ := hinside
    rw [List.append_assoc] at hmore
    obtain ⟨-, hgap⟩ := List.append_inj hmore hlength
    obtain ⟨d, token', rfl⟩ := List.exists_cons_of_ne_nil
      (List.ne_nil_of_length_pos (Nat.lt_of_lt_of_le (by decide) h₂.token_long))
    have hspace := h.gap_space d (by rw [← hgap]; simp)
    rw [not_isSpace_of_isToken (h₂.token_chars d List.mem_cons_self)] at hspace
    cases hspace
  have hword : ∀ a d b, w' = a ++ d :: b →
      bearer W (a.getLast?.or (some c)) (d :: (b ++ (gap ++ (redacted ++ z)))) = none := by
    intro a d b hw
    obtain ⟨e, he, hlast⟩ : ∃ e ∈ c :: w', a.getLast?.or (some c) = some e := by
      cases hlast : a.getLast? with
      | none => exact ⟨c, List.mem_cons_self, rfl⟩
      | some e =>
        refine ⟨e, List.mem_cons_of_mem c ?_, rfl⟩
        rw [hw]
        exact List.mem_append_left _ (List.mem_of_getLast? hlast)
    rw [hlast, bearer_of_word (h.spelled.word e he)]
  have hquiet : ∀ d ∈ gap ++ redacted, d ≠ 'b' ∧ d ≠ 'B' := by
    refine List.forall_mem_append.mpr ⟨fun d hd => ?_, redacted_no_letter⟩
    have hspace := h.gap_space d hd
    constructor <;> rintro rfl <;> cases hspace
  have hlast : (gap ++ redacted).getLast? = some ']' := by
    rw [List.getLast?_append]
    rfl
  have hpass := hitsFrom_pass hfirst
  rw [List.cons_append, hpass, hitsFrom_quiet hword, ← List.append_assoc, hitsFrom_quiet, hlast]
  · rfl
  · exact fun a d b hsplit => bearer_of_not_letter (hquiet d (by simp [hsplit]))

/-- **The substitution leaves no token to substitute.** -/
theorem hits_substFrom_bearer (prev : Option Char) (t : Text) :
    hitsFrom (bearer W) prev (substFrom (bearer W) prev t) = [] := by
  induction prev, t using scan_induction (bearer_sound : Sound (bearer W)) with
  | nil prev => rfl
  | pass prev c t hnone ih =>
    rw [substFrom_pass hnone, hitsFrom_pass (bearer_pass hnone), ih]
  | hit prev m new t hsome hne ih =>
    obtain ⟨w, gap, token, rest, hcredential, hm, rfl, hrest, hstop⟩ := bearer_some hsome
    obtain rfl := List.append_cancel_left hrest
    have hafter : substFrom (bearer W) prev (m ++ t) =
        w ++ (gap ++ (redacted ++ substFrom (bearer W) m.getLast? t)) := by
      rw [substFrom_hit hsome hne, List.append_assoc, List.append_assoc]
    have hhead := head_bearer (W := W) m.getLast? t
    rw [hafter, hits_redacted hcredential]
    cases hbehind : substFrom (bearer W) m.getLast? t with
    | nil => rfl
    | cons c behind =>
      rw [hbehind, List.head?_cons] at hhead
      rw [← hhead] at hstop
      have hletter : c ≠ 'b' ∧ c ≠ 'B' := by
        constructor <;> rintro rfl <;> cases hstop
      rw [hbehind, hitsFrom_pass (bearer_of_not_letter hletter)] at ih
      rw [hitsFrom_pass (bearer_of_not_letter hletter), ih]

/-! ### What is logged -/

/-- What redaction promises of a text. -/
structure Withheld (W : Words) (lower : Text → Text) (t : Text) : Prop where
  /-- No sensitive parameter keeps its value. -/
  hidden : ∀ q ∈ params W (redact W lower t), Sealed lower q
  stable : redact W lower (redact W lower t) = redact W lower t

theorem full_full (t : Text) : full W lower (full W lower t) = full W lower t := by
  have hmasked := masked_bearer (W := W) none (hide W lower none t)
  have hscanned : ∀ p ∈ scannedFrom W lower none (full W lower t), shown lower p.1 p.2 = p.2 := by
    rw [full, subst, subst, hmasked.scanned_eq, scannedFrom_hide]
    intro p hp
    obtain ⟨q, -, rfl⟩ := List.mem_map.mp hp
    dsimp only [shown]
    split <;> rfl
  have hhidden : subst (queryParam W lower) (full W lower t) = full W lower t :=
    hide_eq_self hscanned
  have hbearer : subst (bearer W) (full W lower t) = full W lower t :=
    subst_of_no_hits bearer_sound (hits_substFrom_bearer none _)
  rw [full, hhidden, hbearer]

/-- **Nothing sensitive is logged exactly when no value that is kept holds a sensitive parameter of
its own**; redacting again changes nothing. -/
theorem withheld_iff (W : Words) (lower : Text → Text) (t : Text) :
    Withheld W lower t ↔ NestedSealed W lower (scanned W lower t) := by
  have hparams : params W (redact W lower t) = params W (hide W lower none t) := by
    rw [redact]
    split
    · rename_i hquick
      have hequals : '=' ∉ t := fun hmem => by simp [quick, hmem] at hquick
      have hhidden : hide W lower none t = t := subst_queryParam_of_not_mem hequals
      rw [hhidden]
    · exact (masked_bearer none _).params_eq
  have hstable : redact W lower (redact W lower t) = redact W lower t := by
    cases hquick : quick t with
    | true =>
      have hsame : redact W lower t = t := by rw [redact, if_pos hquick]
      rw [hsame, hsame]
    | false =>
      have hfull : redact W lower t = full W lower t := by
        rw [redact, hquick, if_neg Bool.false_ne_true]
      rw [hfull, redact, full_full, ite_self]
  rw [scanned, ← sealed_iff none t, ← hparams]
  exact ⟨fun h => h.hidden, fun h => ⟨h, hstable⟩⟩

/-- A link with a link in one of its parameters. -/
theorem nested_leaks :
    ¬ Withheld asciiWords (·.map Char.toLower) "?url=https://x/?token=s3cr3t".toList := by
  intro h
  have hmem : ("token".toList, "s3cr3t".toList) ∈ params asciiWords
      (redact asciiWords (·.map Char.toLower) "?url=https://x/?token=s3cr3t".toList) := by
    decide +kernel
  exact absurd (h.hidden _ hmem) (by unfold Sealed; decide +kernel)

end QnscKb.Logs
