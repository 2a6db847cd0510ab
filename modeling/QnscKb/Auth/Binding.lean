import QnscKb.Auth.Model
import QnscKb.Lib.Runs

/-!
# Auth — Binding

Access identities and the accounts they are bound to (`resolve_access_principal` of
`src/api/routers/mcp.py`).  A call reads the account of the verified address; where it has no
subject yet, it writes its own under `access_subject IS NULL` and the unique constraint, commits,
and reads the row again.  Steps of others come in between.
-/

namespace QnscKb.Auth.Binding

open QnscKb.Runs (By Run Throughout play run_play)

/-! ### One call -/

/-- What an Access token was verified to say. -/
structure AccessIdentity where
  sub : String
  email : Option String
  deriving DecidableEq, Repr

structure AccessPrincipal where
  userId : Nat
  email : String
  authVersion : Nat
  deriving DecidableEq, Repr

/-- The reason `_deny_access` logs. -/
inductive Reason
  | noEmailClaim | noActiveEmployee | accessSubjectTaken | accessSubjectMismatch
  deriving DecidableEq, Repr

/-- How far a call is, with the account it has read. -/
inductive Phase
  | arrived
  | unbound (user : User)
  | wrote (user : User)
  | returned (principal : AccessPrincipal)
  | refused (reason : Reason)
  deriving DecidableEq, Repr

section Call

variable (t : Tables) (identity : AccessIdentity)

def checkSubject (user : User) : Phase :=
  if user.accessSubject = some identity.sub then .returned ⟨user.id, user.email, user.authVersion⟩
  else .refused .accessSubjectMismatch

/-- The first read: the active account of the address. -/
def lookUp : Phase :=
  match identity.email with
  | none => .refused .noEmailClaim
  | some email =>
    if '@' ∉ email.toList ∨ email.toList.getLast? = some '@' then .refused .noEmailClaim
    else match t.getByEmail email with
      | none => .refused .noActiveEmployee
      | some user =>
        if user.active = false then .refused .noActiveEmployee
        else if user.accessSubject = none then .unbound user
        else checkSubject identity user

/-- Whether the account read has no subject yet in the table. -/
def stillUnbound (user : User) : Bool :=
  (t.getById user.id).any fun row => row.accessSubject.isNone

def taken : Bool :=
  t.users.any fun row => row.accessSubject == some identity.sub

/-- The conditional update and its commit. -/
def bind (user : User) : Tables × Phase :=
  if stillUnbound t user then
    if taken t identity then (t, .refused .accessSubjectTaken)
    else (t.setUser user.id fun row => { row with accessSubject := some identity.sub }, .wrote user)
  else (t, .wrote user)

def readAgain (user : User) : Phase :=
  match t.getById user.id with
  | none => .refused .noActiveEmployee
  | some row =>
    if row.active = false then .refused .noActiveEmployee else checkSubject identity row

end Call

/-! ### Runs -/

/-- Ghost: a binding, and the call that made it; none made those that were there before. -/
structure Bound where
  subject : String
  account : Nat
  call : Option Nat
  deriving DecidableEq, Repr

structure System where
  tables : Tables
  calls : List (AccessIdentity × Phase)
  bindings : List Bound
  deriving DecidableEq, Repr

inductive Action
  | arrive (identity : AccessIdentity)
  | advance (i : Nat)
  | createUser (email name password companyDomain role : String)
  | updateUser (id : Nat) (email : Option String) (active : Option Bool) (password : Option String)
  deriving DecidableEq, Repr

/-- What a step ends. -/
inductive Event
  | returned (subject : String) (principal : AccessPrincipal)
  | refused (i : Nat) (reason : Reason)
  | silent
  deriving DecidableEq, Repr

def eventOf (i : Nat) (identity : AccessIdentity) : Phase → Event
  | .returned principal => .returned identity.sub principal
  | .refused reason => .refused i reason
  | _ => .silent

namespace System

variable (s : System)

def read (i : Nat) (identity : AccessIdentity) (phase : Phase) : Event × System :=
  (eventOf i identity phase, { s with calls := s.calls.set i (identity, phase) })

def write (i : Nat) (identity : AccessIdentity) (user : User) : Event × System :=
  (eventOf i identity (bind s.tables identity user).2, {
    tables := (bind s.tables identity user).1
    calls := s.calls.set i (identity, (bind s.tables identity user).2)
    bindings :=
      if stillUnbound s.tables user && !taken s.tables identity then
        ⟨identity.sub, user.id, some i⟩ :: s.bindings
      else s.bindings })

def next : Action → Option (Event × System)
  | .arrive identity => some (.silent, { s with calls := s.calls ++ [(identity, .arrived)] })
  | .advance i =>
    match s.calls[i]? with
    | some (identity, .arrived) => some (s.read i identity (lookUp s.tables identity))
    | some (identity, .unbound user) => some (s.write i identity user)
    | some (identity, .wrote user) => some (s.read i identity (readAgain s.tables identity user))
    | _ => none
  | .createUser email name password companyDomain role =>
    some (.silent, { s with
      tables := (s.tables.addUser
        (newUser s.tables email name password companyDomain role)).getD s.tables })
  | .updateUser id email active password =>
    some (.silent, { s with
      tables := (s.tables.updateUser id email active password).getD s.tables })

end System

/-- Accounts with their keys and unique subjects, and no call under way. -/
structure Initial (s : System) : Prop where
  ids : (s.tables.users.map User.id).Nodup
  supply : ∀ user ∈ s.tables.users, user.id < s.tables.fresh
  subjects : (s.tables.users.filterMap User.accessSubject).Nodup
  calls : s.calls = []
  bindings : s.bindings = s.tables.users.filterMap fun user =>
    user.accessSubject.map fun subject => ⟨subject, user.id, none⟩

/-- How a call may end: with an active account bound to its subject, or refused, with a new binding
only on an inactive account. -/
def EndsWell (s : System) : Event → Prop
  | .returned subject principal =>
    (∃ b ∈ s.bindings, b.subject = subject ∧ b.account = principal.userId) ∧
      ∃ user ∈ s.tables.users, user.id = principal.userId ∧ user.active = true ∧
        user.accessSubject = some subject
  | .refused i _ =>
    ∀ b ∈ s.bindings, b.call = some i →
      ∃ user ∈ s.tables.users, user.id = b.account ∧ user.active = false
  | .silent => True

/-! ### What the steps keep -/

def subjectsOf (t : Tables) : List (Nat × Option String) :=
  t.users.map fun user => (user.id, user.accessSubject)

theorem mem_subjectsOf {t : Tables} {user : User} (h : user ∈ t.users) :
    (user.id, user.accessSubject) ∈ subjectsOf t :=
  List.mem_map_of_mem h

/-- A phase of a call that has written to an account, or has ended. -/
def Phase.past (id : Nat) : Phase → Prop
  | .arrived => False
  | .unbound _ => False
  | .wrote user => user.id = id
  | .returned _ => True
  | .refused _ => True

structure Kept (s : System) : Prop where
  ids : ((subjectsOf s.tables).map Prod.fst).Nodup
  supply : ∀ p ∈ subjectsOf s.tables, p.1 < s.tables.fresh
  /-- The bindings are those of the table. -/
  owned : ∀ b ∈ s.bindings, (b.account, some b.subject) ∈ subjectsOf s.tables
  logged : ∀ id subject, (id, some subject) ∈ subjectsOf s.tables →
    ∃ b ∈ s.bindings, b.account = id ∧ b.subject = subject
  subjects : (s.bindings.map Bound.subject).Nodup
  accounts : (s.bindings.map Bound.account).Nodup
  ofCall : ∀ b ∈ s.bindings, ∀ i, b.call = some i → ∃ identity phase,
    s.calls[i]? = some (identity, phase) ∧ b.subject = identity.sub ∧ phase.past b.account

namespace Kept

variable {s s' : System}

theorem initial (h : Initial s) : Kept s where
  ids := by
    rw [subjectsOf, List.map_map]
    exact h.ids
  supply := by
    intro p hp
    obtain ⟨user, hu, rfl⟩ := List.mem_map.mp hp
    exact h.supply user hu
  owned := by
    intro b hb
    rw [h.bindings] at hb
    obtain ⟨user, hu, hsome⟩ := List.mem_filterMap.mp hb
    obtain ⟨subject, hsub, rfl⟩ := Option.map_eq_some_iff.mp hsome
    rw [← hsub]
    exact mem_subjectsOf hu
  logged := by
    intro id subject hp
    obtain ⟨user, hu, heq⟩ := List.mem_map.mp hp
    obtain ⟨rfl, hsub⟩ := Prod.mk.inj heq
    refine ⟨⟨subject, user.id, none⟩, ?_, rfl, rfl⟩
    rw [h.bindings]
    exact List.mem_filterMap.mpr ⟨user, hu, by rw [hsub, Option.map_some]⟩
  subjects := by
    rw [h.bindings, List.map_filterMap]
    simp only [Option.map_map, Function.comp_def, Option.map_id']
    exact h.subjects
  accounts := by
    have hids := h.ids
    rw [List.Nodup, List.pairwise_map] at hids
    rw [h.bindings, List.Nodup, List.pairwise_map, List.pairwise_filterMap]
    refine hids.imp fun {a b} hne x hx y hy => ?_
    obtain ⟨_, -, rfl⟩ := Option.map_eq_some_iff.mp hx
    obtain ⟨_, -, rfl⟩ := Option.map_eq_some_iff.mp hy
    exact hne
  ofCall := by
    intro b hb i hi
    rw [h.bindings] at hb
    obtain ⟨user, -, hsome⟩ := List.mem_filterMap.mp hb
    obtain ⟨subject, -, rfl⟩ := Option.map_eq_some_iff.mp hsome
    cases hi

theorem eq_of_fst (h : Kept s) {p q : Nat × Option String} (hp : p ∈ subjectsOf s.tables)
    (hq : q ∈ subjectsOf s.tables) (heq : p.1 = q.1) : p = q :=
  List.inj_on_of_nodup_map h.ids hp hq heq

variable {t : Tables}

theorem tables (h : Kept s) (hfresh : s.tables.fresh ≤ t.fresh)
    (hsame : subjectsOf t = subjectsOf s.tables) : Kept { s with tables := t } where
  ids := by rw [hsame]; exact h.ids
  supply := by
    intro p hp
    rw [hsame] at hp
    exact Nat.lt_of_lt_of_le (h.supply p hp) hfresh
  owned := by rw [hsame]; exact h.owned
  logged := by rw [hsame]; exact h.logged
  subjects := h.subjects
  accounts := h.accounts
  ofCall := h.ofCall

variable {user : User}

theorem addUser (h : Kept s) (hnone : user.accessSubject = none)
    (hadd : s.tables.addUser user = some t) : Kept { s with tables := t } := by
  unfold Tables.addUser at hadd
  split at hadd
  · cases hadd
  · cases hadd
    have hsplit : ∀ p ∈ subjectsOf { s.tables with
        users := s.tables.users ++ [{ user with id := s.tables.fresh }]
        fresh := s.tables.fresh + 1 },
        p ∈ subjectsOf s.tables ∨ p = (s.tables.fresh, none) := by
      intro p hp
      rw [subjectsOf, List.map_append] at hp
      refine (List.mem_append.mp hp).imp_right fun hnew => ?_
      rw [← hnone]
      exact List.mem_singleton.mp hnew
    refine { h with ids := ?_, supply := ?_, owned := ?_, logged := ?_ }
    · rw [subjectsOf, List.map_append, List.map_append, List.nodup_append]
      refine ⟨h.ids, List.nodup_singleton _, ?_⟩
      rintro a ha b hb rfl
      obtain ⟨p, hp, rfl⟩ := List.mem_map.mp ha
      exact absurd (List.mem_singleton.mp hb) (Nat.ne_of_lt (h.supply p hp))
    · intro p hp
      rcases hsplit p hp with hp | rfl
      · exact Nat.lt_succ_of_lt (h.supply p hp)
      · exact Nat.lt_succ_self _
    · intro b hb
      rw [subjectsOf, List.map_append]
      exact List.mem_append_left _ (h.owned b hb)
    · intro id subject hp
      rcases hsplit _ hp with hp | heq
      · exact h.logged id subject hp
      · cases (Prod.mk.inj heq).2

theorem subjectsOf_setUser (t : Tables) (id : Nat) {f : User → User}
    (hid : ∀ user, (f user).id = user.id)
    (hsub : ∀ user, (f user).accessSubject = user.accessSubject) :
    subjectsOf (t.setUser id f) = subjectsOf t := by
  refine Rows.map_update fun user _ _ => ?_
  rw [hid, hsub]

theorem updateUser (h : Kept s) {id : Nat} {email : Option String} {active : Option Bool}
    {password : Option String} (hup : s.tables.updateUser id email active password = some t) :
    Kept { s with tables := t } := by
  have hset := subjectsOf_setUser s.tables id (f := fun user => user.patched email active password)
    (fun _ => rfl) fun _ => rfl
  unfold Tables.updateUser at hup
  split at hup
  · cases hup
  · cases hup
    split
    · exact h.tables (Nat.le_refl _) hset
    · exact h.tables (Nat.le_refl _) hset

theorem arrive (h : Kept s) (identity : AccessIdentity) :
    Kept { s with calls := s.calls ++ [(identity, .arrived)] } := by
  refine { h with ofCall := ?_ }
  intro b hb i hi
  obtain ⟨identity', phase, hget, hrest⟩ := h.ofCall b hb i hi
  have hlt := (List.getElem?_eq_some_iff.mp hget).1
  exact ⟨identity', phase, (List.getElem?_append_left hlt).trans hget, hrest⟩

variable {i : Nat} {identity : AccessIdentity}

theorem move (h : Kept s) {phase phase' : Phase} (hi : s.calls[i]? = some (identity, phase))
    (hpast : ∀ id, phase.past id → phase'.past id) :
    Kept { s with calls := s.calls.set i (identity, phase') } := by
  refine { h with ofCall := ?_ }
  intro b hb j hj
  obtain ⟨identity', old, hget, hsub, hold⟩ := h.ofCall b hb j hj
  by_cases hij : i = j
  · subst hij
    obtain ⟨rfl, rfl⟩ := Prod.mk.inj (Option.some.inj (hi.symm.trans hget))
    have hlt := (List.getElem?_eq_some_iff.mp hi).1
    exact ⟨identity, phase', List.getElem?_set_self hlt, hsub, hpast _ hold⟩
  · exact ⟨identity', old, (List.getElem?_set_ne hij).trans hget, hsub, hold⟩

theorem subjectsOf_bind (t : Tables) (id : Nat) (subject : String) :
    subjectsOf (t.setUser id fun row => { row with accessSubject := some subject }) =
      Rows.update (fun p => p.1 == id) (fun p => (p.1, some subject)) (subjectsOf t) := by
  simp only [subjectsOf, Tables.setUser, Rows.update, List.map_map]
  refine List.map_congr_left fun user _ => ?_
  simp only [Function.comp_apply]
  split
  · rfl
  · rfl

/-- **A binding**: the account has none, the subject has none, and both have this one after. -/
theorem bind (h : Kept s) (hi : s.calls[i]? = some (identity, .unbound user))
    (hunbound : stillUnbound s.tables user = true) (hfree : taken s.tables identity = false) :
    Kept {
      tables := s.tables.setUser user.id fun row => { row with accessSubject := some identity.sub }
      calls := s.calls.set i (identity, .wrote user)
      bindings := ⟨identity.sub, user.id, some i⟩ :: s.bindings } := by
  obtain ⟨row, hrow, hnone⟩ : ∃ row, s.tables.getById user.id = some row ∧
      row.accessSubject = none := by
    simpa [stillUnbound, Option.any_eq_true] using hunbound
  have hhas : (user.id, none) ∈ subjectsOf s.tables := by
    have hmem := mem_subjectsOf (Rows.mem_of_get hrow)
    rwa [Rows.key_of_get hrow, hnone] at hmem
  have hnew : ∀ id, (id, some identity.sub) ∉ subjectsOf s.tables := by
    intro id hp
    obtain ⟨other, ho, heq⟩ := List.mem_map.mp hp
    have hno := List.any_eq_false.mp hfree other ho
    exact hno (beq_iff_eq.mpr (Prod.mk.inj heq).2)
  have hother : ∀ b ∈ s.bindings, b.account ≠ user.id := by
    intro b hb heq
    have hsame := h.eq_of_fst (h.owned b hb) hhas heq
    cases (Prod.mk.inj hsame).2
  refine ⟨?_, ?_, ?_, ?_, ?_, ?_, ?_⟩
  · have hfst : (Rows.update (fun p => p.1 == user.id) (fun p => (p.1, some identity.sub))
        (subjectsOf s.tables)).map Prod.fst = (subjectsOf s.tables).map Prod.fst := by
      apply Rows.map_update
      intro p _ _
      rfl
    rw [subjectsOf_bind, hfst]
    exact h.ids
  · intro p hp
    rw [subjectsOf_bind] at hp
    obtain ⟨old, hold, rfl⟩ := Rows.mem_update.mp hp
    have hlt := h.supply old hold
    split
    · exact hlt
    · exact hlt
  · intro b hb
    rw [subjectsOf_bind]
    rcases List.mem_cons.mp hb with rfl | hb
    · exact Rows.mem_update.mpr ⟨_, hhas, (if_pos (beq_self_eq_true _)).symm⟩
    · refine Rows.mem_update.mpr ⟨_, h.owned b hb, (if_neg ?_).symm⟩
      exact fun heq => hother b hb (beq_iff_eq.mp heq)
  · intro id subject hp
    rw [subjectsOf_bind] at hp
    obtain ⟨old, hold, heq⟩ := Rows.mem_update.mp hp
    by_cases hthis : (old.1 == user.id) = true
    · rw [if_pos hthis] at heq
      obtain ⟨rfl, hsub⟩ := Prod.mk.inj heq
      exact ⟨_, List.mem_cons_self, (beq_iff_eq.mp hthis).symm, (Option.some.inj hsub).symm⟩
    · rw [if_neg hthis] at heq
      rw [← heq] at hold
      obtain ⟨b, hb, hrest⟩ := h.logged id subject hold
      exact ⟨b, List.mem_cons_of_mem _ hb, hrest⟩
  · refine List.nodup_cons.mpr ⟨fun hmem => ?_, h.subjects⟩
    obtain ⟨b, hb, hsub⟩ := List.mem_map.mp hmem
    have howned := h.owned b hb
    rw [hsub] at howned
    exact hnew _ howned
  · refine List.nodup_cons.mpr ⟨fun hmem => ?_, h.accounts⟩
    obtain ⟨b, hb, haccount⟩ := List.mem_map.mp hmem
    exact hother b hb haccount
  · intro b hb j hj
    rcases List.mem_cons.mp hb with rfl | hb
    · cases hj
      have hlt := (List.getElem?_eq_some_iff.mp hi).1
      exact ⟨identity, .wrote user, List.getElem?_set_self hlt, rfl, rfl⟩
    · exact (h.move hi fun _ hp => hp.elim).ofCall b hb j hj

/-- **One step.** -/
theorem next (h : Kept s) {a : Action} {e : Event} (hn : s.next a = some (e, s')) : Kept s' := by
  cases a with
  | arrive identity =>
    cases hn
    exact h.arrive identity
  | advance i =>
    dsimp only [System.next] at hn
    split at hn
    · rename_i identity hi
      cases hn
      exact h.move hi fun _ hp => hp.elim
    · rename_i identity user hi
      cases hn
      unfold Binding.bind
      by_cases hunbound : stillUnbound s.tables user = true
      · by_cases htaken : taken s.tables identity = true
        · rw [if_pos hunbound, htaken, Bool.not_true, Bool.and_false]
          exact h.move hi fun _ hp => hp.elim
        · rw [Bool.not_eq_true] at htaken
          rw [if_pos hunbound, if_neg (Bool.eq_false_iff.mp htaken), hunbound, htaken,
            Bool.not_false, Bool.and_true, if_pos rfl]
          exact h.bind hi hunbound htaken
      · rw [Bool.eq_false_iff.mpr hunbound]
        exact h.move hi fun _ hp => hp.elim
    · rename_i identity user hi
      cases hn
      refine h.move hi fun _ _ => ?_
      unfold readAgain checkSubject
      repeat' split
      all_goals trivial
    · cases hn
  | createUser email name password companyDomain role =>
    cases hn
    cases hadd : s.tables.addUser (newUser s.tables email name password companyDomain role) with
    | none => exact h
    | some t => exact h.addUser rfl hadd
  | updateUser id email active password =>
    cases hn
    cases hup : s.tables.updateUser id email active password with
    | none => exact h
    | some t => exact h.updateUser hup

theorem endsWell_checkSubject (h : Kept s) (hu : user ∈ s.tables.users)
    (hactive : user.active = true)
    (hown : user.accessSubject ≠ some identity.sub → ∀ b ∈ s.bindings, b.call ≠ some i) :
    EndsWell s (eventOf i identity (checkSubject identity user)) := by
  unfold checkSubject
  split
  · rename_i hsub
    refine ⟨?_, user, hu, rfl, hactive, hsub⟩
    obtain ⟨b, hb, haccount, hbsub⟩ := h.logged user.id identity.sub (hsub ▸ mem_subjectsOf hu)
    exact ⟨b, hb, hbsub, haccount⟩
  · rename_i hne
    intro b hb hcall
    exact absurd hcall (hown hne b hb)

theorem not_ofCall (h : Kept s) {phase : Phase} (hi : s.calls[i]? = some (identity, phase))
    (hpast : ∀ id, ¬ phase.past id) : ∀ b ∈ s.bindings, b.call ≠ some i := by
  intro b hb hcall
  obtain ⟨identity', phase', hget, -, hp⟩ := h.ofCall b hb i hcall
  obtain ⟨rfl, rfl⟩ := Prod.mk.inj (Option.some.inj (hi.symm.trans hget))
  exact hpast _ hp

theorem endsWell_lookUp (h : Kept s) (hi : s.calls[i]? = some (identity, .arrived)) :
    EndsWell s (eventOf i identity (lookUp s.tables identity)) := by
  have hnone := h.not_ofCall hi fun _ hp => hp
  have hrefused : ∀ reason, EndsWell s (eventOf i identity (.refused reason)) :=
    fun _ b hb hcall => absurd hcall (hnone b hb)
  unfold lookUp
  split
  · exact hrefused _
  · split
    · exact hrefused _
    · split
      · exact hrefused _
      · rename_i user hrow
        split
        · exact hrefused _
        · rename_i hactive
          split
          · trivial
          · exact h.endsWell_checkSubject (Rows.mem_of_get hrow) (Bool.not_eq_false _ ▸ hactive)
              fun _ => hnone

theorem owned_of_wrote (h : Kept s) (hi : s.calls[i]? = some (identity, .wrote user)) {b : Bound}
    (hb : b ∈ s.bindings) (hcall : b.call = some i) :
    b.account = user.id ∧ (user.id, some identity.sub) ∈ subjectsOf s.tables := by
  obtain ⟨identity', phase, hget, hsub, hp⟩ := h.ofCall b hb i hcall
  obtain ⟨rfl, rfl⟩ := Prod.mk.inj (Option.some.inj (hi.symm.trans hget))
  have hid : user.id = b.account := hp
  exact ⟨hid.symm, by rw [hid, ← hsub]; exact h.owned b hb⟩

theorem endsWell_readAgain (h : Kept s) (hi : s.calls[i]? = some (identity, .wrote user)) :
    EndsWell s (eventOf i identity (readAgain s.tables identity user)) := by
  unfold readAgain
  split
  · rename_i hgone
    intro b hb hcall
    obtain ⟨old, hold, heq⟩ := List.mem_map.mp (h.owned_of_wrote hi hb hcall).2
    have hne := List.find?_eq_none.mp hgone old hold
    exact absurd (beq_iff_eq.mpr (Prod.mk.inj heq).1) hne
  · rename_i row hrow
    split
    · rename_i hinactive
      intro b hb hcall
      exact ⟨row, Rows.mem_of_get hrow,
        (Rows.key_of_get hrow).trans (h.owned_of_wrote hi hb hcall).1.symm, hinactive⟩
    · rename_i hactive
      refine h.endsWell_checkSubject (Rows.mem_of_get hrow) (Bool.not_eq_false _ ▸ hactive) ?_
      intro hne b hb hcall
      have hkey : row.id = user.id := Rows.key_of_get hrow
      have hsame := h.eq_of_fst (mem_subjectsOf (Rows.mem_of_get hrow))
        (h.owned_of_wrote hi hb hcall).2 hkey
      exact hne (Prod.mk.inj hsame).2

/-- **A call ends well.** -/
theorem endsWell (h : Kept s) {a : Action} {e : Event} (hn : s.next a = some (e, s')) :
    EndsWell s e := by
  cases a with
  | arrive identity => cases hn; trivial
  | createUser email name password companyDomain role => cases hn; trivial
  | updateUser id email active password => cases hn; trivial
  | advance i =>
    dsimp only [System.next] at hn
    split at hn
    · rename_i identity hi
      cases hn
      exact h.endsWell_lookUp hi
    · rename_i identity user hi
      cases hn
      have hnone := h.not_ofCall hi fun _ hp => hp
      unfold Binding.bind
      split
      · split
        · exact fun b hb hcall => absurd hcall (hnone b hb)
        · trivial
      · trivial
    · rename_i identity user hi
      cases hn
      exact h.endsWell_readAgain hi
    · cases hn

end Kept

/-! ### Runs -/

theorem bindings_grow {s s' : System} {a : Action} {e : Event} (hn : s.next a = some (e, s')) :
    ∀ b ∈ s.bindings, b ∈ s'.bindings := by
  intro b hb
  cases a with
  | advance i =>
    dsimp only [System.next] at hn
    split at hn
    · cases hn
      exact hb
    · cases hn
      split
      · exact List.mem_cons_of_mem _ hb
      · exact hb
    · cases hn
      exact hb
    · cases hn
  | _ =>
    cases hn
    exact hb

/-- **Bound for good.**  Over a run, a subject is bound to one account and an account to one
subject; every call ends well. -/
theorem bound_for_good {tr : List (System × Event)} {s : System}
    (hrun : Run Initial (By System.next) tr s) :
    (s.bindings.map Bound.subject).Nodup ∧ (s.bindings.map Bound.account).Nodup ∧
      (∀ b ∈ s.bindings, ∃ user ∈ s.tables.users,
        user.id = b.account ∧ user.accessSubject = some b.subject) ∧
      (∀ p ∈ tr, ∀ b ∈ p.1.bindings, b ∈ s.bindings) ∧ Throughout EndsWell tr := by
  have htrivial : Throughout (fun _ _ => True) tr := fun _ _ => trivial
  have hstep : ∀ s e t, Kept s → True → By System.next s e t → Kept t := by
    rintro s e t h - ⟨a, hn⟩
    exact h.next hn
  have hkept : Kept s := hrun.invariant (fun _ => Kept.initial) hstep htrivial
  refine ⟨hkept.subjects, hkept.accounts, ?_, ?_, ?_⟩
  · intro b hb
    obtain ⟨user, hu, heq⟩ := List.mem_map.mp (hkept.owned b hb)
    exact ⟨user, hu, Prod.mk.inj heq⟩
  · refine hrun.along (J := fun tr s => ∀ p ∈ tr, ∀ b ∈ p.1.bindings, b ∈ s.bindings)
      (fun _ _ => List.forall_mem_nil _) ?_ htrivial
    rintro tr s e t ih - ⟨a, hn⟩ p hp b hb
    rcases List.mem_cons.mp hp with rfl | hp
    · exact bindings_grow hn b hb
    · exact bindings_grow hn b (ih p hp b hb)
  · refine hrun.always (fun _ => Kept.initial) hstep ?_ htrivial
    rintro s e t h - ⟨a, hn⟩
    exact h.endsWell hn

def office : System where
  tables := {
    users := [
      { id := 1, email := "lan@qnsc.vn", name := "Lan", passwordHash := getPasswordHash "lan's own",
        companyDomain := "qnsc.vn", role := "Staff", active := true, authVersion := 0,
        accessSubject := none }]
    refreshSessions := []
    passwordResetTokens := []
    invitations := []
    now := 0
    fresh := 2 }
  calls := []
  bindings := []

theorem office_initial : Initial office :=
  ⟨by decide, by decide, by decide, rfl, rfl⟩

def deactivatedMeanwhile : List Action :=
  [.arrive ⟨"idp-1", some "lan@qnsc.vn"⟩, .advance 0, .updateUser 1 none (some false) none,
    .advance 0, .advance 0]

theorem deactivatedMeanwhile_plays :
    (play System.next [] office deactivatedMeanwhile).isSome = true := by
  decide +kernel

/-- **A refused call may leave its binding**: the account was deactivated before the update. -/
theorem binding_left_behind :
    ∃ tr s, Run Initial (By System.next) tr s ∧
      s.calls = [(⟨"idp-1", some "lan@qnsc.vn"⟩, .refused .noActiveEmployee)] ∧
      s.tables.users.map User.accessSubject = [some "idp-1"] :=
  ⟨_, _, run_play office_initial deactivatedMeanwhile_plays, by decide +kernel⟩

def twoFirstUses : List Action :=
  [.arrive ⟨"idp-1", some "lan@qnsc.vn"⟩, .arrive ⟨"idp-2", some "lan@qnsc.vn"⟩, .advance 0,
    .advance 1, .advance 0, .advance 1, .advance 0, .advance 1]

theorem twoFirstUses_plays : (play System.next [] office twoFirstUses).isSome = true := by
  decide +kernel

theorem bound_for_good_twoFirstUses :
    ((play System.next [] office twoFirstUses).get twoFirstUses_plays).2.calls.map Prod.snd =
        [.returned ⟨1, "lan@qnsc.vn", 0⟩, .refused .accessSubjectMismatch] ∧
      Throughout EndsWell
        ((play System.next [] office twoFirstUses).get twoFirstUses_plays).1 :=
  ⟨by decide +kernel, (bound_for_good (run_play office_initial twoFirstUses_plays)).2.2.2.2⟩

end QnscKb.Auth.Binding
