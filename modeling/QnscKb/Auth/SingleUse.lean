import QnscKb.Auth.Model
import QnscKb.Lib.Runs

/-!
# Auth — Single use

Refresh tokens, password-reset tokens and invitations under concurrent requests (`refresh_token`,
`reset_password` and `accept_invitation` of `src/api/routers/auth.py`).  Each reads the row of its
credential, then the account, and then writes; any steps of others come in between.
-/

namespace QnscKb.Auth

open QnscKb.Runs (By Run Throughout play run_play)

/-! ### Requests -/

inductive Request
  | refresh (token : Token)
  | reset (tokenHash password : String)
  | accept (tokenHash password : String)
  deriving DecidableEq, Repr

/-- How far a request is, with what it has read. -/
inductive Phase
  | arrived
  | holdsSession (session : RefreshSession)
  | holdsUser (session : RefreshSession) (user : User)
  | holdsGrant (grant : PasswordResetToken)
  | holdsOwner (grant : PasswordResetToken) (user : User)
  | holdsInvitation (item : Invitation)
  | holdsInvitee (item : Invitation) (existing : Option User)
  | provisioned (item : Invitation) (user : User)
  | done
  | refused (status : Nat)
  deriving DecidableEq, Repr

/-- What a request that succeeds has used, by its row. -/
inductive Use
  | refreshToken (id : Nat)
  | resetToken (id : Nat)
  | invitation (id : Nat)
  deriving DecidableEq, Repr

def afterRead {α : Type} (result : Except Nat α) (next : α → Phase) : Phase :=
  match result with
  | .error status => .refused status
  | .ok a => next a

/-- The next step of a request: the tables after it, the phase, and what it has used. -/
def advance (settings : Settings) (t : Tables) : Request → Phase →
    Option (Tables × Phase × Option Use)
  | .refresh token, .arrived =>
    some (t, afterRead (do refreshClaims t token; liveSession t token) .holdsSession, none)
  | .refresh token, .holdsSession session =>
    some (t, afterRead (sessionUser t token session) (.holdsUser session), none)
  | .refresh _, .holdsUser session user =>
    some ((rotate settings t session user).1, .done, some (.refreshToken session.id))
  | .reset tokenHash password, .arrived =>
    some (t, afterRead (do validatePassword password; liveGrant t tokenHash) .holdsGrant, none)
  | .reset _ _, .holdsGrant grant =>
    some (t, afterRead (grantUser t grant) (.holdsOwner grant), none)
  | .reset _ password, .holdsOwner grant user =>
    some (setPassword t grant user password, .done, some (.resetToken grant.id))
  | .accept tokenHash password, .arrived =>
    some (t, afterRead (do validatePassword password; liveInvitation t tokenHash)
      .holdsInvitation, none)
  | .accept _ _, .holdsInvitation item =>
    some (t, afterRead (invitee t item) (.holdsInvitee item), none)
  | .accept _ password, .holdsInvitee item existing =>
    match provision t item existing password with
    | .error status => some (t, .refused status, none)
    | .ok (t, user) => some (t, .provisioned item user, some (.invitation item.id))
  | .accept _ _, .provisioned item user => some ((markAccepted settings t item user).1, .done, none)
  | _, _ => none

/-- What the other requests write to these tables. -/
inductive Edit
  | wait (seconds : Nat)
  | logIn (userId : Nat)
  | logOut (sessionId : Nat)
  | forgotPassword (email tokenHash : String)
  | invite (email name role companyDomain tokenHash : String)
  | resendInvitation (id : Nat) (tokenHash : String)
  | revokeInvitation (id : Nat)
  | entraCallback (id userId : Nat)
  | createUser (user : User)
  | updateUser (id : Nat) (email : Option String) (active : Option Bool) (password : Option String)
  | changePassword (user : User) (password : String)
  | revokeOtherSessions (user : User)
  deriving DecidableEq, Repr

def edit (settings : Settings) (t : Tables) : Edit → Tables
  | .wait seconds => { t with now := t.now + seconds }
  | .logIn userId =>
    match t.getById userId with
    | none => t
    | some user => (signIn settings t user).1
  | .logOut sessionId => t.logOut sessionId
  | .forgotPassword email tokenHash => t.forgotPassword email tokenHash
  | .invite email name role companyDomain tokenHash =>
    t.invite email name role companyDomain tokenHash
  | .resendInvitation id tokenHash => t.resendInvitation id tokenHash
  | .revokeInvitation id => t.revokeInvitation id
  | .entraCallback id userId => { t with
      invitations := Rows.update (fun i => i.id == id)
        (fun i => { i with usedAt := some t.now, acceptedUserId := some userId }) t.invitations }
  | .createUser user => (t.addUser user).getD t
  | .updateUser id email active password => (t.updateUser id email active password).getD t
  | .changePassword user password => t.changePassword user password
  | .revokeOtherSessions user => t.revokeOtherSessions user

structure System where
  tables : Tables
  requests : List (Request × Phase)
  /-- Ghost: what has been used, the latest use first. -/
  log : List Use
  deriving DecidableEq, Repr

inductive Action
  | arrive (request : Request)
  | advance (i : Nat)
  | other (e : Edit)
  deriving DecidableEq, Repr

def System.next (settings : Settings) (s : System) (a : Action) : Option (Action × System) :=
  match a with
  | .arrive request => some (a, { s with requests := s.requests ++ [(request, .arrived)] })
  | .advance i =>
    match s.requests[i]? with
    | none => none
    | some (request, phase) =>
      match QnscKb.Auth.advance settings s.tables request phase with
      | none => none
      | some (t, phase, use) => some (a, {
          tables := t
          requests := s.requests.set i (request, phase)
          log := use.toList ++ s.log })
  | .other e => some (a, { s with tables := edit settings s.tables e })

def Initial (s : System) : Prop :=
  s.requests = [] ∧ s.log = []

/-! ### Marks -/

/-- Whether a credential's row is marked used: `revoked_at`, `used_at`. -/
def marked (t : Tables) : Use → Option Bool
  | .refreshToken id =>
    Rows.marked RefreshSession.id (fun s => s.revokedAt.isSome) id t.refreshSessions
  | .resetToken id =>
    Rows.marked PasswordResetToken.id (fun g => g.usedAt.isSome) id t.passwordResetTokens
  | .invitation id =>
    Rows.marked Invitation.id (fun i => i.usedAt.isSome) id t.invitations

/-- No row of a credential is lost, and none is unmarked again. -/
structure Keeps (t t' : Tables) : Prop where
  sessions : Rows.Keeps RefreshSession.id (fun s => s.revokedAt.isSome) t.refreshSessions
    t'.refreshSessions
  grants : Rows.Keeps PasswordResetToken.id (fun g => g.usedAt.isSome) t.passwordResetTokens
    t'.passwordResetTokens
  invitations : Rows.Keeps Invitation.id (fun i => i.usedAt.isSome) t.invitations t'.invitations

namespace Keeps

variable {t t' : Tables}

theorem of_eq (hs : t'.refreshSessions = t.refreshSessions)
    (hg : t'.passwordResetTokens = t.passwordResetTokens) (hi : t'.invitations = t.invitations) :
    Keeps t t' := by
  refine ⟨?_, ?_, ?_⟩
  · rw [hs]
    exact .refl _
  · rw [hg]
    exact .refl _
  · rw [hi]
    exact .refl _

theorem refl (t : Tables) : Keeps t t := of_eq rfl rfl rfl

theorem trans {a b c : Tables} (hab : Keeps a b) (hbc : Keeps b c) : Keeps a c :=
  ⟨hab.sessions.trans hbc.sessions, hab.grants.trans hbc.grants,
    hab.invitations.trans hbc.invitations⟩

theorem marked (h : Keeps t t') (use : Use) {b : Bool} (hb : marked t use = some b) :
    ∃ b', Auth.marked t' use = some b' ∧ (b = true → b' = true) := by
  cases use with
  | refreshToken id => exact h.sessions id b hb
  | resetToken id => exact h.grants id b hb
  | invitation id => exact h.invitations id b hb

theorem marked_true (h : Keeps t t') {use : Use} (hb : Auth.marked t use = some true) :
    Auth.marked t' use = some true := by
  obtain ⟨b, hb', himp⟩ := h.marked use hb
  rw [hb', himp rfl]

theorem setUser (t : Tables) (id : Nat) (f : User → User) : Keeps t (t.setUser id f) :=
  of_eq rfl rfl rfl

theorem addUser {user : User} (h : t.addUser user = some t') : Keeps t t' := by
  unfold Tables.addUser at h
  split at h
  · cases h
  · cases h
    exact of_eq rfl rfl rfl

theorem revokeSessions (t : Tables) (p : RefreshSession → Bool) :
    Keeps t { t with
      refreshSessions := Rows.update p (fun s => { s with revokedAt := some t.now })
        t.refreshSessions } := by
  refine { refl t with sessions := ?_ }
  apply Rows.Keeps.update
  · intro row
    rfl
  · intro row _
    rfl

theorem useGrants (t : Tables) (p : PasswordResetToken → Bool) :
    Keeps t { t with
      passwordResetTokens := Rows.update p (fun g => { g with usedAt := some t.now })
        t.passwordResetTokens } := by
  refine { refl t with grants := ?_ }
  apply Rows.Keeps.update
  · intro row
    rfl
  · intro row _
    rfl

theorem useInvitations (t : Tables) (p : Invitation → Bool) (userId : Nat) :
    Keeps t { t with
      invitations := Rows.update p
        (fun i => { i with usedAt := some t.now, acceptedUserId := some userId })
        t.invitations } := by
  refine { refl t with invitations := ?_ }
  apply Rows.Keeps.update
  · intro row
    rfl
  · intro row _
    rfl

theorem signIn (settings : Settings) (t : Tables) (user : User) :
    Keeps t (signIn settings t user).1 :=
  { refl t with sessions := .append _ _ }

theorem rotate (settings : Settings) (t : Tables) (session : RefreshSession) (user : User) :
    Keeps t (rotate settings t session user).1 :=
  (revokeSessions t _).trans (signIn settings _ user)

theorem setPassword (t : Tables) (grant : PasswordResetToken) (user : User) (password : String) :
    Keeps t (setPassword t grant user password) :=
  ((setUser t user.id _).trans (useGrants _ _)).trans (revokeSessions _ _)

theorem provision {item : Invitation} {existing : Option User} {password : String} {user : User}
    (h : provision t item existing password = .ok (t', user)) : Keeps t t' := by
  cases existing with
  | some row =>
    cases h
    exact setUser t row.id _
  | none =>
    dsimp only [Auth.provision] at h
    split at h
    · cases h
    · rename_i hadd
      cases h
      exact addUser hadd

theorem markAccepted (settings : Settings) (t : Tables) (item : Invitation) (user : User) :
    Keeps t (markAccepted settings t item user).1 :=
  (useInvitations t _ user.id).trans (signIn settings _ user)

end Keeps

/-- **No other request takes a mark off.** -/
theorem edit_keeps (settings : Settings) (t : Tables) (e : Edit) : Keeps t (edit settings t e) := by
  cases e with
  | wait seconds => exact .of_eq rfl rfl rfl
  | logIn userId =>
    dsimp only [edit]
    split
    · exact .refl t
    · exact .signIn settings t _
  | logOut sessionId => exact .revokeSessions t _
  | forgotPassword email tokenHash =>
    dsimp only [edit, Tables.forgotPassword]
    split
    · exact .refl t
    · split
      · exact { Keeps.refl t with grants := .append _ _ }
      · exact .refl t
  | invite email name role companyDomain tokenHash =>
    dsimp only [edit, Tables.invite]
    split
    · exact .refl t
    · exact { Keeps.refl t with invitations := .append _ _ }
  | resendInvitation | revokeInvitation =>
    refine { Keeps.refl t with invitations := ?_ }
    apply Rows.Keeps.update
    · intro row
      rfl
    · intro row h
      exact h
  | entraCallback id userId => exact .useInvitations t _ userId
  | createUser user =>
    dsimp only [edit]
    cases hadd : t.addUser user with
    | none => exact .refl t
    | some t' => exact .addUser hadd
  | updateUser id email active password =>
    dsimp only [edit, Tables.updateUser]
    split
    · exact .refl t
    · rw [Option.getD_some]
      split
      · exact (Keeps.setUser t id _).trans (.revokeSessions _ _)
      · exact .setUser t id _
  | changePassword user password => exact (Keeps.setUser t user.id _).trans (.revokeSessions _ _)
  | revokeOtherSessions user => exact (Keeps.setUser t user.id _).trans (.revokeSessions _ _)

/-! ### One step of a request -/

/-- What a request that is about to write is about to use, where no unique constraint stops it. -/
def aboutToUse (t : Tables) : Phase → Option Use
  | .holdsUser session _ => some (.refreshToken session.id)
  | .holdsOwner grant _ => some (.resetToken grant.id)
  | .holdsInvitee item existing =>
    if existing.isSome || (t.getByEmail item.email).isNone then some (.invitation item.id)
    else none
  | _ => none

/-- What a request has used and not marked yet. -/
def Phase.toMark : Phase → Option Use
  | .provisioned item _ => some (.invitation item.id)
  | _ => none

@[simp] theorem toMark_afterRead {α : Type} {result : Except Nat α} {next : α → Phase}
    (h : ∀ a, (next a).toMark = none) : (afterRead result next).toMark = none := by
  cases result with
  | error status => rfl
  | ok a => exact h a

/-- What one step of a request does. -/
structure Advanced (t : Tables) (phase : Phase) (t' : Tables) (phase' : Phase)
    (use : Option Use) : Prop where
  keeps : Keeps t t'
  /-- It uses only what it was about to use, -/
  about : ∀ u, use = some u → aboutToUse t phase = some u
  /-- and marks that, or has it to mark. -/
  marks : ∀ u, use = some u → marked t u = some false →
    marked t' u = some true ∨ phase'.toMark = some u
  marksLater : ∀ u, phase.toMark = some u → (marked t u).isSome → marked t' u = some true
  toMark : ∀ u, phase'.toMark = some u → use = some u

variable {phase phase' : Phase}

theorem Advanced.reads (t : Tables) (h : phase.toMark = none) (h' : phase'.toMark = none) :
    Advanced t phase t phase' none where
  keeps := .refl t
  about := fun _ hu => nomatch hu
  marks := fun _ hu => nomatch hu
  marksLater := fun _ hu => nomatch h.symm.trans hu
  toMark := fun _ hu => nomatch h'.symm.trans hu

variable {t : Tables}

variable {user : User} {b : Bool}

theorem marked_rotate (settings : Settings) {session : RefreshSession}
    (h : marked t (.refreshToken session.id) = some b) :
    marked (rotate settings t session user).1 (.refreshToken session.id) = some true := by
  let revoked : Tables := { t with
    refreshSessions := Rows.update (fun s => s.id == session.id)
      (fun s => { s with revokedAt := some t.now }) t.refreshSessions }
  have hrevoked : marked revoked (.refreshToken session.id) = some true := by
    refine Rows.marked_update_self ?_ ?_ ?_ h
    · intro row
      rfl
    · intro row
      rfl
    · intro row hrow
      simpa using hrow
  have hkeeps : Keeps revoked (rotate settings t session user).1 := .signIn settings revoked user
  exact hkeeps.marked_true hrevoked

theorem marked_setPassword {grant : PasswordResetToken} {password : String}
    (h : marked t (.resetToken grant.id) = some b) :
    marked (setPassword t grant user password) (.resetToken grant.id) = some true := by
  refine Rows.marked_update_self ?_ ?_ ?_ h
  · intro row
    rfl
  · intro row
    rfl
  · intro row hrow
    simp [hrow]

theorem marked_markAccepted (settings : Settings) {item : Invitation}
    (h : marked t (.invitation item.id) = some b) :
    marked (markAccepted settings t item user).1 (.invitation item.id) = some true := by
  refine Rows.marked_update_self ?_ ?_ ?_ h
  · intro row
    rfl
  · intro row
    rfl
  · intro row hrow
    simpa using hrow

theorem aboutToUse_of_provision {t' : Tables} {item : Invitation} {existing : Option User}
    {password : String} (h : provision t item existing password = .ok (t', user)) :
    aboutToUse t (.holdsInvitee item existing) = some (.invitation item.id) := by
  cases existing with
  | some row => rfl
  | none =>
    dsimp only [provision, Tables.addUser] at h
    by_cases htaken : (t.getByEmail item.email).isSome
    · rw [if_pos htaken] at h
      cases h
    · have hfree : (t.getByEmail item.email).isNone = true := by simpa using htaken
      rw [aboutToUse, hfree, Bool.or_true, if_pos rfl]

variable {request : Request}

/-- **One step of a request.** -/
theorem advance_keeps {settings : Settings} {t' : Tables} {use : Option Use}
    (h : advance settings t request phase = some (t', phase', use)) :
    Advanced t phase t' phase' use := by
  cases request with
  | refresh token =>
    cases phase with
    | arrived =>
      cases h
      exact .reads t rfl (toMark_afterRead fun _ => rfl)
    | holdsSession session =>
      cases h
      exact .reads t rfl (toMark_afterRead fun _ => rfl)
    | holdsUser session user =>
      cases h
      refine ⟨.rotate settings t session user, fun _ hu => hu, ?_, nofun, nofun⟩
      rintro u ⟨⟩ hfree
      exact .inl (marked_rotate settings hfree)
    | _ => cases h
  | reset tokenHash password =>
    cases phase with
    | arrived =>
      cases h
      exact .reads t rfl (toMark_afterRead fun _ => rfl)
    | holdsGrant grant =>
      cases h
      exact .reads t rfl (toMark_afterRead fun _ => rfl)
    | holdsOwner grant user =>
      cases h
      refine ⟨.setPassword t grant user password, fun _ hu => hu, ?_, nofun, nofun⟩
      rintro u ⟨⟩ hfree
      exact .inl (marked_setPassword hfree)
    | _ => cases h
  | accept tokenHash password =>
    cases phase with
    | arrived =>
      cases h
      exact .reads t rfl (toMark_afterRead fun _ => rfl)
    | holdsInvitation item =>
      cases h
      exact .reads t rfl (toMark_afterRead fun _ => rfl)
    | holdsInvitee item existing =>
      dsimp only [advance] at h
      cases hout : provision t item existing password with
      | error status =>
        rw [hout] at h
        cases h
        exact .reads t rfl rfl
      | ok out =>
        rw [hout] at h
        cases h
        refine ⟨.provision hout, ?_, fun _ hu _ => .inr hu, nofun, fun _ hu => hu⟩
        rintro u ⟨⟩
        exact aboutToUse_of_provision hout
    | provisioned item user =>
      cases h
      refine ⟨.markAccepted settings t item user, nofun, nofun, ?_, nofun⟩
      rintro u ⟨⟩ hrow
      obtain ⟨b, hb⟩ := Option.isSome_iff_exists.mp hrow
      exact marked_markAccepted settings hb
    | _ => cases h

/-! ### Runs that use each credential once -/

/-- A request that is about to use a credential finds its row unmarked, and no other request has
used it without marking it. -/
def findsUnmarked (s : System) : Action → Bool
  | .advance i => (s.requests[i]?).all fun r => (aboutToUse s.tables r.2).all fun use =>
    marked s.tables use == some false && s.requests.all fun other => other.2.toMark != some use
  | _ => true

/-- What the steps keep. -/
structure Kept (s : System) : Prop where
  once : s.log.Nodup
  /-- What was used is marked, or a request has it to mark. -/
  used : ∀ use ∈ s.log, marked s.tables use = some true ∨ ∃ r ∈ s.requests, r.2.toMark = some use
  /-- What is to be marked is there. -/
  toMark : ∀ r ∈ s.requests, ∀ use, r.2.toMark = some use → (marked s.tables use).isSome

variable {s : System}

theorem Kept.initial (h : Initial s) : Kept s := by
  refine ⟨?_, ?_, ?_⟩
  · rw [h.2]
    exact List.nodup_nil
  · rw [h.2]
    exact List.forall_mem_nil _
  · rw [h.1]
    exact List.forall_mem_nil _

theorem Kept.tables (h : Kept s) (hk : Keeps s.tables t) : Kept { s with tables := t } := by
  refine ⟨h.once, ?_, ?_⟩
  · intro use huse
    rcases h.used use huse with hmarked | hmark
    · exact .inl (hk.marked_true hmarked)
    · exact .inr hmark
  · intro r hr use huse
    obtain ⟨b, hb⟩ := Option.isSome_iff_exists.mp (h.toMark r hr use huse)
    obtain ⟨b', hb', -⟩ := hk.marked use hb
    exact Option.isSome_iff_exists.mpr ⟨b', hb'⟩

theorem Kept.arrive (h : Kept s) (request : Request) :
    Kept { s with requests := s.requests ++ [(request, .arrived)] } := by
  refine ⟨h.once, ?_, ?_⟩
  · intro use huse
    refine (h.used use huse).imp_right ?_
    rintro ⟨r, hr, hmark⟩
    exact ⟨r, List.mem_append_left _ hr, hmark⟩
  · intro r hr use huse
    rcases List.mem_append.mp hr with hr | hr
    · exact h.toMark r hr use huse
    · rw [List.mem_singleton.mp hr] at huse
      cases huse

theorem Kept.advance (h : Kept s) {i : Nat} {use : Option Use}
    (hi : s.requests[i]? = some (request, phase)) (ha : Advanced s.tables phase t phase' use)
    (hfree : ∀ u, use = some u → marked s.tables u = some false ∧ ∀ other ∈ s.requests,
        other.2.toMark ≠ some u) :
    Kept ⟨t, s.requests.set i (request, phase'), use.toList ++ s.log⟩ := by
  have hlt : i < s.requests.length := (List.getElem?_eq_some_iff.mp hi).1
  have hself : (request, phase') ∈ s.requests.set i (request, phase') := List.mem_set hlt _
  refine ⟨?_, ?_, ?_⟩
  · cases use with
    | none => exact h.once
    | some u =>
      refine List.nodup_cons.mpr ⟨fun hmem => ?_, h.once⟩
      obtain ⟨hunmarked, hnone⟩ := hfree u rfl
      rcases h.used u hmem with hmarked | ⟨r, hr, hmark⟩
      · exact absurd (hunmarked.symm.trans hmarked) (by decide)
      · exact hnone r hr hmark
  · intro u hu
    rcases List.mem_append.mp hu with hnew | hold
    · have huse : use = some u := Option.mem_toList.mp hnew
      exact (ha.marks u huse (hfree u huse).1).imp_right fun hmark => ⟨_, hself, hmark⟩
    · rcases h.used u hold with hmarked | ⟨r, hr, hmark⟩
      · exact .inl (ha.keeps.marked_true hmarked)
      · obtain ⟨j, hj⟩ := List.getElem?_of_mem hr
        by_cases hij : i = j
        · subst hij
          obtain rfl := Option.some.inj (hi.symm.trans hj)
          exact .inl (ha.marksLater u hmark (h.toMark _ hr u hmark))
        · exact .inr ⟨r, List.mem_of_getElem? ((List.getElem?_set_ne hij).trans hj), hmark⟩
  · intro r hr u hu
    have hrow : (marked s.tables u).isSome := by
      rcases List.mem_or_eq_of_mem_set hr with hr | rfl
      · exact h.toMark r hr u hu
      · rw [(hfree u (ha.toMark u hu)).1]
        rfl
    obtain ⟨b, hb⟩ := Option.isSome_iff_exists.mp hrow
    obtain ⟨b', hb', -⟩ := ha.keeps.marked u hb
    exact Option.isSome_iff_exists.mpr ⟨b', hb'⟩

theorem unmarked_of_finds {i : Nat} {u : Use} (h : findsUnmarked s (.advance i) = true)
    (hi : s.requests[i]? = some (request, phase)) (hu : aboutToUse s.tables phase = some u) :
    marked s.tables u = some false ∧ ∀ other ∈ s.requests, other.2.toMark ≠ some u := by
  simpa [findsUnmarked, hi, hu] using h

theorem Kept.next {settings : Settings} {s' : System} {a b : Action} (h : Kept s)
    (hn : s.next settings a = some (b, s')) (hc : findsUnmarked s b = true) : Kept s' := by
  cases a with
  | arrive request =>
    cases hn
    exact h.arrive request
  | other e =>
    cases hn
    exact h.tables (edit_keeps settings s.tables e)
  | advance i =>
    dsimp only [System.next] at hn
    cases hi : s.requests[i]? with
    | none =>
      rw [hi] at hn
      cases hn
    | some r =>
      obtain ⟨request, phase⟩ := r
      rw [hi] at hn
      dsimp only at hn
      cases hstep : Auth.advance settings s.tables request phase with
      | none =>
        rw [hstep] at hn
        cases hn
      | some out =>
        rw [hstep] at hn
        cases hn
        have ha := advance_keeps hstep
        exact h.advance hi ha fun u hu => unmarked_of_finds hc hi (ha.about u hu)

/-! ### Two at once -/

/-- Lan with a session and a reset link, and Minh, deactivated and invited again. -/
def office : Tables where
  users := [
    { id := 1, email := "lan@qnsc.vn", name := "Lan", passwordHash := getPasswordHash "first one",
      companyDomain := "qnsc.vn", role := "Staff", active := true, authVersion := 0,
      accessSubject := none },
    { id := 2, email := "minh@qnsc.vn", name := "Minh", passwordHash := getPasswordHash "other one",
      companyDomain := "qnsc.vn", role := "Staff", active := false, authVersion := 3,
      accessSubject := none }]
  refreshSessions := [
    { id := 10, userId := 1, tokenHash := ⟨.refresh, "lan@qnsc.vn", 0, 1000, some 7⟩,
      expiresAt := 1000, revokedAt := none }]
  passwordResetTokens := [
    { id := 20, userId := 1, tokenHash := "r-token", expiresAt := 1000, usedAt := none,
      requestedForEmail := "lan@qnsc.vn" }]
  invitations := [
    { id := 30, email := "minh@qnsc.vn", name := "Minh", role := "Staff",
      companyDomain := "qnsc.vn", tokenHash := "i-token", expiresAt := 1000, usedAt := none,
      revokedAt := none, acceptedUserId := none }]
  now := 100
  fresh := 40

def hour : Settings := ⟨60, 7⟩

/-- The same request twice, each read of the one followed by that of the other, then the writes. -/
def twice (request : Request) (first second writes : Nat) : List Action :=
  [.arrive request, .arrive request, .advance first, .advance second, .advance first,
    .advance second] ++ List.replicate writes (.advance first) ++
    List.replicate writes (.advance second)

def bothAtOnce : List Action :=
  twice (.refresh ⟨.refresh, "lan@qnsc.vn", 0, 1000, some 7⟩) 0 1 1 ++
  twice (.reset "r-token" "a new long password") 2 3 1 ++
  twice (.accept "i-token" "another long password") 4 5 2

def start : System := ⟨office, [], []⟩

theorem bothAtOnce_plays : (play (System.next hour) [] start bothAtOnce).isSome = true := by
  decide +kernel

/-- **No request looks again before it writes**: two that read before either writes both succeed. -/
theorem every_credential_used_twice :
    ∃ tr s, Run Initial (By (System.next hour)) tr s ∧
      s.log.count (.refreshToken 10) = 2 ∧ s.log.count (.resetToken 20) = 2 ∧
      s.log.count (.invitation 30) = 2 ∧ s.requests.all (fun r => r.2 == .done) = true :=
  ⟨_, _, run_play ⟨rfl, rfl⟩ bothAtOnce_plays, by decide +kernel⟩

/-- **Single use.**  In a run in which every request that is about to use a credential finds its row
unmarked, each is used at most once. -/
theorem used_once_of_unmarked (settings : Settings) {tr : List (System × Action)} {s : System}
    (hrun : Run Initial (By (System.next settings)) tr s)
    (hfind : Throughout (fun s a => findsUnmarked s a = true) tr) : s.log.Nodup := by
  have hkept : Kept s := by
    refine hrun.invariant (fun _ => Kept.initial) ?_ hfind
    rintro s b t h hc ⟨a, hn⟩
    exact h.next hn hc
  exact hkept.once

/-- A refresh, and the same token presented again. -/
def oneAfterTheOther : List Action :=
  [.arrive (.refresh ⟨.refresh, "lan@qnsc.vn", 0, 1000, some 7⟩), .advance 0, .advance 0, .advance 0,
    .arrive (.refresh ⟨.refresh, "lan@qnsc.vn", 0, 1000, some 7⟩), .advance 1]

theorem oneAfterTheOther_plays :
    (play (System.next hour) [] start oneAfterTheOther).isSome = true := by
  decide +kernel

theorem used_once_oneAfterTheOther :
    ((play (System.next hour) [] start oneAfterTheOther).get oneAfterTheOther_plays).2.log =
        [.refreshToken 10] ∧
      ((play (System.next hour) [] start oneAfterTheOther).get
        oneAfterTheOther_plays).2.log.Nodup :=
  ⟨by decide +kernel,
    used_once_of_unmarked hour (run_play ⟨rfl, rfl⟩ oneAfterTheOther_plays) (by decide +kernel)⟩

end QnscKb.Auth
