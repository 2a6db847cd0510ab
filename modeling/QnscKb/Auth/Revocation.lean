import QnscKb.Auth.Model
import QnscKb.Lib.Runs
import QnscKb.Lib.Where

/-!
# Auth — Revocation

Whom a token is accepted as (`get_current_user` of `src/api/deps.py`, `refresh_token` of
`src/api/routers/auth.py`) over the runs of the requests that change accounts and sessions.

An access token names an address and a version, a refresh token a session.  Each is kept with its
account, and with whether the password was changed or reset, the other sessions revoked or the
account deactivated since.
-/

namespace QnscKb.Auth.Revocation

open QnscKb.Runs (By Run Throughout play run_play)

section Acceptance

variable (t : Tables) (token : Token)

def getCurrentUser : Except Nat User :=
  if token.type = .access ∧ t.now < token.exp ∧ '@' ∈ token.sub.toList then
    match t.getByEmail token.sub with
    | none => .error 401
    | some user =>
      if user.active = false then .error 403
      else if token.av ≠ user.authVersion then .error 401
      else .ok user
  else .error 401

/-- The session and account `refresh_token` accepts a token for. -/
def refreshUser : Except Nat (RefreshSession × User) :=
  match refreshClaims t token with
  | .error status => .error status
  | .ok () =>
    match liveSession t token with
    | .error status => .error status
    | .ok session => (sessionUser t token session).map fun user => (session, user)

/-- The account a token is accepted as. -/
def acceptedAs : Option User :=
  match token.type with
  | .access => (getCurrentUser t token).toOption
  | .refresh => (refreshUser t token).toOption.map Prod.snd

end Acceptance

/-! ### Requests -/

/-- Ghost: a token, its account, and whether that account's last password change, reset, revocation
of its other sessions or deactivation came after. -/
structure Issue where
  token : Token
  owner : Nat
  ended : Bool
  deriving DecidableEq, Repr

structure Realm where
  tables : Tables
  issued : List Issue
  deriving DecidableEq, Repr

namespace Realm

def endAll (r : Realm) (id : Nat) : Realm :=
  { r with issued := r.issued.map fun i => if i.owner = id then { i with ended := true } else i }

def issue (r : Realm) (owner : Nat) (out : Tables × List Token) : Realm :=
  { tables := out.1, issued := out.2.map (fun token => ⟨token, owner, false⟩) ++ r.issued }

end Realm

inductive Request
  | wait (seconds : Nat)
  | login (email password : String)
  | refresh (token : Token)
  | logOut (sessionId : Nat)
  | changePassword (token : Token) (currentPassword newPassword : String)
  | forgotPassword (email tokenHash : String)
  | resetPassword (tokenHash password : String)
  | revokeOthers (token cookie : Token)
  | createUser (email name password companyDomain role : String)
  | updateUser (id : Nat) (email : Option String) (active : Option Bool) (password : Option String)
  | deactivate (id : Nat)
  | invite (email name role companyDomain tokenHash : String)
  | resendInvitation (id : Nat) (tokenHash : String)
  | revokeInvitation (id : Nat)
  | accept (tokenHash password : String)
  deriving DecidableEq, Repr

section Handlers

variable (settings : Settings) (r : Realm)

def login (email password : String) : Except Nat Realm :=
  match r.tables.getByEmail email with
  | none => .error 401
  | some user =>
    if verifyPassword password user.passwordHash then
      .ok (r.issue user.id (signIn settings r.tables user))
    else .error 401

def refresh (token : Token) : Except Nat Realm :=
  match refreshUser r.tables token with
  | .error status => .error status
  | .ok (session, user) => .ok (r.issue user.id (rotate settings r.tables session user))

def changePassword (token : Token) (currentPassword newPassword : String) : Except Nat Realm :=
  match getCurrentUser r.tables token with
  | .error status => .error status
  | .ok user =>
    if verifyPassword currentPassword user.passwordHash = false then .error 401
    else match validatePassword newPassword with
      | .error status => .error status
      | .ok () =>
        if newPassword = currentPassword then .error 422
        else .ok ((r.endAll user.id).issue user.id
          (signIn settings (r.tables.changePassword user newPassword)
            { user with
              passwordHash := getPasswordHash newPassword
              authVersion := user.authVersion + 1 }))

def resetPassword (tokenHash password : String) : Except Nat Realm :=
  match validatePassword password with
  | .error status => .error status
  | .ok () =>
    match liveGrant r.tables tokenHash with
    | .error status => .error status
    | .ok grant =>
      match grantUser r.tables grant with
      | .error status => .error status
      | .ok user => .ok ({ r with
          tables := setPassword r.tables grant user password }.endAll user.id)

def revokeOthers (token cookie : Token) : Except Nat Realm :=
  match getCurrentUser r.tables token with
  | .error status => .error status
  | .ok user =>
    match r.tables.refreshSessions.find? fun s => s.userId == user.id && s.revokedAt.isNone &&
        decide (r.tables.now < s.expiresAt) && s.tokenHash == cookie with
    | none => .error 400
    | some _ => .ok ((r.endAll user.id).issue user.id
        (signIn settings (r.tables.revokeOtherSessions user)
          { user with authVersion := user.authVersion + 1 }))

def createUser (user : User) : Except Nat Realm :=
  match r.tables.addUser user with
  | none => .error 400
  | some t => .ok { r with tables := t }

def updateUser (id : Nat) (email : Option String) (active : Option Bool)
    (password : Option String) : Except Nat Realm :=
  match r.tables.updateUser id email active password with
  | none => .error 500
  | some t =>
    if password.isSome = true ∨ active = some false then .ok ({ r with tables := t }.endAll id)
    else .ok { r with tables := t }

def accept (tokenHash password : String) : Except Nat Realm :=
  match validatePassword password with
  | .error status => .error status
  | .ok () =>
    match liveInvitation r.tables tokenHash with
    | .error status => .error status
    | .ok item =>
      match invitee r.tables item with
      | .error status => .error status
      | .ok existing =>
        match provision r.tables item existing password with
        | .error status => .error status
        | .ok (t, user) => .ok (r.issue user.id (markAccepted settings t item user))

def handle : Request → Except Nat Realm
  | .wait seconds => .ok { r with tables.now := r.tables.now + seconds }
  | .login email password => login settings r email password
  | .refresh token => refresh settings r token
  | .logOut sessionId => .ok { r with tables := r.tables.logOut sessionId }
  | .changePassword token currentPassword newPassword =>
    changePassword settings r token currentPassword newPassword
  | .forgotPassword email tokenHash =>
    .ok { r with tables := r.tables.forgotPassword email tokenHash }
  | .resetPassword tokenHash password => resetPassword r tokenHash password
  | .revokeOthers token cookie => revokeOthers settings r token cookie
  | .createUser email name password companyDomain role =>
    createUser r (newUser r.tables email name password companyDomain role)
  | .updateUser id email active password => updateUser r id email active password
  | .deactivate id => updateUser r id none (some false) none
  | .invite email name role companyDomain tokenHash =>
    .ok { r with tables := r.tables.invite email name role companyDomain tokenHash }
  | .resendInvitation id tokenHash =>
    .ok { r with tables := r.tables.resendInvitation id tokenHash }
  | .revokeInvitation id => .ok { r with tables := r.tables.revokeInvitation id }
  | .accept tokenHash password => accept settings r tokenHash password

end Handlers

def Realm.next (settings : Settings) (r : Realm) (request : Request) : Option (Request × Realm) :=
  match handle settings r request with
  | .error _ => some (request, r)
  | .ok r' => some (request, r')

/-- Accounts no token has been issued to yet. -/
structure Initial (r : Realm) : Prop where
  emails : (r.tables.users.map User.email).Nodup
  ids : (r.tables.users.map User.id).Nodup
  supply : ∀ user ∈ r.tables.users, user.id < r.tables.fresh
  sessions : r.tables.refreshSessions = []
  issued : r.issued = []

/-- Every token is accepted only as the account it was issued to, and only while it is not ended. -/
def TokensKept (r : Realm) : Prop :=
  ∀ i ∈ r.issued, ∀ user, acceptedAs r.tables i.token = some user →
    user.id = i.owner ∧ i.ended = false

/-! ### Tokens still out -/

/-- An unexpired access token under the account's address, of its version or a later one, that is
another account's, or ended while the account is active. -/
def threatens (t : Tables) (i : Issue) (user : User) : Bool :=
  i.token.type == .access && decide (t.now < i.token.exp) && i.token.sub == user.email &&
    decide (user.authVersion ≤ i.token.av) && (i.owner != user.id || i.ended && user.active)

def threatened (r : Realm) (user : User) : Bool :=
  r.issued.any fun i => threatens r.tables i user

/-- The request threatens no account: none it creates under a free address, and none whose address,
active flag or password it sets. -/
def leavesNoneThreatened (r : Realm) : Request → Bool
  | .createUser email name password companyDomain role =>
    (r.tables.getByEmail email).isSome ||
      !threatened r (newUser r.tables email name password companyDomain role)
  | .updateUser id email active password =>
    (email.bind r.tables.getByEmail).any (fun other => other.id != id) ||
      (r.tables.getById id).all fun user => !threatened r (user.patched email active password)
  | .accept tokenHash password =>
    match liveInvitation r.tables tokenHash with
    | .error _ => true
    | .ok item =>
      (r.tables.getByEmail item.email).isSome ||
        !threatened r (newUser r.tables item.email item.name password item.companyDomain item.role)
  | _ => true

variable {t : Tables} {user : User}

theorem threatens_iff {i : Issue} : threatens t i user = true ↔
    i.token.type = .access ∧ t.now < i.token.exp ∧ i.token.sub = user.email ∧
      user.authVersion ≤ i.token.av ∧ (i.owner ≠ user.id ∨ i.ended = true ∧ user.active = true) := by
  simp [threatens, and_assoc]

theorem threatened_eq_false_iff {r : Realm} :
    threatened r user = false ↔ ∀ i ∈ r.issued, threatens r.tables i user = false := by
  simp [threatened]

theorem threatened_of_later {r : Realm} {later : User} (h : threatened r user = false)
    (hid : later.id = user.id) (hemail : later.email = user.email)
    (hav : user.authVersion ≤ later.authVersion)
    (hactive : later.active = true → user.active = true) : threatened r later = false := by
  rw [threatened_eq_false_iff] at h ⊢
  intro i hi
  rw [Bool.eq_false_iff]
  intro hthreat
  obtain ⟨htype, hexp, hsub, hle, howner⟩ := threatens_iff.mp hthreat
  refine absurd (threatens_iff.mpr ⟨htype, hexp, hsub.trans hemail, Nat.le_trans hav hle, ?_⟩)
    (Bool.eq_false_iff.mp (h i hi))
  rw [← hid]
  exact howner.imp_right fun ⟨hended, hlater⟩ => ⟨hended, hactive hlater⟩

/-! ### What the requests keep -/

structure Sound (r : Realm) : Prop where
  emails : (r.tables.users.map User.email).Nodup
  ids : (r.tables.users.map User.id).Nodup
  supply : ∀ user ∈ r.tables.users, user.id < r.tables.fresh
  owners : ∀ i ∈ r.issued, i.owner < r.tables.fresh
  /-- No token is ahead of its account. -/
  versions : ∀ i ∈ r.issued, ∀ user ∈ r.tables.users, user.id = i.owner →
    i.token.av ≤ user.authVersion
  safe : ∀ user ∈ r.tables.users, threatened r user = false
  jtis : ∀ i ∈ r.issued, ∀ j, i.token.jti = some j → j < r.tables.fresh
  sessionJtis : ∀ session ∈ r.tables.refreshSessions,
    ∃ j < r.tables.fresh, session.tokenHash.jti = some j
  /-- A session is its token's owner's, and is revoked once the token is ended. -/
  sessions : ∀ session ∈ r.tables.refreshSessions, ∀ i ∈ r.issued, i.token = session.tokenHash →
    session.userId = i.owner ∧ (i.ended = true → session.revokedAt.isSome = true)

namespace Sound

variable {r : Realm}

theorem initial (h : Initial r) : Sound r where
  emails := h.emails
  ids := h.ids
  supply := h.supply
  owners := by rw [h.issued]; exact List.forall_mem_nil _
  versions := by rw [h.issued]; exact List.forall_mem_nil _
  safe := by
    intro user _
    rw [threatened, h.issued, List.any_nil]
  jtis := by rw [h.issued]; exact List.forall_mem_nil _
  sessionJtis := by rw [h.sessions]; exact List.forall_mem_nil _
  sessions := by rw [h.sessions]; exact List.forall_mem_nil _

theorem eq_of_id (h : Sound r) {a b : User} (ha : a ∈ r.tables.users) (hb : b ∈ r.tables.users)
    (hid : a.id = b.id) : a = b :=
  List.inj_on_of_nodup_map h.ids ha hb hid

theorem eq_of_email (h : Sound r) {a b : User} (ha : a ∈ r.tables.users)
    (hb : b ∈ r.tables.users) (hemail : a.email = b.email) : a = b :=
  List.inj_on_of_nodup_map h.emails ha hb hemail

variable {user : User}

/-- **A refresh token** is accepted as its owner, and not once it is ended. -/
theorem refresh (h : Sound r) {i : Issue} (hi : i ∈ r.issued) {session : RefreshSession}
    (haccept : refreshUser r.tables i.token = .ok (session, user)) :
    user.id = i.owner ∧ i.ended = false := by
  unfold refreshUser at haccept
  split at haccept
  · cases haccept
  · split at haccept
    · cases haccept
    · rename_i live hlive
      have hpair : sessionUser r.tables i.token live = .ok user ∧ live = session := by
        cases hout : sessionUser r.tables i.token live with
        | error status => rw [hout] at haccept; cases haccept
        | ok user => rw [hout] at haccept; cases haccept; exact ⟨rfl, rfl⟩
      obtain ⟨huser, rfl⟩ := hpair
      unfold liveSession at hlive
      split at hlive
      · cases hlive
      · rename_i hfind
        cases hlive
        have hrow := List.find?_some hfind
        simp only [Bool.and_eq_true, beq_iff_eq, Option.isNone_iff_eq_none] at hrow
        obtain ⟨howner, hended⟩ := h.sessions live (List.mem_of_find?_eq_some hfind) i hi hrow.1.1.symm
        refine ⟨?_, ?_⟩
        · unfold sessionUser at huser
          split at huser
          · cases huser
          · split at huser
            · rename_i hok
              cases huser
              exact hok.2.1.trans howner
            · cases huser
        · rw [Bool.eq_false_iff]
          intro hend
          have hrevoked := hended hend
          rw [hrow.1.2] at hrevoked
          cases hrevoked

theorem access (h : Sound r) {i : Issue} (hi : i ∈ r.issued)
    (haccept : getCurrentUser r.tables i.token = .ok user) :
    user.id = i.owner ∧ i.ended = false := by
  unfold getCurrentUser at haccept
  split at haccept
  · rename_i hclaims
    split at haccept
    · cases haccept
    · rename_i row hrow
      split at haccept
      · cases haccept
      · rename_i hactive
        split at haccept
        · cases haccept
        · rename_i hav
          cases haccept
          have hsafe := threatened_eq_false_iff.mp (h.safe user (Rows.mem_of_get hrow)) i hi
          have hno : ¬ (i.owner ≠ user.id ∨ i.ended = true ∧ user.active = true) := by
            intro hbad
            refine absurd (threatens_iff.mpr ⟨hclaims.1, hclaims.2.1, ?_, ?_, hbad⟩)
              (Bool.eq_false_iff.mp hsafe)
            · exact (Rows.key_of_get hrow).symm
            · exact Nat.le_of_eq (not_not.mp hav).symm
          obtain ⟨howner, hended⟩ := not_or.mp hno
          refine ⟨(not_not.mp howner).symm, Bool.eq_false_iff.mpr fun hend => hended ⟨hend, ?_⟩⟩
          simpa using hactive
  · cases haccept

theorem tokensKept (h : Sound r) : TokensKept r := by
  intro i hi user haccept
  unfold acceptedAs at haccept
  split at haccept
  · cases hout : getCurrentUser r.tables i.token with
    | error status => rw [hout] at haccept; cases haccept
    | ok row => rw [hout] at haccept; cases haccept; exact h.access hi hout
  · cases hout : refreshUser r.tables i.token with
    | error status => rw [hout] at haccept; cases haccept
    | ok pair =>
      rw [hout] at haccept
      cases haccept
      exact h.refresh hi hout

/-! Writes that touch neither accounts nor tokens. -/

variable {t : Tables}

theorem of_same (h : Sound r) (husers : t.users = r.tables.users)
    (hsessions : t.refreshSessions = r.tables.refreshSessions) (hnow : r.tables.now ≤ t.now)
    (hfresh : r.tables.fresh ≤ t.fresh) : Sound { r with tables := t } where
  emails := by rw [husers]; exact h.emails
  ids := by rw [husers]; exact h.ids
  supply := fun user hu => Nat.lt_of_lt_of_le (h.supply user (husers ▸ hu)) hfresh
  owners := fun i hi => Nat.lt_of_lt_of_le (h.owners i hi) hfresh
  versions := fun i hi user hu => h.versions i hi user (husers ▸ hu)
  safe := by
    intro user hu
    rw [threatened_eq_false_iff]
    intro i hi
    rw [Bool.eq_false_iff]
    intro hthreat
    obtain ⟨htype, hexp, hrest⟩ := threatens_iff.mp hthreat
    exact absurd (threatens_iff.mpr ⟨htype, Nat.lt_of_le_of_lt hnow hexp, hrest⟩)
      (Bool.eq_false_iff.mp (threatened_eq_false_iff.mp (h.safe user (husers ▸ hu)) i hi))
  jtis := fun i hi j hj => Nat.lt_of_lt_of_le (h.jtis i hi j hj) hfresh
  sessionJtis := by
    intro session hs
    obtain ⟨j, hlt, hj⟩ := h.sessionJtis session (hsessions ▸ hs)
    exact ⟨j, Nat.lt_of_lt_of_le hlt hfresh, hj⟩
  sessions := fun session hs => h.sessions session (hsessions ▸ hs)

theorem revoke (h : Sound r) (p : RefreshSession → Bool) :
    Sound { r with tables := { r.tables with
      refreshSessions := Rows.update p (fun s => { s with revokedAt := some r.tables.now })
        r.tables.refreshSessions } } := by
  refine { h with sessionJtis := ?_, sessions := ?_ }
  · intro session hs
    obtain ⟨old, hold, rfl⟩ := Rows.mem_update.mp hs
    obtain ⟨j, hlt, hj⟩ := h.sessionJtis old hold
    refine ⟨j, hlt, ?_⟩
    split
    · exact hj
    · exact hj
  · intro session hs i hi htoken
    obtain ⟨old, hold, rfl⟩ := Rows.mem_update.mp hs
    by_cases hp : p old = true
    · rw [if_pos hp] at htoken ⊢
      exact ⟨(h.sessions old hold i hi htoken).1, fun _ => rfl⟩
    · rw [if_neg hp] at htoken ⊢
      exact h.sessions old hold i hi htoken

variable {id : Nat} {f : User → User}

theorem setUser (h : Sound r) (hid : ∀ user ∈ r.tables.users, user.id = id → (f user).id = user.id)
    (hemail : ∀ user ∈ r.tables.users, user.id = id → ∀ other ∈ r.tables.users, other.id ≠ id →
        other.email ≠ (f user).email)
    (hav : ∀ user ∈ r.tables.users, user.id = id → user.authVersion ≤ (f user).authVersion)
    (hsafe : ∀ user ∈ r.tables.users, user.id = id → threatened r (f user) = false) :
    Sound { r with tables := r.tables.setUser id f } where
  emails := Rows.nodup_update h.ids h.emails hemail
  ids := by
    rw [Tables.setUser, Rows.map_update fun row hrow hp => hid row hrow (beq_iff_eq.mp hp)]
    exact h.ids
  supply := by
    intro user hu
    obtain ⟨old, hold, rfl⟩ := Rows.mem_update.mp hu
    by_cases hp : (old.id == id) = true
    · rw [if_pos hp, hid old hold (beq_iff_eq.mp hp)]
      exact h.supply old hold
    · rw [if_neg hp]
      exact h.supply old hold
  owners := h.owners
  versions := by
    intro i hi user hu howner
    obtain ⟨old, hold, rfl⟩ := Rows.mem_update.mp hu
    by_cases hp : (old.id == id) = true
    · rw [if_pos hp] at howner ⊢
      rw [hid old hold (beq_iff_eq.mp hp)] at howner
      exact Nat.le_trans (h.versions i hi old hold howner) (hav old hold (beq_iff_eq.mp hp))
    · rw [if_neg hp] at howner ⊢
      exact h.versions i hi old hold howner
  safe := by
    intro user hu
    obtain ⟨old, hold, rfl⟩ := Rows.mem_update.mp hu
    by_cases hp : (old.id == id) = true
    · rw [if_pos hp]
      exact hsafe old hold (beq_iff_eq.mp hp)
    · rw [if_neg hp]
      exact h.safe old hold
  jtis := h.jtis
  sessionJtis := h.sessionJtis
  sessions := h.sessions

theorem setUser_later (h : Sound r)
    (hid : ∀ user ∈ r.tables.users, user.id = id → (f user).id = user.id)
    (hemail : ∀ user ∈ r.tables.users, user.id = id → (f user).email = user.email)
    (hactive : ∀ user ∈ r.tables.users, user.id = id → (f user).active = true → user.active = true)
    (hav : ∀ user ∈ r.tables.users, user.id = id → user.authVersion ≤ (f user).authVersion) :
    Sound { r with tables := r.tables.setUser id f } := by
  refine h.setUser hid ?_ hav ?_
  · intro user hu huid other ho hoid heq
    rw [hemail user hu huid] at heq
    exact hoid ((congrArg User.id (h.eq_of_email ho hu heq)).trans huid)
  · intro user hu huid
    exact threatened_of_later (h.safe user hu) (hid user hu huid) (hemail user hu huid)
      (hav user hu huid) (hactive user hu huid)

theorem endAll (h : Sound r)
    (hpast : ∀ user ∈ r.tables.users, user.id = id → user.active = true →
        ∀ i ∈ r.issued, i.owner = id → i.token.av < user.authVersion)
    (hrevoked : ∀ session ∈ r.tables.refreshSessions, session.userId = id →
        session.revokedAt.isSome = true) :
    Sound (r.endAll id) := by
  have hmem : ∀ i ∈ (r.endAll id).issued, ∃ old ∈ r.issued, i.token = old.token ∧
      i.owner = old.owner ∧ (i.ended = true → old.owner = id ∨ old.ended = true) := by
    intro i hi
    obtain ⟨old, hold, rfl⟩ := List.mem_map.mp hi
    refine ⟨old, hold, ?_⟩
    split
    · exact ⟨rfl, rfl, fun _ => .inl ‹_›⟩
    · exact ⟨rfl, rfl, .inr⟩
  refine { h with owners := ?_, versions := ?_, safe := ?_, jtis := ?_, sessions := ?_ }
  · intro i hi
    obtain ⟨old, hold, -, howner, -⟩ := hmem i hi
    rw [howner]
    exact h.owners old hold
  · intro i hi user hu
    obtain ⟨old, hold, htoken, howner, -⟩ := hmem i hi
    rw [htoken, howner]
    exact h.versions old hold user hu
  · intro user hu
    rw [threatened_eq_false_iff]
    intro i hi
    obtain ⟨old, hold, htoken, howner, hended⟩ := hmem i hi
    rw [Bool.eq_false_iff]
    intro hthreat
    obtain ⟨htype, hexp, hsub, hle, hbad⟩ := threatens_iff.mp hthreat
    rw [htoken] at htype hexp hsub hle
    rw [howner] at hbad
    have hsafe := threatened_eq_false_iff.mp (h.safe user hu) old hold
    rw [Bool.eq_false_iff] at hsafe
    rcases hbad with hother | ⟨hend, hactive⟩
    · exact hsafe (threatens_iff.mpr ⟨htype, hexp, hsub, hle, .inl hother⟩)
    · by_cases hown : old.owner = user.id
      · rcases hended hend with howned | hold'
        · exact absurd hle
            (Nat.not_le.mpr (hpast user hu (hown.symm.trans howned) hactive old hold howned))
        · exact hsafe (threatens_iff.mpr ⟨htype, hexp, hsub, hle, .inr ⟨hold', hactive⟩⟩)
      · exact hsafe (threatens_iff.mpr ⟨htype, hexp, hsub, hle, .inl hown⟩)
  · intro i hi j hj
    obtain ⟨old, hold, htoken, -, -⟩ := hmem i hi
    rw [htoken] at hj
    exact h.jtis old hold j hj
  · intro session hs i hi heq
    obtain ⟨old, hold, htoken, howner, hended⟩ := hmem i hi
    rw [htoken] at heq
    rw [howner]
    obtain ⟨huser, hrev⟩ := h.sessions session hs old hold heq
    refine ⟨huser, fun hend => ?_⟩
    rcases hended hend with howned | hold'
    · exact hrevoked session hs (huser.trans howned)
    · exact hrev hold'

theorem unthreatened_of_bump (h : Sound r) {later : User} (hu : user ∈ r.tables.users)
    (hemail : later.email = user.email) (hav : user.authVersion < later.authVersion) :
    threatened r later = false := by
  rw [threatened_eq_false_iff]
  intro i hi
  rw [Bool.eq_false_iff]
  intro hthreat
  obtain ⟨htype, hexp, hsub, hle, -⟩ := threatens_iff.mp hthreat
  have hpast : user.authVersion < i.token.av := Nat.lt_of_lt_of_le hav hle
  by_cases hown : i.owner = user.id
  · exact absurd hpast (Nat.not_lt.mpr (h.versions i hi user hu hown.symm))
  · have hsafe := threatened_eq_false_iff.mp (h.safe user hu) i hi
    exact absurd
      (threatens_iff.mpr ⟨htype, hexp, hsub.trans hemail, Nat.le_of_lt hpast, .inl hown⟩)
      (Bool.eq_false_iff.mp hsafe)

theorem revoked_of_revokeAll {session : RefreshSession}
    (hs : session ∈ (t.revokeRefreshSessions id).refreshSessions) (hid : session.userId = id) :
    session.revokedAt.isSome = true := by
  obtain ⟨old, -, rfl⟩ := Rows.mem_update.mp hs
  split at hid
  · rename_i hp
    rw [if_pos hp]
    rfl
  · rename_i hp
    rw [if_neg hp]
    simpa [hid, Option.isSome_iff_ne_none] using hp

theorem bump (h : Sound r) (hu : user ∈ r.tables.users) (hid : ∀ row, (f row).id = row.id)
    (hemail : ∀ row, (f row).email = row.email) (hactive : ∀ row, (f row).active = row.active)
    (hav : ∀ row, (f row).authVersion = user.authVersion + 1) :
    Sound ({ r with
      tables := (r.tables.setUser user.id f).revokeRefreshSessions user.id }.endAll user.id) := by
  have hversion : ∀ row ∈ r.tables.users, row.id = user.id →
      row.authVersion < (f row).authVersion := by
    intro row hrow hrid
    rw [hav, h.eq_of_id hrow hu hrid]
    exact Nat.lt_succ_self _
  have hset : Sound { r with tables := r.tables.setUser user.id f } := by
    refine h.setUser_later (fun row _ _ => hid row) (fun row _ _ => hemail row) ?_ ?_
    · intro row _ _ hlater
      rwa [hactive] at hlater
    · intro row hrow hrid
      exact Nat.le_of_lt (hversion row hrow hrid)
  refine (hset.revoke fun s => s.userId == user.id && s.revokedAt.isNone).endAll ?_ ?_
  · intro row hrow hrid _ i hi howner
    obtain ⟨old, hold, rfl⟩ := Rows.mem_update.mp hrow
    by_cases hp : (old.id == user.id) = true
    · rw [if_pos hp]
      exact Nat.lt_of_le_of_lt (h.versions i hi old hold ((beq_iff_eq.mp hp).trans howner.symm))
        (hversion old hold (beq_iff_eq.mp hp))
    · rw [if_neg hp] at hrid
      exact absurd (beq_iff_eq.mpr hrid) hp
  · intro session hs hsid
    exact revoked_of_revokeAll hs hsid

theorem addUser (h : Sound r) (hadd : r.tables.addUser user = some t)
    (hsafe : threatened r { user with id := r.tables.fresh } = false) :
    Sound { r with tables := t } := by
  unfold Tables.addUser at hadd
  split at hadd
  · cases hadd
  · rename_i hfree
    cases hadd
    have hnew : ∀ other ∈ r.tables.users, other.email ≠ user.email := by
      intro other ho heq
      refine hfree (Option.isSome_iff_ne_none.mpr fun hnone => ?_)
      have hne := List.find?_eq_none.mp hnone other ho
      exact hne (beq_iff_eq.mpr heq)
    refine { h with emails := ?_, ids := ?_, supply := ?_, owners := ?_, versions := ?_, safe := ?_,
                    jtis := ?_, sessionJtis := ?_ }
    · rw [List.map_append, List.nodup_append]
      refine ⟨h.emails, List.nodup_singleton _, ?_⟩
      rintro a ha b hb rfl
      obtain ⟨other, ho, rfl⟩ := List.mem_map.mp ha
      exact hnew other ho (List.mem_singleton.mp hb)
    · rw [List.map_append, List.nodup_append]
      refine ⟨h.ids, List.nodup_singleton _, ?_⟩
      rintro a ha b hb rfl
      obtain ⟨other, ho, rfl⟩ := List.mem_map.mp ha
      exact absurd (List.mem_singleton.mp hb) (Nat.ne_of_lt (h.supply other ho))
    · intro row hrow
      rcases List.mem_append.mp hrow with hrow | hrow
      · exact Nat.lt_succ_of_lt (h.supply row hrow)
      · rw [List.mem_singleton.mp hrow]
        exact Nat.lt_succ_self _
    · intro i hi
      exact Nat.lt_succ_of_lt (h.owners i hi)
    · intro i hi row hrow howner
      rcases List.mem_append.mp hrow with hrow | hrow
      · exact h.versions i hi row hrow howner
      · rw [List.mem_singleton.mp hrow] at howner
        exact absurd howner.symm (Nat.ne_of_lt (h.owners i hi))
    · intro row hrow
      rcases List.mem_append.mp hrow with hrow | hrow
      · exact h.safe row hrow
      · rw [List.mem_singleton.mp hrow]
        exact hsafe
    · intro i hi j hj
      exact Nat.lt_succ_of_lt (h.jtis i hi j hj)
    · intro session hs
      obtain ⟨j, hlt, hj⟩ := h.sessionJtis session hs
      exact ⟨j, Nat.lt_succ_of_lt hlt, hj⟩

theorem signIn (h : Sound r) (settings : Settings) {row : User} (hrow : row ∈ r.tables.users)
    (hid : user.id = row.id) (hemail : user.email = row.email)
    (hav : user.authVersion = row.authVersion) :
    Sound (r.issue user.id (signIn settings r.tables user)) := by
  have hmem : ∀ i ∈ (r.issue user.id (Auth.signIn settings r.tables user)).issued,
      i = ⟨createAccessToken settings r.tables user, user.id, false⟩ ∨
        i = ⟨createRefreshToken settings r.tables user, user.id, false⟩ ∨ i ∈ r.issued := by
    intro i hi
    simpa [Realm.issue, Auth.signIn] using hi
  refine { h with supply := ?_, owners := ?_, versions := ?_, safe := ?_, jtis := ?_,
                  sessionJtis := ?_, sessions := ?_ }
  · intro other ho
    exact Nat.lt_succ_of_lt (h.supply other ho)
  · intro i hi
    rcases hmem i hi with rfl | rfl | hold
    · exact Nat.lt_succ_of_lt (hid ▸ h.supply row hrow)
    · exact Nat.lt_succ_of_lt (hid ▸ h.supply row hrow)
    · exact Nat.lt_succ_of_lt (h.owners i hold)
  · intro i hi other ho howner
    rcases hmem i hi with rfl | rfl | hold
    · rw [h.eq_of_id ho hrow (howner.trans hid), ← hav]
      exact Nat.le_refl _
    · rw [h.eq_of_id ho hrow (howner.trans hid), ← hav]
      exact Nat.le_refl _
    · exact h.versions i hold other ho howner
  · intro other ho
    rw [threatened_eq_false_iff]
    intro i hi
    rcases hmem i hi with rfl | rfl | hold
    · rw [Bool.eq_false_iff]
      intro hthreat
      obtain ⟨-, -, hsub, -, hbad⟩ := threatens_iff.mp hthreat
      rcases hbad with hne | ⟨hend, -⟩
      · exact hne (hid.trans (congrArg User.id (h.eq_of_email hrow ho (hemail.symm.trans hsub))))
      · cases hend
    · rw [Bool.eq_false_iff]
      intro hthreat
      cases (threatens_iff.mp hthreat).1
    · exact threatened_eq_false_iff.mp (h.safe other ho) i hold
  · intro i hi j hj
    rcases hmem i hi with rfl | rfl | hold
    · cases hj
    · cases hj
      exact Nat.lt_succ_self _
    · exact Nat.lt_succ_of_lt (h.jtis i hold j hj)
  · intro session hs
    rcases List.mem_append.mp hs with hold | hnew
    · obtain ⟨j, hlt, hj⟩ := h.sessionJtis session hold
      exact ⟨j, Nat.lt_succ_of_lt hlt, hj⟩
    · rw [List.mem_singleton.mp hnew]
      exact ⟨_, Nat.lt_succ_self _, rfl⟩
  · intro session hs i hi htoken
    rcases List.mem_append.mp hs with hold | hnew
    · -- a token of this sign-in is none of the old sessions'
      obtain ⟨j, hlt, hj⟩ := h.sessionJtis session hold
      rw [← htoken] at hj
      rcases hmem i hi with rfl | rfl | hi
      · cases hj
      · cases hj
        exact absurd hlt (Nat.lt_irrefl _)
      · exact h.sessions session hold i hi htoken
    · rw [List.mem_singleton.mp hnew] at htoken ⊢
      rcases hmem i hi with rfl | rfl | hi
      · exact ⟨rfl, nofun⟩
      · exact ⟨rfl, nofun⟩
      · exact absurd (h.jtis i hi r.tables.fresh (htoken ▸ rfl)) (Nat.lt_irrefl _)

end Sound

/-! ### The requests -/

variable {token : Token}

theorem mem_of_getCurrentUser (h : getCurrentUser t token = .ok user) : user ∈ t.users := by
  unfold getCurrentUser at h
  split at h
  · split at h
    · cases h
    · rename_i row hrow
      split at h
      · cases h
      · split at h
        · cases h
        · cases h
          exact Rows.mem_of_get hrow
  · cases h

theorem mem_of_sessionUser {session : RefreshSession} (h : sessionUser t token session = .ok user) :
    user ∈ t.users := by
  unfold sessionUser at h
  split at h
  · cases h
  · rename_i row hrow
    split at h
    · cases h
      exact Rows.mem_of_get hrow
    · cases h

theorem mem_of_refreshUser {session : RefreshSession}
    (h : refreshUser t token = .ok (session, user)) : user ∈ t.users := by
  unfold refreshUser at h
  split at h
  · cases h
  · split at h
    · cases h
    · rename_i live _
      cases hout : sessionUser t token live with
      | error status => rw [hout] at h; cases h
      | ok row => rw [hout] at h; cases h; exact mem_of_sessionUser hout

theorem mem_of_grantUser {grant : PasswordResetToken} (h : grantUser t grant = .ok user) :
    user ∈ t.users := by
  unfold grantUser at h
  split at h
  · cases h
  · rename_i row hrow
    split at h
    · cases h
      exact Rows.mem_of_get hrow
    · cases h

theorem invitee_of_ok {item : Invitation} {existing : Option User}
    (h : invitee t item = .ok existing) : existing = t.getByEmail item.email := by
  unfold invitee at h
  split at h
  · rename_i hnone
    cases h
    exact hnone.symm
  · rename_i row hrow
    split at h
    · cases h
    · cases h
      exact hrow.symm

namespace Sound

variable {r r' : Realm} {settings : Settings}

variable {password : String}

theorem login (h : Sound r) {email : String} (hh : login settings r email password = .ok r') :
    Sound r' := by
  unfold Revocation.login at hh
  split at hh
  · cases hh
  · rename_i user hrow
    split at hh
    · cases hh
      exact h.signIn settings (Rows.mem_of_get hrow) rfl rfl rfl
    · cases hh

variable {token : Token}

theorem refreshed (h : Sound r) (hh : Revocation.refresh settings r token = .ok r') : Sound r' := by
  unfold Revocation.refresh at hh
  split at hh
  · cases hh
  · rename_i session user hok
    cases hh
    have hu := mem_of_refreshUser hok
    exact (h.revoke fun s => s.id == session.id).signIn settings hu rfl rfl rfl

variable {user : User}

theorem mem_bump {t : Tables} (hu : user ∈ t.users) (f : User → User) :
    f user ∈ ((t.setUser user.id f).revokeRefreshSessions user.id).users :=
  Rows.mem_update.mpr ⟨user, hu, (if_pos (beq_self_eq_true _)).symm⟩

theorem changePassword (h : Sound r) {currentPassword newPassword : String}
    (hh : changePassword settings r token currentPassword newPassword = .ok r') : Sound r' := by
  unfold Revocation.changePassword at hh
  split at hh
  · cases hh
  · rename_i user hok
    have hu := mem_of_getCurrentUser hok
    split at hh
    · cases hh
    · split at hh
      · cases hh
      · split at hh
        · cases hh
        · cases hh
          let f : User → User := fun row => { row with
            passwordHash := getPasswordHash newPassword
            authVersion := user.authVersion + 1 }
          have hbump := h.bump hu (f := f) (fun _ => rfl) (fun _ => rfl) (fun _ => rfl)
            fun _ => rfl
          exact hbump.signIn settings (mem_bump hu f) rfl rfl rfl

theorem revokeOthers (h : Sound r) {cookie : Token}
    (hh : revokeOthers settings r token cookie = .ok r') : Sound r' := by
  unfold Revocation.revokeOthers at hh
  split at hh
  · cases hh
  · rename_i user hok
    have hu := mem_of_getCurrentUser hok
    split at hh
    · cases hh
    · cases hh
      let f : User → User := fun row => { row with authVersion := user.authVersion + 1 }
      have hbump := h.bump hu (f := f) (fun _ => rfl) (fun _ => rfl) (fun _ => rfl) fun _ => rfl
      exact hbump.signIn settings (mem_bump hu f) rfl rfl rfl

theorem resetPassword (h : Sound r) {tokenHash : String}
    (hh : resetPassword r tokenHash password = .ok r') : Sound r' := by
  unfold Revocation.resetPassword at hh
  split at hh
  · cases hh
  · split at hh
    · cases hh
    · split at hh
      · cases hh
      · rename_i user hok
        cases hh
        let f : User → User := fun row => { row with
          passwordHash := getPasswordHash password
          authVersion := user.authVersion + 1 }
        have hbump := h.bump (mem_of_grantUser hok) (f := f) (fun _ => rfl) (fun _ => rfl)
          (fun _ => rfl) fun _ => rfl
        exact hbump.of_same rfl rfl (Nat.le_refl _) (Nat.le_refl _)

theorem updateUser (h : Sound r) {id : Nat} {email : Option String} {active : Option Bool}
    {password : Option String}
    (hsafe : (email.bind r.tables.getByEmail).any (fun other => other.id != id) = true ∨
      ∀ user ∈ r.tables.users, user.id = id →
        threatened r (user.patched email active password) = false)
    (hh : updateUser r id email active password = .ok r') : Sound r' := by
  unfold Revocation.updateUser Tables.updateUser at hh
  by_cases htaken : (email.bind r.tables.getByEmail).any (fun other => other.id != id) = true
  · rw [if_pos htaken] at hh
    cases hh
  · rw [if_neg htaken] at hh
    have hset : Sound { r with
        tables := r.tables.setUser id fun user => user.patched email active password } := by
      refine h.setUser (fun _ _ _ => rfl) ?_ ?_ (hsafe.resolve_left htaken)
      · intro user hu huid other ho hoid heq
        cases email with
        | none => exact hoid ((congrArg User.id (h.eq_of_email ho hu heq)).trans huid)
        | some address =>
          refine htaken ?_
          have hfound : r.tables.getByEmail address = some other := by
            have haddress : other.email = address := heq
            rw [← haddress]
            exact Where.find?_key h.emails ho
          rw [Option.bind_some, hfound]
          exact bne_iff_ne.mpr hoid
      · intro user _ _
        dsimp only [User.patched]
        split
        · exact Nat.le_succ _
        · exact Nat.le_refl _
    by_cases hends : password.isSome = true ∨ active = some false
    · simp only [if_pos hends] at hh
      cases hh
      refine (hset.revoke fun s => s.userId == id && s.revokedAt.isNone).endAll ?_ ?_
      · intro row hrow hrid hactive i hi howner
        obtain ⟨old, hold, rfl⟩ := Rows.mem_update.mp hrow
        by_cases hp : (old.id == id) = true
        · rw [if_pos hp] at hactive ⊢
          have hpassword : password.isSome = true := by
            refine hends.resolve_right fun hoff => ?_
            subst hoff
            cases hactive
          have hle := h.versions i hi old hold ((beq_iff_eq.mp hp).trans howner.symm)
          dsimp only [User.patched]
          rw [if_pos hpassword]
          exact Nat.lt_succ_of_le hle
        · rw [if_neg hp] at hrid
          exact absurd (beq_iff_eq.mpr hrid) hp
      · intro session hs hsid
        exact revoked_of_revokeAll hs hsid
    · simp only [if_neg hends] at hh
      cases hh
      exact hset

/-- The account an invitation provisions, where the invited address is free or its account is
inactive. -/
theorem provision (h : Sound r) {item : Invitation} {existing : Option User} {t : Tables}
    (hexisting : existing = r.tables.getByEmail item.email)
    (hsafe : (r.tables.getByEmail item.email).isSome = true ∨ threatened r (newUser r.tables item.email item.name password item.companyDomain item.role) = false)
    (hprov : provision r.tables item existing password = .ok (t, user)) :
    Sound { r with tables := t } ∧ ∃ row ∈ t.users, user.id = row.id ∧ user.email = row.email ∧
      user.authVersion = row.authVersion := by
  cases existing with
  | some row =>
    have hrow : row ∈ r.tables.users := Rows.mem_of_get hexisting.symm
    cases hprov
    refine ⟨h.setUser (fun _ _ _ => rfl) ?_ ?_ ?_, _,
      Rows.mem_update.mpr ⟨row, hrow, (if_pos (beq_self_eq_true _)).symm⟩, rfl, rfl, rfl⟩
    · intro old hold hoid other ho hne heq
      exact hne ((congrArg User.id (h.eq_of_email ho hold heq)).trans hoid)
    · intro old hold hoid
      rw [h.eq_of_id hold hrow hoid]
      exact Nat.le_succ _
    · intro old hold hoid
      rw [h.eq_of_id hold hrow hoid]
      exact h.unthreatened_of_bump hrow rfl (Nat.lt_succ_self _)
  | none =>
    have hnew : threatened r
        (newUser r.tables item.email item.name password item.companyDomain item.role) = false := by
      refine hsafe.resolve_left fun hsome => ?_
      rw [← hexisting] at hsome
      cases hsome
    dsimp only [Auth.provision] at hprov
    split at hprov
    · cases hprov
    · rename_i t' hadd
      cases hprov
      refine ⟨h.addUser hadd hnew, ?_⟩
      unfold Tables.addUser at hadd
      split at hadd
      · cases hadd
      · cases hadd
        exact ⟨_, List.mem_append_right _ (List.mem_singleton_self _), rfl, rfl, rfl⟩

theorem markAccepted (h : Sound r) {item : Invitation} {row : User} (hrow : row ∈ r.tables.users)
    (hid : user.id = row.id) (hemail : user.email = row.email)
    (hav : user.authVersion = row.authVersion) :
    Sound (r.issue user.id (markAccepted settings r.tables item user)) := by
  have hmarked : Sound { r with tables := { r.tables with
      invitations := Rows.update (fun i => i.id == item.id)
        (fun i => { i with usedAt := some r.tables.now, acceptedUserId := some user.id })
        r.tables.invitations } } :=
    h.of_same rfl rfl (Nat.le_refl _) (Nat.le_refl _)
  exact hmarked.signIn settings hrow hid hemail hav

theorem accept (h : Sound r) {tokenHash : String}
    (hsafe : leavesNoneThreatened r (.accept tokenHash password) = true)
    (hh : accept settings r tokenHash password = .ok r') : Sound r' := by
  unfold Revocation.accept at hh
  split at hh
  · cases hh
  · split at hh
    · cases hh
    · rename_i item hitem
      simp only [leavesNoneThreatened, hitem, Bool.or_eq_true, Bool.not_eq_true'] at hsafe
      split at hh
      · cases hh
      · rename_i existing hexisting
        split at hh
        · cases hh
        · rename_i t user hprov
          cases hh
          obtain ⟨hsound, row, hrow, hid, hemail, hav⟩ :=
            h.provision (invitee_of_ok hexisting) hsafe hprov
          exact hsound.markAccepted hrow hid hemail hav

/-- **One request.** -/
theorem handle (h : Sound r) {request : Request} (hsafe : leavesNoneThreatened r request = true)
    (hh : handle settings r request = .ok r') : Sound r' := by
  cases request with
  | wait seconds =>
    cases hh
    exact h.of_same rfl rfl (Nat.le_add_right _ _) (Nat.le_refl _)
  | login email password => exact h.login hh
  | refresh token => exact h.refreshed hh
  | logOut sessionId =>
    cases hh
    exact h.revoke fun s => s.id == sessionId && s.revokedAt.isNone
  | changePassword token currentPassword newPassword => exact h.changePassword hh
  | forgotPassword email tokenHash =>
    cases hh
    unfold Tables.forgotPassword
    split
    · exact h
    · split
      · exact h.of_same rfl rfl (Nat.le_refl _) (Nat.le_succ _)
      · exact h
  | resetPassword tokenHash password => exact h.resetPassword hh
  | revokeOthers token cookie => exact h.revokeOthers hh
  | createUser email name password companyDomain role =>
    dsimp only [Revocation.handle, createUser] at hh
    split at hh
    · cases hh
    · rename_i t hadd
      cases hh
      refine h.addUser hadd ?_
      simp only [leavesNoneThreatened, Bool.or_eq_true, Bool.not_eq_true'] at hsafe
      refine hsafe.resolve_left fun htaken => ?_
      have hnone : r.tables.addUser (newUser r.tables email name password companyDomain role) =
          none := if_pos htaken
      rw [hnone] at hadd
      cases hadd
  | updateUser id email active password =>
    refine h.updateUser ?_ hh
    simp only [leavesNoneThreatened, Bool.or_eq_true, Option.all_eq_true] at hsafe
    refine hsafe.imp_right fun hall user hu huid => ?_
    have hfound : r.tables.getById id = some user := by
      rw [← huid]
      exact Where.find?_key h.ids hu
    simpa using hall user hfound
  | deactivate id =>
    have hupdate : Revocation.updateUser r id none (some false) none = .ok r' := hh
    refine h.updateUser (.inr fun user hu _ => ?_) hupdate
    exact threatened_of_later (h.safe user hu) rfl rfl (Nat.le_refl _) nofun
  | invite email name role companyDomain tokenHash =>
    cases hh
    unfold Tables.invite
    split
    · exact h
    · exact h.of_same rfl rfl (Nat.le_refl _) (Nat.le_succ _)
  | resendInvitation id tokenHash =>
    cases hh
    exact h.of_same rfl rfl (Nat.le_refl _) (Nat.le_refl _)
  | revokeInvitation id =>
    cases hh
    exact h.of_same rfl rfl (Nat.le_refl _) (Nat.le_refl _)
  | accept tokenHash password => exact h.accept hsafe hh

theorem next (h : Sound r) {a b : Request} (hn : r.next settings a = some (b, r'))
    (hsafe : leavesNoneThreatened r b = true) : Sound r' := by
  unfold Realm.next at hn
  split at hn
  · cases hn
    exact h
  · rename_i out hout
    cases hn
    exact h.handle hsafe hout

end Sound

/-! ### Runs -/

def office : Realm where
  tables := {
    users := [
      { id := 1, email := "lan@qnsc.vn", name := "Lan", passwordHash := getPasswordHash "lan's own one",
        companyDomain := "qnsc.vn", role := "Staff", active := true, authVersion := 0,
        accessSubject := none }]
    refreshSessions := []
    passwordResetTokens := []
    invitations := []
    now := 0
    fresh := 2 }
  issued := []

theorem office_initial : Initial office :=
  ⟨by decide, by decide, by decide, rfl, rfl⟩

def hour : Settings := ⟨60, 7⟩

def reactivated : List Request :=
  [.login "lan@qnsc.vn" "lan's own one", .deactivate 1, .updateUser 1 none (some true) none]

def addressReused : List Request :=
  [.login "lan@qnsc.vn" "lan's own one", .updateUser 1 (some "lan.tran@qnsc.vn") none none,
    .createUser "lan@qnsc.vn" "Lan" "the other one" "qnsc.vn" "Staff"]

theorem reactivated_plays : (play (Realm.next hour) [] office reactivated).isSome = true := by
  decide +kernel

theorem addressReused_plays : (play (Realm.next hour) [] office addressReused).isSome = true := by
  decide +kernel

/-- **An old access token is accepted again**: once its account is active again, or as the next
account of the address. -/
theorem old_token_accepted :
    (∃ tr r, Run Initial (By (Realm.next hour)) tr r ∧
      r.issued.any (fun i => (acceptedAs r.tables i.token).isSome && i.ended) = true) ∧
    ∃ tr r, Run Initial (By (Realm.next hour)) tr r ∧
      r.issued.any (fun i => (acceptedAs r.tables i.token).any fun user => user.id != i.owner) =
        true :=
  ⟨⟨_, _, run_play office_initial reactivated_plays, by decide +kernel⟩,
    ⟨_, _, run_play office_initial addressReused_plays, by decide +kernel⟩⟩

/-- **Tokens keep their owner and stay revoked** in the runs that leave no account threatened. -/
theorem tokens_kept (settings : Settings) {tr : List (Realm × Request)} {r : Realm}
    (hrun : Run Initial (By (Realm.next settings)) tr r)
    (hsafe : Throughout (fun r request => leavesNoneThreatened r request = true) tr) :
    TokensKept r := by
  have hsound : Sound r := by
    refine hrun.invariant (fun _ => Sound.initial) ?_ hsafe
    rintro r b r' h hc ⟨a, hn⟩
    exact h.next hn hc
  exact hsound.tokensKept

def newPassword : List Request :=
  [.login "lan@qnsc.vn" "lan's own one", .deactivate 1,
    .updateUser 1 none (some true) (some "a brand new one"), .login "lan@qnsc.vn" "a brand new one"]

theorem newPassword_plays : (play (Realm.next hour) [] office newPassword).isSome = true := by
  decide +kernel

theorem tokens_kept_newPassword :
    TokensKept ((play (Realm.next hour) [] office newPassword).get newPassword_plays).2 :=
  tokens_kept hour (run_play office_initial newPassword_plays) (by decide +kernel)

end QnscKb.Auth.Revocation
