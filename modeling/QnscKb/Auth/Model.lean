import QnscKb.Lib.Rows

/-!
# Auth — Model

Accounts and their credentials (`src/models/user.py`, `src/models/sessions.py`) and the reads and
writes of the endpoints that check them (`src/api/routers/auth.py`, `src/api/deps.py`), each a step
of its own; a write is what a commit makes of the tables.

An address is in the form `@validates("email")` stores, and a token or a hash stands for what was
signed or hashed.
-/

namespace QnscKb.Auth

/-! ### Rows -/

structure PasswordHash where
  of : String
  deriving DecidableEq, Repr

def getPasswordHash (password : String) : PasswordHash := ⟨password⟩

def verifyPassword (plainPassword : String) (hash : PasswordHash) : Bool :=
  plainPassword == hash.of

structure User where
  id : Nat
  email : String
  name : String
  passwordHash : PasswordHash
  companyDomain : String
  role : String
  active : Bool
  authVersion : Nat
  accessSubject : Option String
  deriving DecidableEq, Repr

inductive TokenType
  | access | refresh
  deriving DecidableEq, Repr

/-- The claims of a signed token. -/
structure Token where
  type : TokenType
  sub : String
  av : Nat
  exp : Nat
  jti : Option Nat
  deriving DecidableEq, Repr

structure RefreshSession where
  id : Nat
  userId : Nat
  tokenHash : Token
  expiresAt : Nat
  revokedAt : Option Nat
  deriving DecidableEq, Repr

structure PasswordResetToken where
  id : Nat
  userId : Nat
  tokenHash : String
  expiresAt : Nat
  usedAt : Option Nat
  requestedForEmail : String
  deriving DecidableEq, Repr

structure Invitation where
  id : Nat
  email : String
  name : String
  role : String
  companyDomain : String
  tokenHash : String
  expiresAt : Nat
  usedAt : Option Nat
  revokedAt : Option Nat
  acceptedUserId : Option Nat
  deriving DecidableEq, Repr

/-- The tables, with the clock in seconds and the supply of primary keys and token ids. -/
structure Tables where
  users : List User
  refreshSessions : List RefreshSession
  passwordResetTokens : List PasswordResetToken
  invitations : List Invitation
  now : Nat
  fresh : Nat
  deriving DecidableEq, Repr

structure Settings where
  accessTokenExpireMinutes : Nat
  refreshTokenExpireDays : Nat

/-! ### Shared reads and writes -/

/-- An account with the fields `update_managed_user` is given. -/
def User.patched (user : User) (email : Option String) (active : Option Bool)
    (password : Option String) : User :=
  { user with
    email := email.getD user.email
    active := active.getD user.active
    passwordHash := (password.map getPasswordHash).getD user.passwordHash
    authVersion := if password.isSome then user.authVersion + 1 else user.authVersion }

/-- The account `create_managed_user` makes. -/
def newUser (t : Tables) (email name password companyDomain role : String) : User where
  id := t.fresh
  email := email
  name := name
  passwordHash := getPasswordHash password
  companyDomain := companyDomain
  role := role
  active := true
  authVersion := 0
  accessSubject := none

namespace Tables

def getByEmail (t : Tables) (email : String) : Option User :=
  Rows.get User.email email t.users

def getById (t : Tables) (id : Nat) : Option User :=
  Rows.get User.id id t.users

def setUser (t : Tables) (id : Nat) (f : User → User) : Tables :=
  { t with users := Rows.update (fun user => user.id == id) f t.users }

/-- A new account, unless its address is taken. -/
def addUser (t : Tables) (user : User) : Option Tables :=
  if (t.getByEmail user.email).isSome then none
  else some { t with users := t.users ++ [{ user with id := t.fresh }], fresh := t.fresh + 1 }

def revokeRefreshSessions (t : Tables) (userId : Nat) : Tables :=
  { t with
    refreshSessions := Rows.update (fun s => s.userId == userId && s.revokedAt.isNone)
      (fun s => { s with revokedAt := some t.now }) t.refreshSessions }

def storeRefreshSession (t : Tables) (user : User) (token : Token) : Tables :=
  { t with
    refreshSessions := t.refreshSessions ++ [{
      id := t.fresh, userId := user.id, tokenHash := token, expiresAt := token.exp,
      revokedAt := none }]
    fresh := t.fresh + 1 }

/-- `logout`, and `revoke_session` of the account page. -/
def logOut (t : Tables) (sessionId : Nat) : Tables :=
  { t with
    refreshSessions := Rows.update (fun s => s.id == sessionId && s.revokedAt.isNone)
      (fun s => { s with revokedAt := some t.now }) t.refreshSessions }

/-- `forgot_password`: a grant for an hour, where an active account has the address. -/
def forgotPassword (t : Tables) (email tokenHash : String) : Tables :=
  match t.getByEmail email with
  | none => t
  | some user =>
    if user.active then { t with
      passwordResetTokens := t.passwordResetTokens ++ [{
        id := t.fresh, userId := user.id, tokenHash := tokenHash, expiresAt := t.now + 3600,
        usedAt := none, requestedForEmail := email }]
      fresh := t.fresh + 1 }
    else t

/-- `create_invitation`: for a week, and not where an active account has the address. -/
def invite (t : Tables) (email name role companyDomain tokenHash : String) : Tables :=
  if (t.getByEmail email).any (fun user => user.active) then t
  else { t with
    invitations := t.invitations ++ [{
      id := t.fresh, email := email, name := name, role := role, companyDomain := companyDomain,
      tokenHash := tokenHash, expiresAt := t.now + 604800, usedAt := none, revokedAt := none,
      acceptedUserId := none }]
    fresh := t.fresh + 1 }

def resendInvitation (t : Tables) (id : Nat) (tokenHash : String) : Tables :=
  { t with
    invitations := Rows.update (fun i => i.id == id && i.usedAt.isNone && i.revokedAt.isNone)
      (fun i => { i with tokenHash := tokenHash, expiresAt := t.now + 604800 }) t.invitations }

def revokeInvitation (t : Tables) (id : Nat) : Tables :=
  { t with
    invitations := Rows.update (fun i => i.id == id && i.usedAt.isNone)
      (fun i => { i with revokedAt := some t.now }) t.invitations }

/-- `update_managed_user`, and `deactivate_user` as far as it goes: nothing is written where another
account has the address. -/
def updateUser (t : Tables) (id : Nat) (email : Option String) (active : Option Bool)
    (password : Option String) : Option Tables :=
  if (email.bind t.getByEmail).any (fun other => other.id != id) then none
  else
    let t := t.setUser id fun user => user.patched email active password
    some (if password.isSome = true ∨ active = some false then t.revokeRefreshSessions id else t)

/-- `change_password`, up to the new sign-in. -/
def changePassword (t : Tables) (user : User) (password : String) : Tables :=
  (t.setUser user.id fun row => { row with
    passwordHash := getPasswordHash password
    authVersion := user.authVersion + 1 }).revokeRefreshSessions user.id

/-- `revoke_other_sessions`, up to the new sign-in. -/
def revokeOtherSessions (t : Tables) (user : User) : Tables :=
  (t.setUser user.id fun row => { row with
    authVersion := user.authVersion + 1 }).revokeRefreshSessions user.id

end Tables

def validatePassword (password : String) : Except Nat Unit :=
  if password.length < 12 then .error 422
  else if 72 < password.utf8ByteSize then .error 422
  else .ok ()

section Tokens

variable (settings : Settings) (t : Tables)

def createAccessToken (user : User) : Token :=
  { type := .access
    sub := user.email
    av := user.authVersion
    exp := t.now + settings.accessTokenExpireMinutes * 60
    jti := none }

def createRefreshToken (user : User) : Token :=
  { type := .refresh
    sub := user.email
    av := user.authVersion
    exp := t.now + settings.refreshTokenExpireDays * 86400
    jti := some t.fresh }

/-- A sign-in: the two tokens of an account, the second on record. -/
def signIn (user : User) : Tables × List Token :=
  let access := createAccessToken settings t user
  let refresh := createRefreshToken settings t user
  (t.storeRefreshSession user refresh, [access, refresh])

end Tokens

section Refresh

variable (settings : Settings) (t : Tables)

def refreshClaims (token : Token) : Except Nat Unit :=
  if token.type = .refresh ∧ t.now < token.exp ∧ '@' ∈ token.sub.toList then .ok ()
  else .error 401

def liveSession (token : Token) : Except Nat RefreshSession :=
  match t.refreshSessions.find? fun s =>
      s.tokenHash == token && s.revokedAt.isNone && decide (t.now < s.expiresAt) with
  | none => .error 401
  | some session => .ok session

def sessionUser (token : Token) (session : RefreshSession) : Except Nat User :=
  match t.getByEmail token.sub with
  | none => .error 401
  | some user =>
    if user.active = true ∧ user.id = session.userId ∧ token.av = user.authVersion then .ok user
    else .error 401

def rotate (session : RefreshSession) (user : User) : Tables × List Token :=
  signIn settings
    { t with
      refreshSessions := Rows.update (fun s => s.id == session.id)
        (fun s => { s with revokedAt := some t.now }) t.refreshSessions }
    user

end Refresh

section Reset

variable (t : Tables)

def liveGrant (tokenHash : String) : Except Nat PasswordResetToken :=
  match t.passwordResetTokens.find? fun g => g.tokenHash == tokenHash with
  | none => .error 404
  | some grant =>
    if grant.usedAt.isSome then .error 410
    else if grant.expiresAt ≤ t.now then .error 410
    else .ok grant

def grantUser (grant : PasswordResetToken) : Except Nat User :=
  match t.getById grant.userId with
  | none => .error 410
  | some user => if user.active then .ok user else .error 410

/-- The write: the password, and every open grant and session of the account closed. -/
def setPassword (grant : PasswordResetToken) (user : User) (password : String) : Tables :=
  let t := t.setUser user.id fun row =>
    { row with passwordHash := getPasswordHash password, authVersion := user.authVersion + 1 }
  let t := { t with
    passwordResetTokens := Rows.update
      (fun g => g.id == grant.id || g.userId == user.id && g.usedAt.isNone)
      (fun g => { g with usedAt := some t.now }) t.passwordResetTokens }
  t.revokeRefreshSessions user.id

end Reset

/-! ### `accept_invitation` -/

section Accept

variable (settings : Settings) (t : Tables)

def liveInvitation (tokenHash : String) : Except Nat Invitation :=
  match t.invitations.find? fun i => i.tokenHash == tokenHash with
  | none => .error 404
  | some item =>
    if item.revokedAt.isSome then .error 410
    else if item.usedAt.isSome then .error 409
    else if item.expiresAt ≤ t.now then .error 410
    else .ok item

/-- The account of the invited address, which must not be in use. -/
def invitee (item : Invitation) : Except Nat (Option User) :=
  match t.getByEmail item.email with
  | none => .ok none
  | some existing => if existing.active then .error 409 else .ok (some existing)

/-- The first write, which `bootstrap_rbac` commits: the account, made or used again. -/
def provision (item : Invitation) (existing : Option User) (password : String) :
    Except Nat (Tables × User) :=
  match existing with
  | some user =>
    let user := { user with
      name := if item.name.isEmpty then user.name else item.name
      role := item.role
      active := true
      passwordHash := getPasswordHash password
      authVersion := user.authVersion + 1 }
    .ok (t.setUser user.id fun row => { row with
      name := user.name, role := user.role, active := user.active
      passwordHash := user.passwordHash, authVersion := user.authVersion }, user)
  | none =>
    let user : User := {
      id := t.fresh, email := item.email, name := item.name,
      passwordHash := getPasswordHash password, companyDomain := item.companyDomain,
      role := item.role, active := true, authVersion := 0, accessSubject := none }
    match t.addUser user with
    | none => .error 500
    | some t => .ok (t, user)

/-- The last write: the invitation is used, and its account signed in. -/
def markAccepted (item : Invitation) (user : User) : Tables × List Token :=
  signIn settings
    { t with
      invitations := Rows.update (fun i => i.id == item.id)
        (fun i => { i with usedAt := some t.now, acceptedUserId := some user.id }) t.invitations }
    user

end Accept

end QnscKb.Auth
