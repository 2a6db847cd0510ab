import QnscKb.Access.Model

/-!
# Webhooks — Model

Push subscriptions of connectors: `ensure_webhook_subscriptions` and `repair_webhook_subscriptions`
(`src/domain/webhook_subscriptions.py`), with `ensure_connector_authorized`
(`src/domain/connector_auth.py`).  A transaction that fails leaves the database as it was committed
last; what the provider has done stays done.
-/

namespace QnscKb.Webhooks
open Access (Id)

/-! ### The database -/

structure Tokens where
  access : Bool
  refresh : Bool
  expiresAt : Option Nat
  deriving DecidableEq

structure Connector where
  id : Id
  system : String
  status : String
  webhookEnabled : Bool
  webhookDegradedAt : Option Nat
  createdBy : Option Id
  tokens : Tokens
  deriving DecidableEq

structure SourceScope where
  id : Id
  connectorId : Id
  selected : Bool
  deriving DecidableEq

/-- A row of `webhook_subscriptions`. -/
structure Subscription where
  connectorId : Id
  scopeId : Option Id
  providerSubscriptionId : String
  resource : Option String
  expiresAt : Option Nat
  active : Bool
  deriving DecidableEq

structure Settings where
  webhookBaseUrl : Option String
  microsoftAuthMode : String

def REMOTE_PROVIDERS : List String := ["google_drive", "onedrive", "sharepoint"]

def isMicrosoftGraph (system : String) : Bool := ["onedrive", "sharepoint"].contains system

/-- `RENEWAL_HORIZON`, in seconds. -/
def RENEWAL_HORIZON : Nat := 20 * 60

/-- `_EXPIRY_SKEW`, in seconds. -/
def EXPIRY_SKEW : Nat := 5 * 60

structure Database where
  connectors : List Connector
  scopes : List SourceScope
  subscriptions : List Subscription
  /-- The connectors whose owner was told that they are degraded. -/
  notices : List Id
  deriving DecidableEq

/-! ### The provider -/

/-- A subscription at the provider: one whose id was returned, or one that was left behind for a
scope by a request that failed. -/
inductive Live
  | known (providerSubscriptionId : String)
  | stray (scopeId : Id)
  deriving DecidableEq

/-- A call of the adapter, with what it came to. -/
inductive Request
  | refresh (connectorId : Id)
  | delete (connectorId : Id) (providerSubscriptionId : String) (gone : Bool)
  | create (connectorId : Id) (providerSubscriptionId : String)
  | createFailed (connectorId : Id)
  deriving DecidableEq

/-- The provider, with the calls there were, the last one first. -/
structure Provider where
  live : List Live
  calls : List Request
  deriving DecidableEq

/-- What `refresh_token` comes to. -/
inductive RefreshAnswer
  /-- `expiresIn` is `none` where it is no number. -/
  | tokens (access refresh : Bool) (expiresIn : Option Nat)
  | refused
  | crashed

/-- What `create_webhook` comes to; a request that fails may leave a subscription behind. -/
inductive CreateAnswer
  | created (providerSubscriptionId : String) (resource : Option String) (expiresAt : Option Nat)
  | refused (left : Bool)
  | crashed (left : Bool)

/-- What the calls come to, by their number, and the clock, by the connector. -/
structure Answers where
  refresh : Nat → RefreshAnswer
  /-- Whether the subscription is gone after `delete_webhook`, raised or not. -/
  delete : Nat → Bool
  create : Nat → CreateAnswer
  now : Id → Nat

/-- `WebhookConfigurationError`, `ConnectorProviderError`, or anything else. -/
inductive Failure
  | configuration | provider | other
  deriving DecidableEq

inductive Authorization
  | ready | refused | refresh
  deriving DecidableEq

def authorization (S : Settings) (now : Nat) (connector : Connector) : Authorization :=
  let mode := if isMicrosoftGraph connector.system then S.microsoftAuthMode else "delegated"
  if !(["delegated", "application"].contains mode) then .refused
  else if connector.tokens.access &&
      connector.tokens.expiresAt.any fun expires => now + EXPIRY_SKEW < expires then .ready
  else if mode == "delegated" && !connector.tokens.refresh then
    if connector.tokens.access then .ready else .refused
  else .refresh

def setConnector (id : Id) (f : Connector → Connector) (connectors : List Connector) :
    List Connector :=
  connectors.map fun connector => if connector.id == id then f connector else connector

/-- `ensure_connector_authorized`, which commits the tokens it has obtained. -/
def ensureConnectorAuthorized (S : Settings) (A : Answers) (db : Database) (p : Provider)
    (connector : Connector) : Except Failure Unit × Database × Provider :=
  match authorization S (A.now connector.id) connector with
  | .ready => (.ok (), db, p)
  | .refused => (.error .provider, db, p)
  | .refresh =>
    let p' := { p with calls := .refresh connector.id :: p.calls }
    match A.refresh p.calls.length with
    | .tokens true refresh (some expiresIn) =>
      (.ok (), { db with
        connectors := setConnector connector.id (fun connector =>
          { connector with
            tokens := ⟨true, refresh || connector.tokens.refresh,
              some (A.now connector.id + expiresIn)⟩ }) db.connectors }, p')
    | .tokens false .. | .refused => (.error .provider, db, p')
    | .tokens true _ none | .crashed => (.error .other, db, p')

/-! ### `ensure_webhook_subscriptions` -/

def Subscription.serves (connectorId scopeId : Id) (row : Subscription) : Bool :=
  row.connectorId == connectorId && row.scopeId == some scopeId && row.active

def Subscription.healthy (deadline : Nat) (row : Subscription) : Bool :=
  row.expiresAt.any fun expires => deadline < expires

def retire (A : Answers) (connectorId : Id) (p : Provider) (old : Subscription) : Provider :=
  let gone := A.delete p.calls.length
  { live := if gone then p.live.filter fun x => x != .known old.providerSubscriptionId else p.live
    calls := .delete connectorId old.providerSubscriptionId gone :: p.calls }

def Provider.failed (p : Provider) (connectorId scopeId : Id) (left : Bool) : Provider where
  live := if left then .stray scopeId :: p.live else p.live
  calls := .createFailed connectorId :: p.calls

/-- A subscription is asked for; `provider_subscription_id` is unique, so that an id that is
recorded already fails. -/
def createWebhook (A : Answers) (connectorId scopeId : Id) (rows : List Subscription)
    (p : Provider) : Except Failure (List Subscription) × Provider :=
  match A.create p.calls.length with
  | .created id resource expiresAt =>
    if rows.any fun row => row.providerSubscriptionId == id then
      (.error .other, p.failed connectorId scopeId false)
    else
      (.ok (rows ++ [⟨connectorId, some scopeId, id, resource, expiresAt, true⟩]),
        ⟨.known id :: p.live, .create connectorId id :: p.calls⟩)
  | .refused left => (.error .provider, p.failed connectorId scopeId left)
  | .crashed left => (.error .other, p.failed connectorId scopeId left)

def ensureScope (A : Answers) (force : Bool) (deadline : Nat) (connectorId : Id)
    (rows : List Subscription) (p : Provider) (scope : SourceScope) :
    Except Failure (List Subscription) × Provider :=
  let existing := rows.filter (Subscription.serves connectorId scope.id)
  if existing.any (Subscription.healthy deadline) && !force then (.ok rows, p)
  else
    createWebhook A connectorId scope.id
      (rows.map fun row =>
        if row.serves connectorId scope.id then { row with active := false } else row)
      (existing.foldl (retire A connectorId) p)

def ensureScopes (A : Answers) (force : Bool) (deadline : Nat) (connectorId : Id) :
    List Subscription → Provider → List SourceScope →
      Except Failure (List Subscription) × Provider
  | rows, p, [] => (.ok rows, p)
  | rows, p, scope :: scopes =>
    match ensureScope A force deadline connectorId rows p scope with
    | (.ok rows, p) => ensureScopes A force deadline connectorId rows p scopes
    | (.error failure, p) => (.error failure, p)

def Database.selected (db : Database) (connectorId : Id) : List SourceScope :=
  db.scopes.filter fun scope => scope.connectorId == connectorId && scope.selected

/-- `callback_urls` has an address. -/
def Settings.configured (S : Settings) : Bool :=
  S.webhookBaseUrl.any fun url => !(url.toList.all (· == '/'))

/-- `ensure_webhook_subscriptions`: its rows, not committed, or how it failed, with the database as
committed last and the provider. -/
def ensureWebhookSubscriptions (S : Settings) (A : Answers) (force : Bool) (db : Database)
    (p : Provider) (connector : Connector) :
    Except Failure (List Subscription) × Database × Provider :=
  if connector.system == "local_folder" || !S.configured || (db.selected connector.id).isEmpty then
    (.error .configuration, db, p)
  else
    match ensureConnectorAuthorized S A db p connector with
    | (.error failure, db, p) => (.error failure, db, p)
    | (.ok (), db, p) =>
      let out := ensureScopes A force (A.now connector.id + RENEWAL_HORIZON) connector.id
        db.subscriptions p (db.selected connector.id)
      (out.1, db, out.2)

/-! ### `repair_webhook_subscriptions` -/

/-- Where a pass is; `failed` are the connectors whose repair was rolled back, and `aborted` says
that an error went through. -/
structure Pass where
  db : Database
  provider : Provider
  failed : List Id
  aborted : Bool
  deriving DecidableEq

def Connector.degrade (now : Nat) (connector : Connector) : Connector :=
  { connector with webhookDegradedAt := connector.webhookDegradedAt.or (some now) }

def degraded (now : Nat) (connector : Connector) (db : Database) : Database :=
  { db with
    connectors := setConnector connector.id (Connector.degrade now) db.connectors
    notices := if connector.webhookDegradedAt.isNone && connector.createdBy.isSome then
      connector.id :: db.notices else db.notices }

def repaired (connector : Connector) (rows : List Subscription) (db : Database) : Database :=
  { db with
    subscriptions := rows
    connectors := setConnector connector.id
      (fun connector => { connector with webhookDegradedAt := none }) db.connectors }

def repairConnector (S : Settings) (A : Answers) (pass : Pass) (connector : Connector) : Pass :=
  if pass.aborted || !connector.webhookEnabled then pass
  else
    match ensureWebhookSubscriptions S A false pass.db pass.provider connector with
    | (.ok rows, db, p) => { pass with db := repaired connector rows db, provider := p }
    | (.error .other, db, p) =>
      { db := db, provider := p, failed := connector.id :: pass.failed, aborted := true }
    | (.error _, db, p) =>
      { pass with
        db := degraded (A.now connector.id) connector db
        provider := p
        failed := connector.id :: pass.failed }

def Database.repairable (db : Database) : List Connector :=
  db.connectors.filter fun connector =>
    REMOTE_PROVIDERS.contains connector.system && ["active", "error"].contains connector.status

def repairWebhookSubscriptions (S : Settings) (A : Answers) (db : Database) (live : List Live) :
    Pass :=
  db.repairable.foldl (repairConnector S A) ⟨db, ⟨live, []⟩, [], false⟩

end QnscKb.Webhooks
