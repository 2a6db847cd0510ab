import QnscKb.Lib.Threads
import Mathlib.Algebra.Order.Group.Basic

/-!
# Mcp — Jwks

The signing keys of the Access verifier (`AccessJwtVerifier`, `src/domain/access_jwt.py`): calls of
`_key_for` by any number of threads.  A step is one access to what they share, one reading of the
clock, or an outbound fetch that begins or ends; what only the lock's holder writes, the holder
reads in one step.
-/

namespace QnscKb.Mcp

abbrev Kid := String

variable (τ : Type) [AddCommGroup τ] [LinearOrder τ]

/-- The settings of `AccessJwtConfig`, as the constructor admits them. -/
structure AccessJwtConfig where
  jwksCooldownSeconds : τ
  jwksCacheSeconds : τ
  cooldown_nonneg : 0 ≤ jwksCooldownSeconds
  cache_pos : 0 < jwksCacheSeconds

/-- A fetched key set, with the time at which it was the team's. -/
structure KeySet where
  kids : List Kid
  asOf : τ
  deriving DecidableEq

/-- An outbound fetch, with when it began. -/
structure Fetch where
  forced : Bool
  start : τ
  deriving DecidableEq

/-- The fields of `AccessJwtVerifier`, with the clock and the fetches, the last one first. -/
structure Verifier where
  clock : τ
  keys : Option (KeySet τ)
  keysAt : Option τ
  lastFetchAttempt : Option τ
  lastForcedRefresh : Option τ
  lock : Option Nat
  fetches : List (Fetch τ)
  deriving DecidableEq

/-- What `_key_for` comes to: a key, `None`, or the error of a key set that is not available. -/
inductive Outcome
  | known | unknown | unavailable
  deriving DecidableEq

/-- On whose behalf keys are fetched: `_current_keys`, called for the first time or `again`, the
expiry branch of `_key_for`, or its forced refresh. -/
inductive Use
  | current (again : Bool)
  | expiry
  | forced
  deriving DecidableEq

/-- Where a call of `_key_for` is. -/
inductive Stage
  | idle
  /-- `_current_keys` reads the clock. -/
  | clock (again : Bool)
  /-- It asks whether the key set is fresh. -/
  | look (again : Bool) (now : τ)
  | take (again : Bool)
  /-- The cooldown before the lock: the timestamp, then the clock. -/
  | attempt (again : Bool)
  | cooling (again : Bool) (last : Option τ)
  | stale (again : Bool)
  | wait (again : Bool)
  /-- Under the lock: whether the key set is fresh, and the cooldown. -/
  | locked (again : Bool)
  | gate (again : Bool)
  /-- The kid is not in the key set: the cooldown of forced refreshes before the lock. -/
  | missed
  | forcedCooling (last : Option τ)
  | waitForced
  /-- Under the lock: whether the key set is fresh, and the cooldown. -/
  | lockedForced
  | gateForced
  /-- The kid in the current set, and the cooldown of forced refreshes. -/
  | matchLocked
  | forceGate
  /-- `_fetch_keys`. -/
  | fetch (use : Use)
  | fetching (use : Use) (start : τ)
  | store (use : Use) (start : τ) (keys : KeySet τ)
  | stamp (use : Use) (start : τ) (keys : KeySet τ)
  /-- The `finally` of the forced refresh. -/
  | force (start : τ) (keys : Option (KeySet τ))
  | done (outcome : Outcome)
  deriving DecidableEq

/-- A call of `_key_for`. -/
structure Call where
  kid : Kid
  began : τ
  stage : Stage τ
  deriving DecidableEq

/-- What becomes of a step: a call begins or goes on; a fetch that ends brings the team's key set of
a moment since it began, or fails. -/
inductive Input
  | verify (kid : Kid)
  | go (reply : Option τ)
  deriving DecidableEq

variable {τ}

def cooling (c : AccessJwtConfig τ) (now : τ) (last : Option τ) : Bool :=
  last.any fun last => now - last < c.jwksCooldownSeconds

namespace Verifier

def fresh (c : AccessJwtConfig τ) (v : Verifier τ) (now : τ) : Bool :=
  v.keys.isSome && v.keysAt.any fun at' => now - at' < c.jwksCacheSeconds

def release (v : Verifier τ) : Verifier τ := { v with lock := none }

end Verifier

/-- `match_kid` on the key set of the first call, or of the last one. -/
def returned (kid : Kid) (again : Bool) (keys : KeySet τ) : Stage τ :=
  if keys.kids.contains kid then .done .known else if again then .done .unknown else .missed

/-- `if self._keys is None: raise …; return self._keys`. -/
def returnedStale (kid : Kid) (again : Bool) (keys : Option (KeySet τ)) : Stage τ :=
  keys.elim (.done .unavailable) (returned kid again)

def failed (v : Verifier τ) (start : τ) : Use → Stage τ × Verifier τ
  | .forced => (.force start none, v)
  | _ => (.done .unavailable, v.release)

def fetched (v : Verifier τ) (kid : Kid) (start : τ) (keys : KeySet τ) : Use → Stage τ × Verifier τ
  | .current again => (returned kid again keys, v.release)
  | .expiry => (.matchLocked, v)
  | .forced => (.force start (some keys), v)

def Stage.step (c : AccessJwtConfig τ) (published : τ → List Kid) (i : Nat) (kid : Kid) (now : τ)
    (reply : Option τ) (v : Verifier τ) : Stage τ → Option (Stage τ × Verifier τ)
  | .idle => none
  | .clock again => some (.look again now, v)
  | .look again read => some (if v.fresh c read then .take again else .attempt again, v)
  | .take again => v.keys.map fun keys => (returned kid again keys, v)
  | .attempt again => some (.cooling again v.lastFetchAttempt, v)
  | .cooling again last => some (if Mcp.cooling c now last then .stale again else .wait again, v)
  | .stale again => some (returnedStale kid again v.keys, v)
  | .wait again => if v.lock = none then some (.locked again, { v with lock := some i }) else none
  | .locked again =>
    if v.fresh c now then some (returnedStale kid again v.keys, v.release)
    else some (.gate again, v)
  | .gate again =>
    if Mcp.cooling c now v.lastFetchAttempt then some (returnedStale kid again v.keys, v.release)
    else some (.fetch (.current again), v)
  | .missed => some (.forcedCooling v.lastForcedRefresh, v)
  | .forcedCooling last => some (if Mcp.cooling c now last then .clock true else .waitForced, v)
  | .waitForced => if v.lock = none then some (.lockedForced, { v with lock := some i }) else none
  | .lockedForced => some (if v.fresh c now then .matchLocked else .gateForced, v)
  | .gateForced =>
    some (if Mcp.cooling c now v.lastFetchAttempt then .matchLocked else .fetch .expiry, v)
  | .matchLocked =>
    if v.keys.any fun keys => keys.kids.contains kid then some (.done .known, v.release)
    else some (.forceGate, v)
  | .forceGate =>
    if Mcp.cooling c now v.lastForcedRefresh then some (.done .unknown, v.release)
    else some (.fetch .forced, v)
  | .fetch use =>
    some (.fetching use now, { v with fetches := ⟨use == .forced, now⟩ :: v.fetches })
  | .fetching use start =>
    match reply with
    | none => some (failed { v with lastFetchAttempt := some now } start use)
    | some asOf =>
      if start ≤ asOf ∧ asOf ≤ now then
        some (.store use start ⟨published asOf, asOf⟩, { v with lastFetchAttempt := some now })
      else none
  | .store use start keys => some (.stamp use start keys, { v with keys := some keys })
  | .stamp use start keys => some (fetched { v with keysAt := some now } kid start keys use)
  | .force _ keys =>
    some (keys.elim (.done .unavailable) (returned kid true),
      { v with lastForcedRefresh := some now, lock := none })
  | .done _ => none

def Stage.over : Stage τ → Bool
  | .idle | .done _ => true
  | _ => false

/-- A step of a thread; the clock never goes back. -/
def threadStep (c : AccessJwtConfig τ) (published : τ → List Kid) (i : Nat) (x : τ × Input τ)
    (call : Call τ) (v : Verifier τ) : Option (Call τ × Verifier τ) :=
  if v.clock ≤ x.1 then
    match x.2 with
    | .verify kid =>
      if call.stage.over then some (⟨kid, x.1, .clock false⟩, { v with clock := x.1 }) else none
    | .go reply =>
      (call.stage.step c published i call.kid x.1 reply { v with clock := x.1 }).map fun out =>
        ({ call with stage := out.1 }, out.2)
  else none

def Starts (s : Threads.Config Nat (Call τ) (Verifier τ)) : Prop :=
  (∀ i, (s.locals i).stage = .idle) ∧ s.shared.keys = none ∧ s.shared.keysAt = none ∧
    s.shared.lastFetchAttempt = none ∧ s.shared.lastForcedRefresh = none ∧ s.shared.lock = none ∧
      s.shared.fetches = []

end QnscKb.Mcp
