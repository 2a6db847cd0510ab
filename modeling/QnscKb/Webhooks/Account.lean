import QnscKb.Webhooks.Repaired

/-!
# Webhooks — Account

What a repair pass of the push subscriptions can leave behind at the provider
(`src/domain/webhook_subscriptions.py`).
-/

namespace QnscKb.Webhooks
open Access (Id)

variable {S : Settings} {A : Answers} {db : Database} {p : Provider} {rows : List Subscription}

/-! ### Nothing to repair -/

/-- Every selected scope has a subscription that is not due. -/
def Database.AllHealthy (db : Database) (A : Answers) : Prop :=
  ∀ connector ∈ db.repairable, connector.webhookEnabled = true →
    ∀ scope ∈ db.selected connector.id, ∃ row ∈ db.subscriptions,
      row.serves connector.id scope.id = true ∧
        row.healthy (A.now connector.id + RENEWAL_HORIZON) = true

theorem ensureScopes_healthy {c : Id} {deadline : Nat} {scopes : List SourceScope}
    (h : ∀ scope ∈ scopes, ∃ row ∈ rows,
      row.serves c scope.id = true ∧ row.healthy deadline = true) :
    ensureScopes A false deadline c rows p scopes = (.ok rows, p) := by
  induction scopes with
  | nil => rfl
  | cons scope scopes ih =>
    obtain ⟨row, hrow, hserves, hhealthy⟩ := h scope List.mem_cons_self
    have hany : ((rows.filter (Subscription.serves c scope.id)).any
        (Subscription.healthy deadline) && !false) = true := by
      rw [Bool.not_false, Bool.and_true, List.any_eq_true]
      exact ⟨row, List.mem_filter.mpr ⟨hrow, hserves⟩, hhealthy⟩
    have hscope : ensureScope A false deadline c rows p scope = (.ok rows, p) := if_pos hany
    rw [ensureScopes, hscope]
    exact ih fun s hs => h s (List.mem_cons_of_mem _ hs)

variable {connector : Connector}

theorem ensureConnectorAuthorized_calls {db' : Database} {p' : Provider} {out : Except Failure Unit}
    (h : ensureConnectorAuthorized S A db p connector = (out, db', p')) :
    p'.calls = p.calls ∨ p'.calls = .refresh connector.id :: p.calls ∧
      authorization S (A.now connector.id) connector = .refresh := by
  rcases (ensureConnectorAuthorized_spec h).calls with hcalls | hcalls
  · exact Or.inl hcalls
  · cases hauth : authorization S (A.now connector.id) connector with
    | refresh => exact Or.inr ⟨hcalls, rfl⟩
    | ready | refused =>
      rw [ensureConnectorAuthorized, hauth] at h
      cases h
      exact Or.inl rfl

/-- A pass has asked for nothing but tokens, once for each connector it is done with. -/
structure Idle (S : Settings) (A : Answers) (db : Database) (done : List Id) (pass : Pass) :
    Prop where
  subscriptions : pass.db.subscriptions = db.subscriptions
  scopes : pass.db.scopes = db.scopes
  calls : ∀ call ∈ pass.provider.calls, ∃ connector ∈ db.repairable, connector.id ∈ done ∧
    call = .refresh connector.id ∧ authorization S (A.now connector.id) connector = .refresh
  once : pass.provider.calls.Nodup

variable {pass : Pass} {done : List Id}

theorem Idle.more (hidle : Idle S A db done pass) (c : Id) : Idle S A db (c :: done) pass :=
  ⟨hidle.subscriptions, hidle.scopes, fun call hcall => by
    obtain ⟨connector, hmem, hdone, hrefresh⟩ := hidle.calls call hcall
    exact ⟨connector, hmem, List.mem_cons_of_mem _ hdone, hrefresh⟩, hidle.once⟩

theorem Idle.unasked {c : Id} (hidle : Idle S A db done pass) (hc : c ∉ done) :
    Request.refresh c ∉ pass.provider.calls := by
  intro hcall
  obtain ⟨connector, -, hdone, heq, -⟩ := hidle.calls _ hcall
  cases heq
  exact hc hdone

theorem ensureWebhookSubscriptions_idle {db' : Database} {p' : Provider}
    {out : Except Failure (List Subscription)} (hidle : Idle S A db done pass)
    (hmem : connector ∈ db.repairable) (hnew : connector.id ∉ done)
    (h : ∀ scope ∈ db.selected connector.id, ∃ row ∈ db.subscriptions,
      row.serves connector.id scope.id = true ∧
        row.healthy (A.now connector.id + RENEWAL_HORIZON) = true)
    (hensure : ensureWebhookSubscriptions S A false pass.db pass.provider connector =
      (out, db', p')) :
    Idle S A db (connector.id :: done) { pass with db := db', provider := p' } ∧
      ∀ rows, out = .ok rows → rows = db.subscriptions := by
  unfold ensureWebhookSubscriptions at hensure
  split at hensure
  · cases hensure
    exact ⟨hidle.more _, fun rows hok => by cases hok⟩
  · cases hauth : ensureConnectorAuthorized S A pass.db pass.provider connector with
    | mk result rest =>
      obtain ⟨db₁, p₁⟩ := rest
      have hspec := ensureConnectorAuthorized_spec hauth
      have hidle₁ : Idle S A db (connector.id :: done) { pass with db := db₁, provider := p₁ } := by
        rcases ensureConnectorAuthorized_calls hauth with hcalls | ⟨hcalls, hrefresh⟩
        · refine ⟨hspec.subscriptions.trans hidle.subscriptions, hspec.scopes.trans hidle.scopes,
            fun call hcall => (hidle.more _).calls call (hcalls ▸ hcall), ?_⟩
          exact hcalls.symm ▸ hidle.once
        · refine ⟨hspec.subscriptions.trans hidle.subscriptions, hspec.scopes.trans hidle.scopes,
            fun call hcall => ?_, ?_⟩
          · dsimp only at hcall
            rw [hcalls] at hcall
            rcases List.mem_cons.mp hcall with rfl | hcall
            · exact ⟨connector, hmem, List.mem_cons_self, rfl, hrefresh⟩
            · exact (hidle.more _).calls call hcall
          · dsimp only
            rw [hcalls]
            exact List.nodup_cons.mpr ⟨hidle.unasked hnew, hidle.once⟩
      rw [hauth] at hensure
      cases result with
      | error failure =>
        cases hensure
        exact ⟨hidle₁, fun rows hok => by cases hok⟩
      | ok u =>
        have hselected : db₁.selected connector.id = db.selected connector.id := by
          rw [Database.selected, hidle₁.scopes, Database.selected]
        -- a refresh of the token writes neither the subscriptions nor the scopes
        have hloop := ensureScopes_healthy (A := A) (p := p₁) h
        rw [← hidle₁.subscriptions, ← hselected] at hloop
        dsimp only at hensure hloop
        rw [hloop] at hensure
        cases hensure
        exact ⟨hidle₁, fun rows hok => by cases hok; exact hidle₁.subscriptions⟩

theorem Idle.step (hidle : Idle S A db done pass) (hhealthy : db.AllHealthy A)
    (hmem : connector ∈ db.repairable) (hnew : connector.id ∉ done) :
    Idle S A db (connector.id :: done) (repairConnector S A pass connector) := by
  unfold repairConnector
  split
  · exact hidle.more _
  · rename_i hrun
    simp only [Bool.or_eq_true, Bool.not_eq_true', not_or, Bool.not_eq_false] at hrun
    cases hensure : ensureWebhookSubscriptions S A false pass.db pass.provider connector with
    | mk result rest =>
      obtain ⟨hidle', hok⟩ :=
        ensureWebhookSubscriptions_idle hidle hmem hnew (hhealthy connector hmem hrun.2) hensure
      cases result with
      | ok rows => exact ⟨hok rows rfl, hidle'.scopes, hidle'.calls, hidle'.once⟩
      | error failure =>
        cases failure with
        | configuration => exact ⟨hidle'.subscriptions, hidle'.scopes, hidle'.calls, hidle'.once⟩
        | provider => exact ⟨hidle'.subscriptions, hidle'.scopes, hidle'.calls, hidle'.once⟩
        | other => exact ⟨hidle'.subscriptions, hidle'.scopes, hidle'.calls, hidle'.once⟩

theorem Idle.all {connectors : List Connector} (hidle : Idle S A db done pass)
    (hhealthy : db.AllHealthy A) (hmem : ∀ connector ∈ connectors, connector ∈ db.repairable)
    (hkeys : (connectors.map Connector.id).Nodup)
    (hnew : ∀ connector ∈ connectors, connector.id ∉ done) :
    ∃ done', Idle S A db done' (connectors.foldl (repairConnector S A) pass) := by
  induction connectors generalizing done pass with
  | nil => exact ⟨done, hidle⟩
  | cons connector connectors ih =>
    rw [List.map_cons, List.nodup_cons] at hkeys
    refine ih (hidle.step hhealthy (hmem connector List.mem_cons_self)
      (hnew connector List.mem_cons_self)) (fun other hother =>
        hmem other (List.mem_cons_of_mem _ hother)) hkeys.2 fun other hother hdone => ?_
    rcases List.mem_cons.mp hdone with heq | hdone
    · exact hkeys.1 (heq ▸ List.mem_map_of_mem hother)
    · exact hnew other (List.mem_cons_of_mem _ hother) hdone

/-! ### What is left behind -/

/-- The ids of the rows are unique. -/
structure Database.Keyed (db : Database) : Prop where
  subscriptions : (db.subscriptions.map Subscription.providerSubscriptionId).Nodup
  scopes : (db.scopes.map SourceScope.id).Nodup
  connectors : (db.connectors.map Connector.id).Nodup

/-- What a pass from `db` has done, where `live` were the subscriptions at the provider. -/
structure Unorphaned (S : Settings) (A : Answers) (db : Database) (live : List Live)
    (pass : Pass) : Prop where
  /-- A subscription is recorded, unless no active row had it before either, its deletion did not
  take, or the repair that made it failed. -/
  recorded : ∀ id, Live.known id ∈ pass.provider.live →
    (∃ row ∈ pass.db.subscriptions, row.providerSubscriptionId = id ∧ row.active = true) ∨
      (Live.known id ∈ live ∧
        ∀ row ∈ db.subscriptions, row.providerSubscriptionId = id → row.active = false) ∨
      (∃ c, Request.delete c id false ∈ pass.provider.calls) ∨
      ∃ c ∈ pass.failed, Request.create c id ∈ pass.provider.calls
  stray : ∀ scope, Live.stray scope ∈ pass.provider.live → Live.stray scope ∈ live ∨
    ∃ c ∈ pass.failed, Request.createFailed c ∈ pass.provider.calls
  undeleted : ∀ row ∈ pass.db.subscriptions, row.active = true → row.connectorId ∉ pass.failed →
    ∀ c gone, Request.delete c row.providerSubscriptionId gone ∉ pass.provider.calls
  /-- Where every subscription is healthy, a connector's tokens are renewed, once and where due. -/
  idle : db.AllHealthy A → pass.provider.calls.Nodup ∧ ∀ call ∈ pass.provider.calls,
    ∃ connector ∈ db.repairable, call = .refresh connector.id ∧
      authorization S (A.now connector.id) connector = .refresh

variable {live : List Live} {seen : List Id}

theorem Accounted.recorded (h : Accounted db.subscriptions live seen pass) {id : String}
    (hlive : Live.known id ∈ pass.provider.live) :
    (∃ row ∈ pass.db.subscriptions, row.providerSubscriptionId = id ∧ row.active = true) ∨
      (Live.known id ∈ live ∧
        ∀ row ∈ db.subscriptions, row.providerSubscriptionId = id → row.active = false) ∨
      (∃ c, Request.delete c id false ∈ pass.provider.calls) ∨
      ∃ c ∈ pass.failed, Request.create c id ∈ pass.provider.calls := by
  rcases h.grown _ hlive with hold | ⟨c, id', heq, hcall⟩ | ⟨c, scope, heq, -⟩
  · by_cases hrow : ∃ row ∈ db.subscriptions, row.providerSubscriptionId = id ∧ row.active = true
    · obtain ⟨row, hrow, rfl, hactive⟩ := hrow
      rcases h.kept row hrow with hin | ⟨-, gone, hasked, hgone⟩
      · exact Or.inl ⟨row, hin, rfl, hactive⟩
      · cases gone with
        | false => exact Or.inr (Or.inr (Or.inl ⟨row.connectorId, hasked⟩))
        | true => exact absurd hlive (hgone rfl)
    · refine Or.inr (Or.inl ⟨hold, fun row hmem hid => ?_⟩)
      exact Bool.eq_false_of_not_eq_true fun hactive => hrow ⟨row, hmem, hid, hactive⟩
  · cases heq
    by_cases hc : c ∈ pass.failed
    · exact Or.inr (Or.inr (Or.inr ⟨c, hc, hcall⟩))
    · obtain ⟨row, hrow, hid, -, hactive⟩ := h.created c id hcall hc
      exact Or.inl ⟨row, hrow, hid, hactive⟩
  · cases heq

theorem Accounted.stray {scope : Id} (h : Accounted db.subscriptions live seen pass)
    (hlive : Live.stray scope ∈ pass.provider.live) : Live.stray scope ∈ live ∨
      ∃ c ∈ pass.failed, Request.createFailed c ∈ pass.provider.calls := by
  rcases h.grown _ hlive with hold | ⟨c, id, heq, -⟩ | ⟨c, scope', -, hcall⟩
  · exact Or.inl hold
  · cases heq
  · exact Or.inr ⟨c, h.refused c hcall, hcall⟩

theorem Accounted.undeleted {row : Subscription} (h : Accounted db.subscriptions live seen pass)
    (hrow : row ∈ pass.db.subscriptions) (hactive : row.active = true)
    (hfailed : row.connectorId ∉ pass.failed) (c : Id) (gone : Bool) :
    Request.delete c row.providerSubscriptionId gone ∉ pass.provider.calls := by
  intro hcall
  have hsame : ∀ other ∈ pass.db.subscriptions,
      other.providerSubscriptionId = row.providerSubscriptionId → other = row :=
    fun other hother heq => List.inj_on_of_nodup_map h.keys hother hrow heq
  obtain ⟨owner, howner, hid, hc⟩ := h.owned c _ gone hcall
  rw [hsame owner howner hid] at hc
  obtain ⟨retired, hretired, hid, -, hoff⟩ := h.deleted c _ gone hcall (hc ▸ hfailed)
  rw [hsame retired hretired hid, hactive] at hoff
  cases hoff

/-- **A pass** accounts for every subscription of a connector whose repair did not fail, and for
every deletion it asked for. -/
theorem repair_unorphaned (S : Settings) (A : Answers) (db : Database) (live : List Live)
    (hkeyed : db.Keyed) : Unorphaned S A db live (repairWebhookSubscriptions S A db live) := by
  have hstart : Accounted db.subscriptions live [] ⟨db, ⟨live, []⟩, [], false⟩ :=
    ⟨hkeyed.subscriptions, hkeyed.scopes, fun _ h => absurd h List.not_mem_nil,
      fun _ _ _ h => absurd h List.not_mem_nil, fun _ _ h => absurd h List.not_mem_nil,
      fun _ _ _ h => absurd h List.not_mem_nil, fun _ h => absurd h List.not_mem_nil,
      fun _ h => Or.inl h, fun _ h => Or.inl h⟩
  have hkeys : (db.repairable.map Connector.id).Nodup :=
    hkeyed.connectors.sublist (List.filter_sublist.map Connector.id)
  obtain ⟨seen, h⟩ := hstart.all (S := S) (A := A) hkeys fun _ _ => List.not_mem_nil
  have hidle : Idle S A db [] ⟨db, ⟨live, []⟩, [], false⟩ :=
    ⟨rfl, rfl, fun _ h => absurd h List.not_mem_nil, List.nodup_nil⟩
  refine ⟨fun id => h.recorded, fun scope => h.stray, fun row => h.undeleted, fun hhealthy => ?_⟩
  obtain ⟨done, hend⟩ :=
    hidle.all hhealthy (fun _ hmem => hmem) hkeys fun _ _ => List.not_mem_nil
  exact ⟨hend.once, fun call hcall =>
    let ⟨connector, hmem, _, hrefresh⟩ := hend.calls call hcall
    ⟨connector, hmem, hrefresh⟩⟩

/-! ### A pass that replaces a subscription -/

/-- A connector with its tokens, two selected folders and what is subscribed. -/
def folders (expiresAt : Option Nat) (subscriptions : List Subscription) : Database where
  connectors := [⟨1, "google_drive", "active", true, none, some 9, ⟨true, true, expiresAt⟩⟩]
  scopes := [⟨10, 1, true⟩, ⟨11, 1, true⟩]
  subscriptions := subscriptions
  notices := []

def subscribed (scopeId : Id) (id : String) (expiresAt : Nat) : Subscription :=
  ⟨1, some scopeId, id, none, some expiresAt, true⟩

def address : Settings := ⟨some "https://kb", "delegated"⟩

/-- The answers at a time, where subscriptions are called by the number of the request. -/
def answers (now : Nat) (gone : Bool) (create : Nat → CreateAnswer) : Answers where
  refresh := fun _ => .tokens true false (some 3600)
  delete := fun _ => gone
  create := create
  now := fun _ => now

def renewed (n : Nat) : CreateAnswer :=
  if n = 1 then .created "b" none (some 9000) else .refused false

/-- The first folder's subscription is due, and is replaced. -/
theorem replaced_unorphaned :
    Unorphaned address (answers 1000 true renewed)
      (folders (some 5000) [subscribed 10 "a" 1500, subscribed 11 "c" 8000])
      [.known "a", .known "c"]
      (repairWebhookSubscriptions address (answers 1000 true renewed)
        (folders (some 5000) [subscribed 10 "a" 1500, subscribed 11 "c" 8000])
        [.known "a", .known "c"]) :=
  repair_unorphaned _ _ _ _ ⟨by decide, by decide, by decide⟩

/-- No subscription is left behind, none that is recorded was deleted, and the provider is left
alone where nothing is due. -/
def NoOrphan (S : Settings) (A : Answers) (db : Database) (live : List Live) : Prop :=
  let pass := repairWebhookSubscriptions S A db live
  ((∀ x ∈ live, ∃ row ∈ db.subscriptions,
      x = .known row.providerSubscriptionId ∧ row.active = true) →
    ∀ x ∈ pass.provider.live, ∃ row ∈ pass.db.subscriptions,
      x = .known row.providerSubscriptionId ∧ row.active = true) ∧
  (∀ row ∈ pass.db.subscriptions, row.active = true →
    (row.expiresAt.any fun expires => A.now row.connectorId < expires) = true →
      ∀ c gone, Request.delete c row.providerSubscriptionId gone ∉ pass.provider.calls) ∧
  (db.AllHealthy A → pass.provider.calls = [])

/-- A subscription that could not be deleted is replaced all the same, tokens are renewed before the
subscriptions are looked at, and where a later folder fails, what was replaced for an earlier one is
forgotten. -/
theorem repair_not_without_orphan :
    ¬ NoOrphan address (answers 1000 false renewed)
      (folders (some 5000) [subscribed 10 "a" 1500, subscribed 11 "c" 8000])
      [.known "a", .known "c"] ∧
    ¬ NoOrphan address (answers 1000 true renewed)
      (folders none [subscribed 10 "a" 8000, subscribed 11 "c" 8000])
      [.known "a", .known "c"] ∧
    ¬ NoOrphan address (answers 1000 true renewed)
      (folders (some 5000) [subscribed 10 "a" 1500]) [.known "a"] := by
  refine ⟨fun h => ?_, fun h => ?_, fun h => ?_⟩
  · obtain ⟨row, hrow, hid, hactive⟩ := h.1 (by decide) (.known "a") (by decide)
    have hnone : ∀ row ∈ (repairWebhookSubscriptions address (answers 1000 false renewed)
        (folders (some 5000) [subscribed 10 "a" 1500, subscribed 11 "c" 8000])
        [.known "a", .known "c"]).db.subscriptions,
        ¬ (Live.known "a" = .known row.providerSubscriptionId ∧ row.active = true) := by decide
    exact hnone row hrow ⟨hid, hactive⟩
  · have hhealthy : (folders none [subscribed 10 "a" 8000, subscribed 11 "c" 8000]).AllHealthy
        (answers 1000 true renewed) := by
      unfold Database.AllHealthy
      decide
    have hcalls := h.2.2 hhealthy
    revert hcalls
    decide
  · refine h.2.1 (subscribed 10 "a" 1500) (by decide) rfl (by decide) 1 true ?_
    decide

end QnscKb.Webhooks
