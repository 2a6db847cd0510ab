import QnscKb.Purge.Model

/-!
# Purge — Forecast

What the dry run of a purge says about the real run, and what the real run leaves
(`src/domain/kb_purge.py`).
-/

namespace QnscKb.Purge
open Access (Id)
open ForeignKeys (Rule Intact Reaches Shrunk view)

variable {company : String} {db db' : List Row} {userIds articleIds : List Id}

/-! ### The order of the statements -/

/-- The place of the first statement of a purge that deletes from the table, or cascades into it. -/
def stage : Table → Nat
  | .aiCache => 1
  | .aiConversations | .aiMessages => 2
  | .aiUsageLogs | .aiFeedback => 3
  | .notificationQueue => 4
  | .ingestionFingerprints => 5
  | .gaps => 6
  | .conflictRecords => 7
  | .indexReprocessJobs => 8
  | .pendingDrafts | .draftTransitions | .draftCandidates => 9
  | .documentSources | .documentEvidence | .parentChunks | .articleChunks | .chunkMetadata => 10
  | .articles | .articleDepartments | .articleVersions | .articleUserPermissions | .articleTags
  | .articleDigests | .articleEditRequests | .articleEntityMentions | .comments | .votes
  | .bookmarks | .articleFollowers => 11
  | .externalDocuments | .documentVersions | .permissionSnapshots | .externalAclPrincipals => 12
  | .syncCursors => 13
  | .syncRequests => 14
  | .connectorNotifications => 15
  | .outboxEvents => 16
  | .users | .connectors | .graphRelationships | .syncErrors => 17

/-- The tables that the statements before a place may touch. -/
def before (n : Nat) (table : Table) : Bool := stage table < n

variable {table : Table}

variable {n : Nat}

theorem before_eq_false (h : n ≤ stage table) : before n table = false :=
  decide_eq_false (Nat.not_lt.mpr h)

theorem cascade_stage : (foreignKeys.all fun fk =>
    !(fk.rule == .cascade) || decide (stage fk.table ≤ stage fk.target)) = true := rfl

theorem closed_before (n : Nat) : ForeignKeys.closed foreignKeys (before n) = true := by
  refine List.all_eq_true.mpr fun fk hfk => ?_
  have h := List.all_eq_true.mp cascade_stage fk hfk
  cases hrule : fk.rule == Rule.cascade with
  | false => rfl
  | true =>
    rw [hrule, Bool.not_true, Bool.false_or, decide_eq_true_eq] at h
    cases htarget : before n fk.target with
    | false => rfl
    | true =>
      have hlt : stage fk.target < n := of_decide_eq_true htarget
      exact decide_eq_true (Nat.lt_of_le_of_lt h hlt)

/-! ### Statements -/

/-- The statement selects from its table only. -/
def Statement.Proper (s : Statement) : Prop :=
  ∀ db row, s.select db row = true → row.table = s.table

/-- The count of a statement is not changed by the statements before it. -/
def Statement.Local (s : Statement) : Prop :=
  ∀ db db', view foreignKeys (before (stage s.table)) db =
    view foreignKeys (before (stage s.table)) db' →
      db.countP (s.select db) = db'.countP (s.select db')

variable {inside : Table → Bool}

theorem countP_of_view {q : Row → Bool} (hq : ∀ row, q row = true → inside row.table = false)
    (hstrip : ∀ row, q (ForeignKeys.strip foreignKeys inside row) = q row)
    (h : view foreignKeys inside db = view foreignKeys inside db') :
    db.countP q = db'.countP q := by
  have heq : ((view foreignKeys inside db).filter q).length =
      ((view foreignKeys inside db').filter q).length := by rw [h]
  rw [ForeignKeys.filter_view hq hstrip, ForeignKeys.filter_view hq hstrip, List.length_map,
    List.length_map] at heq
  rw [List.countP_eq_length_filter, List.countP_eq_length_filter, heq]

theorem ofCompany_table {row : Row} (h : ofCompany table company row = true) :
    row.table = table := by
  rw [ofCompany, Bool.and_eq_true, beq_iff_eq] at h
  exact h.1

variable {column : Column}

theorem inIds_table {ids : List Id} {row : Row} (h : inIds table column ids row = true) :
    row.table = table := by
  rw [inIds, Bool.and_eq_true, beq_iff_eq] at h
  exact h.1

theorem mem_idsOf {id : Id} : id ∈ idsOf table company db ↔
    ∃ row ∈ db, row.table = table ∧ row.data.companyDomain = some company ∧ row.key = id := by
  simp only [idsOf, List.mem_map, List.mem_filter, ofCompany, Bool.and_eq_true, beq_iff_eq,
    and_assoc]

theorem idsOf_of_view (company : String) (htable : inside table = false)
    (h : view foreignKeys inside db = view foreignKeys inside db') :
    idsOf table company db = idsOf table company db' := by
  have hq : ∀ row : Row, ofCompany table company row = true → inside row.table = false :=
    fun row hrow => (ofCompany_table hrow).symm ▸ htable
  have hkeys : ∀ db : List Row, idsOf table company db =
      ((view foreignKeys inside db).filter (ofCompany table company)).map
        ForeignKeys.Row.key := by
    intro db
    rw [ForeignKeys.filter_view hq fun _ => rfl, List.map_map]
    rfl
  rw [hkeys, h, ← hkeys]

theorem inIds_strip (hcolumn : ForeignKeys.leadsInto foreignKeys inside table column = false)
    (ids : List Id) (row : Row) :
    inIds table column ids (ForeignKeys.strip foreignKeys inside row) =
      inIds table column ids row := by
  rw [inIds, inIds, ForeignKeys.strip]
  cases htable : row.table == table with
  | false => rfl
  | true =>
    rw [beq_iff_eq] at htable
    rw [Bool.true_and]
    congr 1
    funext id
    rw [Bool.eq_iff_iff, List.contains_iff_mem, List.contains_iff_mem, List.mem_filter, htable,
      hcolumn]
    exact and_iff_left rfl

theorem companyStatement_local (field : Field) (table : Table) (company : String) :
    (companyStatement field table company).Local := by
  intro db db' h
  refine countP_of_view (fun row hrow => ?_) (fun _ => rfl) h
  exact before_eq_false (Nat.le_of_eq (congrArg stage (ofCompany_table hrow)).symm)

theorem inIds_count (ids : List Id) (htable : n ≤ stage table)
    (hcolumn : ForeignKeys.leadsInto foreignKeys (before n) table column = false)
    (h : view foreignKeys (before n) db = view foreignKeys (before n) db') :
    db.countP (inIds table column ids) = db'.countP (inIds table column ids) := by
  refine countP_of_view (fun row hrow => ?_) (inIds_strip hcolumn ids) h
  exact before_eq_false (inIds_table hrow ▸ htable)

variable {field : Field}

theorem userStatement_local
    (hcolumn : ForeignKeys.leadsInto foreignKeys (before (stage table)) table column = false) :
    (userStatement field table column userIds).Local :=
  fun _ _ h => inIds_count userIds (Nat.le_refl _) hcolumn h

theorem ownedStatement_local {owner : Table}
    (hcolumn : ForeignKeys.leadsInto foreignKeys (before (stage table)) table column = false)
    (howner : stage table ≤ stage owner) :
    (ownedStatement field table column owner company).Local := by
  intro db db' h
  have hids := idsOf_of_view company (before_eq_false howner) h
  change db.countP (inIds table column (idsOf owner company db)) =
    db'.countP (inIds table column (idsOf owner company db'))
  rw [hids]
  exact inIds_count _ (Nat.le_refl _) hcolumn h

theorem pendingEvents_local (articleIds : List Id) :
    (⟨.outboxEvents, .outboxEvents, fun _ => pendingEvents articleIds⟩ : Statement).Local := by
  intro db db' h
  refine countP_of_view (fun row hrow => ?_) (fun _ => rfl) h
  dsimp only at hrow
  rw [pendingEvents, Bool.and_eq_true, Bool.and_eq_true, beq_iff_eq] at hrow
  rw [hrow.1.1]
  rfl

/-! ### Runs of statements -/

variable {run : Run} {steps : List (Statement × Effect)}

variable {s : Statement × Effect}

theorem Run.step_db_view (hproper : s.1.Proper) (hstage : stage s.1.table < n) (run : Run) :
    view foreignKeys (before n) (run.step s).db = view foreignKeys (before n) run.db := by
  have hinside : ∀ row, s.1.select run.db row = true → before n row.table = true :=
    fun row hrow => decide_eq_true (hproper run.db row hrow ▸ hstage)
  rw [Run.step]
  cases s.2 with
  | delete => exact ForeignKeys.view_delete (closed_before n) fun row _ => hinside row
  | update f =>
    refine ForeignKeys.view_map (fun row => ?_) fun row houtside => ?_
    · split
      · rfl
      · rfl
    · refine if_neg fun hrow => ?_
      rw [hinside row hrow] at houtside
      cases houtside

theorem run_view (hproper : ∀ s ∈ steps, s.1.Proper) (hstage : ∀ s ∈ steps, stage s.1.table < n)
    (run : Run) :
    view foreignKeys (before n) (steps.foldl Run.step run).db =
      view foreignKeys (before n) run.db := by
  induction steps generalizing run with
  | nil => rfl
  | cons s steps ih =>
    rw [List.foldl_cons, ih (fun t ht => hproper t (List.mem_cons_of_mem _ ht))
      (fun t ht => hstage t (List.mem_cons_of_mem _ ht))]
    exact Run.step_db_view (hproper s List.mem_cons_self) (hstage s List.mem_cons_self) run

theorem set_other {counts : PurgeCounts} {field' : Field} (h : field ≠ field') (n : Nat) :
    counts.set field n field' = counts field' := by
  rw [PurgeCounts.set, Function.update_of_ne h.symm]

theorem set_same (counts : PurgeCounts) (field : Field) (n : Nat) :
    counts.set field n field = n := by
  rw [PurgeCounts.set, Function.update_self]

theorem run_counts_other (h : ∀ s ∈ steps, s.1.field ≠ field) (run : Run) :
    (steps.foldl Run.step run).counts field = run.counts field := by
  induction steps generalizing run with
  | nil => rfl
  | cons s steps ih =>
    rw [List.foldl_cons, ih fun t ht => h t (List.mem_cons_of_mem _ ht)]
    exact set_other (h s List.mem_cons_self) _

/-- The statements come in the order of their stages, each with a count of its own. -/
structure Ordered (steps : List (Statement × Effect)) : Prop where
  proper : ∀ s ∈ steps, s.1.Proper
  loc : ∀ s ∈ steps, s.1.Local
  stages : (steps.map fun s => stage s.1.table).Pairwise (· < ·)
  fields : (steps.map fun s => s.1.field).Nodup

/-- **Every statement** counts the rows that were there before the run. -/
theorem Ordered.count (h : Ordered steps) (hs : s ∈ steps) (run : Run) :
    (steps.foldl Run.step run).counts s.1.field = run.db.countP (s.1.select run.db) := by
  obtain ⟨first, rest, rfl⟩ := List.append_of_mem hs
  have hstages := h.stages
  have hfields := h.fields
  rw [List.map_append, List.map_cons] at hstages hfields
  have hrest : ∀ t ∈ rest, t.1.field ≠ s.1.field := by
    intro t ht heq
    have hnodup := (List.nodup_cons.mp (List.nodup_append.mp hfields).2.1).1
    exact hnodup (heq ▸ List.mem_map_of_mem ht)
  have hfirst : ∀ t ∈ first, stage t.1.table < stage s.1.table := by
    intro t ht
    exact (List.pairwise_append.mp hstages).2.2 _ (List.mem_map_of_mem ht) _ List.mem_cons_self
  rw [List.foldl_append, List.foldl_cons, run_counts_other hrest]
  refine (set_same _ _ _).trans (h.loc s hs _ _ (run_view (fun t ht => ?_) hfirst run))
  exact h.proper t (List.mem_append_left _ ht)

/-! ### The real run -/

theorem statements_proper : ∀ s ∈ statements company userIds articleIds, s.1.Proper := by
  have hcompany : ∀ field table, (companyStatement field table company).Proper :=
    fun _ _ _ _ h => ofCompany_table h
  have huser : ∀ field table column, (userStatement field table column userIds).Proper :=
    fun _ _ _ _ _ h => inIds_table h
  have howned : ∀ field table column owner,
      (ownedStatement field table column owner company).Proper :=
    fun _ _ _ _ _ _ h => inIds_table h
  have hevents : (⟨.outboxEvents, .outboxEvents, fun _ => pendingEvents articleIds⟩ :
      Statement).Proper := by
    intro db row h
    dsimp only at h
    rw [pendingEvents, Bool.and_eq_true, Bool.and_eq_true, beq_iff_eq] at h
    exact h.1.1
  refine List.forall_mem_append.mpr ⟨List.forall_mem_append.mpr ⟨?_, ?_⟩, ?_⟩
  · split
    · exact List.forall_mem_nil _
    · simp only [List.forall_mem_cons]
      exact ⟨huser _ _ _, huser _ _ _, huser _ _ _, huser _ _ _, List.forall_mem_nil _⟩
  · simp only [List.forall_mem_cons]
    exact ⟨hcompany _ _, hcompany _ _, hcompany _ _, hcompany _ _, hcompany _ _, howned _ _ _ _,
      hcompany _ _, howned _ _ _ _, howned _ _ _ _, howned _ _ _ _, howned _ _ _ _,
      List.forall_mem_nil _⟩
  · split
    · exact List.forall_mem_nil _
    · exact List.forall_mem_singleton.mpr hevents

theorem statements_local : ∀ s ∈ statements company userIds articleIds, s.1.Local := by
  refine List.forall_mem_append.mpr ⟨List.forall_mem_append.mpr ⟨?_, ?_⟩, ?_⟩
  · split
    · exact List.forall_mem_nil _
    · simp only [List.forall_mem_cons]
      exact ⟨userStatement_local rfl, userStatement_local rfl, userStatement_local rfl,
        userStatement_local rfl, List.forall_mem_nil _⟩
  · simp only [List.forall_mem_cons]
    exact ⟨companyStatement_local _ _ _, companyStatement_local _ _ _,
      companyStatement_local _ _ _, companyStatement_local _ _ _, companyStatement_local _ _ _,
      ownedStatement_local rfl (by decide), companyStatement_local _ _ _,
      ownedStatement_local rfl (by decide), ownedStatement_local rfl (by decide),
      ownedStatement_local rfl (by decide), ownedStatement_local rfl (by decide),
      List.forall_mem_nil _⟩
  · split
    · exact List.forall_mem_nil _
    · exact List.forall_mem_singleton.mpr (pendingEvents_local articleIds)

theorem ite_nil_sublist {α : Type} (c : Prop) [Decidable c] (l : List α) :
    (if c then [] else l).Sublist l := by
  split
  · exact List.nil_sublist l
  · exact List.Sublist.refl l

theorem statements_within (company : String) (userIds articleIds : List Id) :
    ∃ all : List (Statement × Effect), (statements company userIds articleIds).Sublist all ∧
      (all.map fun s => stage s.1.table) = [1, 2, 3, 4, 5, 6, 7, 8, 9, 10, 11, 12, 13, 14, 15, 16] ∧
      (all.map fun s => s.1.field) = [.aiCache, .aiConversations, .aiUsageLogs, .notifications,
        .ingestionFingerprints, .gaps, .conflictRecords, .indexReprocessJobs, .pendingDrafts,
        .documentSources, .articles, .externalDocuments, .syncCursorsReset, .syncRequests,
        .connectorNotifications, .outboxEvents] :=
  ⟨_, ((ite_nil_sublist _ _).append (List.Sublist.refl _)).append (ite_nil_sublist _ _), rfl, rfl⟩

theorem statements_ordered : Ordered (statements company userIds articleIds) := by
  obtain ⟨all, hsub, hstages, hfields⟩ := statements_within company userIds articleIds
  refine ⟨statements_proper, statements_local, ?_, ?_⟩
  · refine List.Pairwise.sublist (hsub.map _) ?_
    rw [hstages]
    decide
  · refine List.Nodup.sublist (hsub.map _) ?_
    rw [hfields]
    decide

/-- **The real run** counts what was there before. -/
theorem realRun_count
    (hs : s ∈ statements company (idsOf .users company db) (idsOf .articles company db)) :
    (realRun company db).counts s.1.field = db.countP (s.1.select db) := by
  obtain ⟨all, hsub, -, hfields⟩ :=
    statements_within company (idsOf .users company db) (idsOf .articles company db)
  have hfield : Field.storageObjects ≠ s.1.field := by
    intro heq
    have hmem := (hsub.map fun s => s.1.field).subset (List.mem_map_of_mem hs)
    rw [hfields, ← heq] at hmem
    revert hmem
    decide
  exact (set_other hfield _).trans (statements_ordered.count hs _)

theorem realRun_count_none (hfield : Field.storageObjects ≠ field)
    (h : ∀ s ∈ statements company (idsOf .users company db) (idsOf .articles company db),
        s.1.field ≠ field) :
    (realRun company db).counts field = 0 :=
  (set_other hfield _).trans (run_counts_other h _)

/-! ### The dry run -/

theorem dry_counts_other {forecast : List Statement} (h : ∀ s ∈ forecast, s.field ≠ field)
    (db : List Row) (counts : PurgeCounts) :
    (forecast.foldl (fun counts s => counts.set s.field (db.countP (s.select db))) counts) field =
      counts field := by
  induction forecast generalizing counts with
  | nil => rfl
  | cons s forecast ih =>
    rw [List.foldl_cons, ih fun t ht => h t (List.mem_cons_of_mem _ ht)]
    exact set_other (h s List.mem_cons_self) _

theorem dry_counts {s : Statement} {forecast : List Statement}
    (hfields : (forecast.map Statement.field).Nodup) (hs : s ∈ forecast) (db : List Row)
    (counts : PurgeCounts) :
    (forecast.foldl (fun counts s => counts.set s.field (db.countP (s.select db))) counts) s.field =
      db.countP (s.select db) := by
  obtain ⟨first, rest, rfl⟩ := List.append_of_mem hs
  rw [List.map_append] at hfields
  have hrest : ∀ t ∈ rest, t.field ≠ s.field := by
    intro t ht heq
    have hnodup := (List.nodup_cons.mp (List.nodup_append.mp hfields).2.1).1
    exact hnodup (heq ▸ List.mem_map_of_mem ht)
  rw [List.foldl_append, List.foldl_cons, dry_counts_other hrest]
  exact set_same _ _ _

theorem forecasts_within (company : String) (userIds : List Id) :
    ∃ all : List Statement, (forecasts company userIds).Sublist all ∧
      all.map Statement.field = [.articles, .connectors, .documentSources, .pendingDrafts,
        .externalDocuments, .ingestionFingerprints, .gaps, .conflictRecords, .indexReprocessJobs,
        .syncCursorsReset, .aiCache, .aiConversations, .aiUsageLogs] :=
  ⟨_, (List.Sublist.refl _).append (ite_nil_sublist _ _), rfl⟩

theorem dryRun_count {s : Statement} (hs : s ∈ forecasts company (idsOf .users company db)) :
    dryRun company db s.field = db.countP (s.select db) := by
  obtain ⟨all, hsub, hfields⟩ := forecasts_within company (idsOf .users company db)
  have hfield : Field.storageObjects ≠ s.field := by
    intro heq
    have hmem := (hsub.map Statement.field).subset (List.mem_map_of_mem hs)
    rw [hfields, ← heq] at hmem
    revert hmem
    decide
  have hnodup : ((forecasts company (idsOf .users company db)).map Statement.field).Nodup := by
    refine List.Nodup.sublist (hsub.map _) ?_
    rw [hfields]
    decide
  exact (set_other hfield _).trans (dry_counts hnodup hs db _)

theorem dryRun_count_none (hfield : Field.storageObjects ≠ field)
    (h : ∀ s ∈ forecasts company (idsOf .users company db), s.field ≠ field) :
    dryRun company db field = 0 :=
  (set_other hfield _).trans (dry_counts_other h db _)

theorem forecast_eq (s : Statement) (effect : Effect)
    (hdry : s ∈ forecasts company (idsOf .users company db))
    (hreal : (s, effect) ∈ statements company (idsOf .users company db)
      (idsOf .articles company db)) :
    dryRun company db s.field = (realRun company db).counts s.field :=
  (dryRun_count hdry).trans (realRun_count hreal).symm

end QnscKb.Purge
