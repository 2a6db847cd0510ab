import QnscKb.Purge.Forecast

/-!
# Purge — Purged

What a purge of one tenant removes, and what it leaves (`src/domain/kb_purge.py`).
-/

namespace QnscKb.Purge
open Access (Id)
open ForeignKeys (Rule Intact Reaches Shrunk)

variable {company : String} {db : List Row} {userIds articleIds : List Id}

/-! ### The counts -/

/-- The counts that a dry run leaves at zero though the real run may not, and that of the
connectors, which the real run keeps. -/
def unforecast : List Field :=
  [.connectors, .notifications, .syncRequests, .connectorNotifications, .outboxEvents]

theorem statements_fields (h : userIds.isEmpty = true) :
    ((statements company userIds articleIds).map fun s => s.1.field).Sublist
      [.ingestionFingerprints, .gaps, .conflictRecords, .indexReprocessJobs, .pendingDrafts,
        .documentSources, .articles, .externalDocuments, .syncCursorsReset, .syncRequests,
        .connectorNotifications, .outboxEvents] := by
  rw [statements, if_pos h]
  exact ((List.Sublist.refl _).append (ite_nil_sublist _ _)).map _

theorem forecasts_fields (h : userIds.isEmpty = true) :
    (forecasts company userIds).map Statement.field =
      [.articles, .connectors, .documentSources, .pendingDrafts, .externalDocuments,
        .ingestionFingerprints, .gaps, .conflictRecords, .indexReprocessJobs,
        .syncCursorsReset] := by
  rw [forecasts, if_pos h]
  rfl

variable {field : Field}

theorem no_users (hfield : field = .aiCache ∨ field = .aiConversations ∨ field = .aiUsageLogs)
    (husers : (idsOf .users company db).isEmpty = true) :
    dryRun company db field = 0 ∧ (realRun company db).counts field = 0 := by
  have hnone : ∀ fields : List Field, fields = [.articles, .connectors, .documentSources,
      .pendingDrafts, .externalDocuments, .ingestionFingerprints, .gaps, .conflictRecords,
      .indexReprocessJobs, .syncCursorsReset, .syncRequests, .connectorNotifications,
      .outboxEvents] → field ∉ fields ∧ Field.storageObjects ≠ field := by
    rintro fields rfl
    rcases hfield with rfl | rfl | rfl
    · decide
    · decide
    · decide
  obtain ⟨hnot, hstorage⟩ := hnone _ rfl
  refine ⟨dryRun_count_none hstorage fun s hs heq => hnot ?_,
    realRun_count_none hstorage fun s hs heq => hnot ?_⟩
  · have hmem := List.mem_map_of_mem (f := Statement.field) hs
    rw [forecasts_fields husers, heq] at hmem
    exact List.mem_append_left [.syncRequests, .connectorNotifications, .outboxEvents] hmem
  · have hmem := (statements_fields husers).subset
      (List.mem_map_of_mem (f := fun s : Statement × Effect => s.1.field) hs)
    rw [heq] at hmem
    revert hmem
    rcases hfield with rfl | rfl | rfl
    · decide
    · decide
    · decide

theorem forecast_users (statement : Statement)
    (hfield : statement.field = .aiCache ∨ statement.field = .aiConversations ∨
      statement.field = .aiUsageLogs)
    (hdry : (idsOf .users company db).isEmpty = false →
      statement ∈ forecasts company (idsOf .users company db))
    (hreal : (idsOf .users company db).isEmpty = false →
      (statement, Effect.delete) ∈
        statements company (idsOf .users company db) (idsOf .articles company db)) :
    dryRun company db statement.field = (realRun company db).counts statement.field := by
  cases husers : (idsOf .users company db).isEmpty with
  | true =>
    obtain ⟨hnone, hnone'⟩ := no_users hfield husers
    exact hnone.trans hnone'.symm
  | false => exact forecast_eq statement .delete (hdry husers) (hreal husers)

/-- **The counts** of the dry run, but for five, are those of the real run. -/
theorem forecast_field (h : field ∉ unforecast) :
    dryRun company db field = (realRun company db).counts field := by
  cases hf : field with
  | connectors => exact absurd (hf ▸ by decide) h
  | notifications => exact absurd (hf ▸ by decide) h
  | syncRequests => exact absurd (hf ▸ by decide) h
  | connectorNotifications => exact absurd (hf ▸ by decide) h
  | outboxEvents => exact absurd (hf ▸ by decide) h
  | storageObjects =>
    have hreal : (realRun company db).counts .storageObjects =
        (storageKeys company db).length := by
      rw [realRun]
      dsimp only
      exact set_same _ _ _
    exact (set_same _ _ _).trans hreal.symm
  | articles =>
    exact forecast_eq
      (companyStatement .articles .articles company)
      .delete (by simp [forecasts]) (by simp [statements])
  | documentSources =>
    exact forecast_eq
      (ownedStatement .documentSources .documentSources .articleId .articles company)
      .delete (by simp [forecasts]) (by simp [statements])
  | pendingDrafts =>
    exact forecast_eq
      (companyStatement .pendingDrafts .pendingDrafts company)
      .delete (by simp [forecasts]) (by simp [statements])
  | externalDocuments =>
    exact forecast_eq
      (ownedStatement .externalDocuments .externalDocuments .connectorId .connectors company)
      .delete (by simp [forecasts]) (by simp [statements])
  | syncCursorsReset =>
    exact forecast_eq
      (ownedStatement .syncCursorsReset .syncCursors .connectorId .connectors company)
      (.update resetCursor) (by simp [forecasts]) (by simp [statements])
  | ingestionFingerprints =>
    exact forecast_eq
      (companyStatement .ingestionFingerprints .ingestionFingerprints company)
      .delete (by simp [forecasts]) (by simp [statements])
  | gaps =>
    exact forecast_eq
      (companyStatement .gaps .gaps company)
      .delete (by simp [forecasts]) (by simp [statements])
  | conflictRecords =>
    exact forecast_eq
      (companyStatement .conflictRecords .conflictRecords company)
      .delete (by simp [forecasts]) (by simp [statements])
  | indexReprocessJobs =>
    exact forecast_eq
      (companyStatement .indexReprocessJobs .indexReprocessJobs company)
      .delete (by simp [forecasts]) (by simp [statements])
  | aiCache =>
    exact forecast_users (userStatement .aiCache .aiCache .ownerUserId (idsOf .users company db))
      (Or.inl rfl) (by simp +contextual [forecasts]) (by simp +contextual [statements])
  | aiConversations =>
    exact forecast_users (userStatement .aiConversations .aiConversations .userId (idsOf .users company db))
      (Or.inr (Or.inl rfl)) (by simp +contextual [forecasts]) (by simp +contextual [statements])
  | aiUsageLogs =>
    exact forecast_users (userStatement .aiUsageLogs .aiUsageLogs .userId (idsOf .users company db))
      (Or.inr (Or.inr rfl)) (by simp +contextual [forecasts]) (by simp +contextual [statements])

/-! ### What the statements do to the rows -/

variable {run : Run} {steps : List (Statement × Effect)}

/-- An update of a purge leaves alone what a row is told by. -/
def Tame (own : Data → Prop) : Effect → Prop
  | .delete => True
  | .update f => ∀ data, own (f data) → own data

variable {own : Data → Prop}

theorem Run.step_intact {s : Statement × Effect} (htame : Tame own s.2) (run : Run) :
    Intact foreignKeys own run.db (run.step s).db := by
  rw [Run.step]
  cases heffect : s.2 with
  | delete => exact Intact.delete foreignKeys own _ run.db
  | update f =>
    rw [heffect] at htame
    refine Intact.map (fun row => ?_) (fun row => ?_) (fun row => ?_) (fun row hown => ?_) run.db
    · split
      · rfl
      · rfl
    · split
      · rfl
      · rfl
    · split
      · rfl
      · rfl
    · split at hown
      · exact htame row.data hown
      · exact hown

theorem run_intact (htame : ∀ s ∈ steps, Tame own s.2) (run : Run) :
    Intact foreignKeys own run.db (steps.foldl Run.step run).db := by
  induction steps generalizing run with
  | nil => exact Intact.refl run.db
  | cons s steps ih =>
    exact (Run.step_intact (htame s List.mem_cons_self) run).trans
      (ih (fun t ht => htame t (List.mem_cons_of_mem _ ht)) (run.step s))

/-- What a statement selects leads to a row of the tenant. -/
def Statement.Aimed (s : Statement) (own : Data → Prop) (db : List Row) : Prop :=
  ∀ db', Intact foreignKeys own db db' → ∀ row ∈ db', s.select db' row = true →
    Reaches foreignKeys own db row

variable {row : Row}

theorem Run.step_untouched {s : Statement × Effect} (haimed : s.1.Aimed own db)
    (hintact : Intact foreignKeys own db run.db) (hrow : row ∈ run.db)
    (hnot : ¬ Reaches foreignKeys own db row) : row ∈ (run.step s).db := by
  rw [Run.step]
  cases s.2 with
  | delete =>
    exact ForeignKeys.mem_delete_of_not_reaches hintact.stems (haimed run.db hintact) hrow hnot
  | update f =>
    refine List.mem_map.mpr ⟨row, hrow, if_neg fun hselect => hnot ?_⟩
    exact haimed run.db hintact row hrow hselect

/-- A row from which no foreign key leads to the tenant stays as it is. -/
theorem run_untouched (htame : ∀ s ∈ steps, Tame own s.2) (haimed : ∀ s ∈ steps, s.1.Aimed own db)
    (hintact : Intact foreignKeys own db run.db) (hrow : row ∈ run.db)
    (hnot : ¬ Reaches foreignKeys own db row) : row ∈ (steps.foldl Run.step run).db := by
  induction steps generalizing run with
  | nil => exact hrow
  | cons s steps ih =>
    refine ih (fun t ht => htame t (List.mem_cons_of_mem _ ht))
      (fun t ht => haimed t (List.mem_cons_of_mem _ ht))
      (hintact.trans (Run.step_intact (htame s List.mem_cons_self) run)) ?_
    exact Run.step_untouched (haimed s List.mem_cons_self) hintact hrow hnot

/-! ### The rows of a tenant -/

/-- The row says that it is the tenant's: by its company, or by the article it names. -/
def Own (company : String) (db : List Row) (data : Data) : Prop :=
  data.companyDomain = some company ∨
    ∃ id ∈ idsOf .articles company db, data.payloadArticleId = some id

/-- The row is the tenant's, or keys lead from it to one that is. -/
def Belongs (company : String) (db : List Row) (row : Row) : Prop :=
  Reaches foreignKeys (Own company db) db row

variable {table : Table}

theorem mem_idsOf_belongs {db' : List Row} {id : Id}
    (hintact : Intact foreignKeys (Own company db) db db') (hid : id ∈ idsOf table company db')
    {fk : ForeignKeys.Key Table Column} (hfk : fk ∈ foreignKeys) (htarget : fk.target = table)
    (htable : fk.table = row.table) (href : (fk.column, id) ∈ row.refs) :
    Belongs company db row := by
  obtain ⟨other, hother, hothertable, hcompany, hkey⟩ := mem_idsOf.mp hid
  refine Reaches.of_joins hfk (hintact.stems other hother) (ForeignKeys.joins_iff.mpr ?_)
    (Reaches.own (Or.inl hcompany))
  exact ⟨htable, htarget.trans hothertable.symm, hkey.symm ▸ href⟩

variable {column : Column}

theorem inIds_refs {ids : List Id} (h : inIds table column ids row = true) :
    ∃ id ∈ ids, (column, id) ∈ row.refs := by
  rw [inIds, Bool.and_eq_true] at h
  obtain ⟨id, hid, hmem⟩ := List.any_eq_true.mp h.2
  exact ⟨id, hid, List.contains_iff_mem.mp hmem⟩

theorem companyStatement_aimed (field : Field) (table : Table) :
    (companyStatement field table company).Aimed (Own company db) db := by
  intro db' _ row _ hselect
  have hcompany : ofCompany table company row = true := hselect
  rw [ofCompany, Bool.and_eq_true, beq_iff_eq, beq_iff_eq] at hcompany
  exact Reaches.own (Or.inl hcompany.2)

theorem userStatement_aimed (rule : Rule)
    (hfk : (⟨table, column, .users, rule⟩ : ForeignKeys.Key Table Column) ∈ foreignKeys) :
    (userStatement field table column (idsOf .users company db)).Aimed (Own company db) db := by
  intro db' _ row _ hselect
  obtain ⟨id, hid, href⟩ := inIds_refs hselect
  exact mem_idsOf_belongs (Intact.refl db) hid hfk rfl (inIds_table hselect).symm href

theorem ownedStatement_aimed {owner : Table} (rule : Rule)
    (hfk : (⟨table, column, owner, rule⟩ : ForeignKeys.Key Table Column) ∈ foreignKeys) :
    (ownedStatement field table column owner company).Aimed (Own company db) db := by
  intro db' hintact row _ hselect
  obtain ⟨id, hid, href⟩ := inIds_refs hselect
  exact mem_idsOf_belongs hintact hid hfk rfl (inIds_table hselect).symm href

theorem pendingEvents_iff : pendingEvents articleIds row = true ↔
    row.table = .outboxEvents ∧ row.data.status = "pending" ∧
      ∃ id ∈ articleIds, row.data.payloadArticleId = some id := by
  rw [pendingEvents, Bool.and_eq_true, Bool.and_eq_true, beq_iff_eq, beq_iff_eq, and_assoc]
  refine and_congr_right fun _ => and_congr_right fun _ => ?_
  cases row.data.payloadArticleId with
  | none => simp only [Option.any_none, reduceCtorEq, and_false, exists_const, Bool.false_eq_true]
  | some id =>
    rw [Option.any_some, List.contains_iff_mem]
    constructor
    · intro h
      exact ⟨id, h, rfl⟩
    · rintro ⟨id', h, heq⟩
      cases heq
      exact h

theorem pendingEvents_aimed :
    (⟨.outboxEvents, .outboxEvents, fun _ => pendingEvents (idsOf .articles company db)⟩ :
      Statement).Aimed (Own company db) db := by
  intro db' _ row _ hselect
  exact Reaches.own (Or.inr (pendingEvents_iff.mp hselect).2.2)

theorem statements_aimed :
    ∀ s ∈ statements company (idsOf .users company db) (idsOf .articles company db),
      s.1.Aimed (Own company db) db := by
  refine List.forall_mem_append.mpr ⟨List.forall_mem_append.mpr ⟨?_, ?_⟩, ?_⟩
  · split
    · exact List.forall_mem_nil _
    · simp only [List.forall_mem_cons]
      exact ⟨userStatement_aimed .cascade (by simp [foreignKeys]),
        userStatement_aimed .cascade (by simp [foreignKeys]),
        userStatement_aimed .setNull (by simp [foreignKeys]),
        userStatement_aimed .cascade (by simp [foreignKeys]), List.forall_mem_nil _⟩
  · simp only [List.forall_mem_cons]
    exact ⟨companyStatement_aimed _ _, companyStatement_aimed _ _, companyStatement_aimed _ _,
      companyStatement_aimed _ _, companyStatement_aimed _ _,
      ownedStatement_aimed .setNull (by simp [foreignKeys]),
      companyStatement_aimed _ _,
      ownedStatement_aimed .cascade (by simp [foreignKeys]),
      ownedStatement_aimed .cascade (by simp [foreignKeys]),
      ownedStatement_aimed .cascade (by simp [foreignKeys]),
      ownedStatement_aimed .cascade (by simp [foreignKeys]), List.forall_mem_nil _⟩
  · split
    · exact List.forall_mem_nil _
    · exact List.forall_mem_singleton.mpr pendingEvents_aimed

theorem statements_tame (own : Data → Prop) (h : ∀ data, own (resetCursor data) → own data) :
    ∀ s ∈ statements company userIds articleIds, Tame own s.2 := by
  refine List.forall_mem_append.mpr ⟨List.forall_mem_append.mpr ⟨?_, ?_⟩, ?_⟩
  · split
    · exact List.forall_mem_nil _
    · simp only [List.forall_mem_cons]
      exact ⟨trivial, trivial, trivial, trivial, List.forall_mem_nil _⟩
  · simp only [List.forall_mem_cons]
    exact ⟨trivial, trivial, trivial, trivial, trivial, trivial, trivial, trivial, h, trivial,
      trivial, List.forall_mem_nil _⟩
  · split
    · exact List.forall_mem_nil _
    · exact List.forall_mem_singleton.mpr trivial

theorem realRun_gone (own : Data → Prop) (htame : ∀ data, own (resetCursor data) → own data)
    {s : Statement}
    (hs : (s, Effect.delete) ∈ statements company (idsOf .users company db) (idsOf .articles company db))
    (hselect : ∀ db row, row.table = s.table → own row.data → s.select db row = true)
    (hrow : row ∈ (realRun company db).db) (htable : row.table = s.table) : ¬ own row.data := by
  intro hown
  obtain ⟨first, rest, heq⟩ := List.append_of_mem hs
  rw [realRun, heq, List.foldl_append] at hrow
  have htame' : ∀ t ∈ statements company (idsOf .users company db) (idsOf .articles company db),
      Tame own t.2 := statements_tame own htame
  rw [heq] at htame'
  have hintact := run_intact (fun t ht => htame' t (List.mem_append_right _
    (List.mem_cons_of_mem _ ht))) ((first.foldl Run.step ⟨db, fun _ => 0⟩).step (s, .delete))
  obtain ⟨mid, hmid, hs'⟩ := hintact.stems row hrow
  obtain ⟨old, hold, hnot, rfl⟩ := ForeignKeys.mem_delete.mp hmid
  exact hnot (ForeignKeys.Doomed.hit hold
    (hselect _ old (hs'.table.symm.trans htable) (hs'.own hown)))

/-- What a purge comes to. -/
structure Purged (company : String) (db : List Row) : Prop where
  forecast : ∀ field, field ∉ unforecast →
    dryRun company db field = (realRun company db).counts field
  others : ∀ row ∈ db, ¬ Belongs company db row → row ∈ (realRun company db).db
  /-- What a remaining row refers to by a foreign key is still there. -/
  referred : ∀ row ∈ (realRun company db).db, ∀ fk ∈ foreignKeys, ∀ other ∈ db,
    fk.joins row other = true →
      ∃ other' ∈ (realRun company db).db, other'.table = other.table ∧ other'.key = other.key
  drafts : ∀ row ∈ (realRun company db).db, row.table = .pendingDrafts →
    row.data.companyDomain ≠ some company
  events : ∀ row ∈ (realRun company db).db, row.table = .outboxEvents →
    ∀ id ∈ idsOf .articles company db, row.data.payloadArticleId = some id →
      row.data.status ≠ "pending"

/-- **A purge** of any tenant from any state. -/
theorem purge_forecast (company : String) (db : List Row) : Purged company db where
  forecast _ hfield := forecast_field hfield
  others _ hrow hnot :=
    run_untouched (statements_tame _ fun _ h => h) statements_aimed (Intact.refl db) hrow hnot
  referred := (run_intact (statements_tame (Own company db) fun _ h => h) _).referred
  drafts row hrow htable := by
    refine realRun_gone (fun data => data.companyDomain = some company) (fun _ h => h)
      (s := companyStatement .pendingDrafts .pendingDrafts company) (by simp [statements])
      (fun _ row htable hcompany => ?_) hrow htable
    change ofCompany .pendingDrafts company row = true
    rw [ofCompany, Bool.and_eq_true, beq_iff_eq, beq_iff_eq]
    exact ⟨htable, hcompany⟩
  events row hrow htable id hid hpayload hpending := by
    have harticles : (idsOf .articles company db).isEmpty = false := by
      cases h : idsOf .articles company db with
      | nil =>
        rw [h] at hid
        cases hid
      | cons a as => rfl
    refine realRun_gone (fun data => data.status = "pending" ∧
        ∃ id ∈ idsOf .articles company db, data.payloadArticleId = some id) (fun data h => ?_)
      (s := ⟨.outboxEvents, .outboxEvents, fun _ => pendingEvents (idsOf .articles company db)⟩)
      (by simp [statements, harticles]) (fun _ row htable hown => ?_) hrow htable
      ⟨hpending, id, hid, hpayload⟩
    · exact absurd h.1 (by decide : "reconcile" ≠ "pending")
    · exact pendingEvents_iff.mpr ⟨htable, hown⟩

/-! ### What a dry run does not say -/

/-- The dry run says what the real run counts, and nothing that is left names an article that is
removed. -/
def Foretold (company : String) (db : List Row) : Prop :=
  (∀ field, dryRun company db field = (realRun company db).counts field) ∧
    (∀ row ∈ db, ¬ Belongs company db row → row ∈ (realRun company db).db) ∧
    ∀ row ∈ (realRun company db).db, ∀ id ∈ idsOf .articles company db,
      row.data.payloadArticleId ≠ some id

def blank : Data := ⟨none, none, "", none, none, false, none, none⟩

def queued : List Row :=
  [⟨.connectors, 1, [], { blank with companyDomain := some "kb" }⟩,
    ⟨.syncRequests, 2, [(.connectorId, 1)], { blank with status := "queued" }⟩]

def dispatched : List Row :=
  [⟨.articles, 1, [], { blank with companyDomain := some "kb" }⟩,
    ⟨.outboxEvents, 2, [], { blank with status := "dispatched", payloadArticleId := some 1 }⟩]

theorem purge_not_foretold : ¬ Foretold "kb" queued ∧ ¬ Foretold "kb" dispatched := by
  refine ⟨fun h => ?_, fun h => ?_⟩
  · have hcount := h.1 .syncRequests
    revert hcount
    decide
  · exact h.2.2 ⟨.outboxEvents, 2, [], { blank with
      status := "dispatched", payloadArticleId := some 1 }⟩ (by decide) 1 (by decide) rfl

end QnscKb.Purge
