import Mathlib.Data.Prod.Lex
import QnscKb.Review.Agent
import QnscKb.Review.Separation

/-!
# Review — OneRule

The approval agent decides by one rule.
-/

namespace QnscKb.Agent

open QnscKb.Access (Id User)
open QnscKb.Review (Account DraftStatus Refusal Workflow WorkflowDraft)
open QnscKb.Ask (Json Python)
open QnscKb.Runs (bind_ok_iff)

variable (P : Python) (settings : Settings)

/-! ### The rule in charge -/

/-- What rules are ordered by. -/
def ApprovalRule.key (rule : ApprovalRule) : Int ×ₗ Id := toLex (rule.priority, rule.id)

/-- In scope, and no rule in scope comes before it. -/
structure Governs (rules : List ApprovalRule) (d : Draft) (connectorId : Option Id)
    (rule : ApprovalRule) : Prop where
  mem : rule ∈ rules
  applies : ruleApplies P settings rule d connectorId = true
  first : ∀ other ∈ rules, ruleApplies P settings other d connectorId = true →
    rule.key ≤ other.key

theorem ruleBefore_iff {a b : ApprovalRule} : ruleBefore a b = true ↔ a.key ≤ b.key := by
  rw [ApprovalRule.key, ApprovalRule.key, Prod.Lex.toLex_le_toLex]
  simp [ruleBefore]

instance : Std.Total fun a b : ApprovalRule => ruleBefore a b = true :=
  ⟨fun a b => by simpa only [ruleBefore_iff] using le_total a.key b.key⟩

instance : IsTrans ApprovalRule fun a b => ruleBefore a b = true :=
  ⟨fun a b c => by simpa only [ruleBefore_iff] using le_trans⟩

variable {P settings} {rules rules' : List ApprovalRule} {d : Draft} {connectorId : Option Id}
  {rule : ApprovalRule}

theorem Governs.unique (hids : (rules.map fun r => r.id).Nodup) {other : ApprovalRule}
    (h : Governs P settings rules d connectorId rule)
    (h' : Governs P settings rules d connectorId other) : rule = other := by
  have hkey : rule.key = other.key :=
    le_antisymm (h.first other h'.mem h'.applies) (h'.first rule h.mem h.applies)
  have hid : rule.id = other.id := congrArg (fun key => (ofLex key).2) hkey
  exact List.inj_on_of_nodup_map hids h.mem h'.mem hid

theorem Governs.perm (hperm : rules.Perm rules') (h : Governs P settings rules d connectorId rule) :
    Governs P settings rules' d connectorId rule where
  mem := hperm.mem_iff.mp h.mem
  applies := h.applies
  first other hother := h.first other (hperm.mem_iff.mpr hother)

theorem governs_of_selectRule (h : selectRule P settings rules d connectorId = some rule) :
    Governs P settings rules d connectorId rule := by
  rw [selectRule] at h
  generalize hsorted : List.insertionSort (fun a b => ruleBefore a b = true)
    (rules.filter fun r => ruleApplies P settings r d connectorId) = sorted at h
  cases sorted with
  | nil => cases h
  | cons first rest =>
    obtain rfl : first = rule := Option.some.inj h
    have hpair := List.pairwise_insertionSort (fun a b => ruleBefore a b = true)
      (rules.filter fun r => ruleApplies P settings r d connectorId)
    have hmem : ∀ r, r ∈ first :: rest ↔
        r ∈ rules ∧ ruleApplies P settings r d connectorId = true := fun r => by
      rw [← hsorted, List.mem_insertionSort, List.mem_filter]
    rw [hsorted] at hpair
    obtain ⟨hfirst, happlies⟩ := (hmem first).mp List.mem_cons_self
    refine ⟨hfirst, happlies, fun other hother happliesOther => ?_⟩
    rcases List.mem_cons.mp ((hmem other).mpr ⟨hother, happliesOther⟩) with rfl | hrest
    · exact le_refl _
    · exact ruleBefore_iff.mp (List.rel_of_pairwise_cons hpair hrest)

theorem selectRule_isSome (hmem : rule ∈ rules)
    (happlies : ruleApplies P settings rule d connectorId = true) :
    ∃ first, selectRule P settings rules d connectorId = some first := by
  refine Option.isSome_iff_exists.mp (List.isSome_head?.mpr fun hnil => ?_)
  have hin : rule ∈ rules.filter fun r => ruleApplies P settings r d connectorId :=
    List.mem_filter.mpr ⟨hmem, happlies⟩
  have hsorted := (List.mem_insertionSort fun a b => ruleBefore a b = true).mpr hin
  rw [hnil] at hsorted
  cases hsorted

/-- The rule consulted is the one in scope with the least priority and id. -/
theorem selectRule_iff (hids : (rules.map fun r => r.id).Nodup) :
    selectRule P settings rules d connectorId = some rule ↔
      Governs P settings rules d connectorId rule := by
  refine ⟨governs_of_selectRule, fun h => ?_⟩
  obtain ⟨first, hfirst⟩ := selectRule_isSome h.mem h.applies
  rw [hfirst, (governs_of_selectRule hfirst).unique hids h]

theorem selectRule_perm (hids : (rules.map fun r => r.id).Nodup) (hperm : rules.Perm rules') :
    selectRule P settings rules d connectorId = selectRule P settings rules' d connectorId := by
  refine Option.ext fun rule => ?_
  rw [selectRule_iff hids, selectRule_iff ((hperm.map _).nodup_iff.mp hids)]
  exact ⟨Governs.perm hperm, Governs.perm hperm.symm⟩

theorem selectRule_singleton (h : Governs P settings rules d connectorId rule) :
    selectRule P settings [rule] d connectorId = some rule := by
  have hids : ([rule].map fun r => r.id).Nodup := List.nodup_singleton _
  exact (selectRule_iff hids).mpr
    { mem := List.mem_singleton_self rule
      applies := h.applies
      first := fun other hother _ => by
        rw [List.mem_singleton.mp hother] }

/-! ### Verdicts -/

/-- The rule may carry out the action. -/
def ApprovalRule.Allows (rule : ApprovalRule) (action : Action) : Prop :=
  (action = .approve → rule.canApprove = true) ∧ (action = .reject → rule.canReject = true)

variable {model : Model}

theorem judged_allows {decision : Decision} {reason : Text}
    (h : (judged rule decision reason).acted = true) :
    (judged rule decision reason).ruleId = some rule.id ∧
      rule.Allows (judged rule decision reason).action := by
  cases decision with
  | approve =>
    dsimp only [judged] at h ⊢
    split_ifs at h ⊢ with hallowed
    · exact ⟨rfl, fun _ => hallowed, nofun⟩
    · cases h
  | reject =>
    dsimp only [judged] at h ⊢
    split_ifs at h ⊢ with hallowed
    · exact ⟨rfl, nofun, fun _ => hallowed⟩
    · cases h
  | unsure => cases h

theorem decideUnder_allows (h : (decideUnder P model d rule).acted = true) :
    (decideUnder P model d rule).ruleId = some rule.id ∧
      rule.Allows (decideUnder P model d rule).action := by
  rw [decideUnder] at h ⊢
  split_ifs at h ⊢ with hauthority hprovider
  · cases hreply : model.complete SYSTEM_PROMPT (prompt rule d) with
    | none =>
      rw [hreply] at h
      cases h
    | some reply =>
      rw [hreply] at h
      dsimp only at h ⊢
      cases hparse : parseDecision P model.loads reply with
      | none =>
        rw [hparse] at h
        cases h
      | some answer =>
        rw [hparse] at h
        exact judged_allows h
  · cases h
  · cases h

theorem decide_acted (h : (decide P settings model d rules connectorId).acted = true) :
    ∃ rule, selectRule P settings rules d connectorId = some rule ∧
      decide P settings model d rules connectorId = decideUnder P model d rule := by
  rw [decide] at h ⊢
  split_ifs at h ⊢ with hpreparing
  · cases h
  · cases hselect : selectRule P settings rules d connectorId with
    | none =>
      rw [hselect] at h
      cases h
    | some rule => exact ⟨rule, rfl, rfl⟩

theorem decide_singleton (hids : (rules.map fun r => r.id).Nodup)
    (h : Governs P settings rules d connectorId rule) :
    decide P settings model d rules connectorId =
      decide P settings model d [rule] connectorId := by
  rw [decide, decide, (selectRule_iff hids).mpr h, selectRule_singleton h]

theorem decide_perm (hids : (rules.map fun r => r.id).Nodup) (hperm : rules.Perm rules') :
    decide P settings model d rules connectorId = decide P settings model d rules' connectorId := by
  rw [decide, decide, selectRule_perm hids hperm]

/-! ### Acting -/

section Acting

variable {s s' : Store} {author : User} {publication : Option Refusal} {verdict : Verdict}

theorem checkLoaded_ok {row : WorkflowDraft} {user : User} {participle verb : String} {u : Unit}
    (h : checkLoaded row user participle verb = .ok u) : row.status = .pending := by
  rw [checkLoaded] at h
  split_ifs at h with hstatus
  simpa using hstatus

theorem approveDraft_ok (h : approveDraft s author d publication = .ok s') :
    ∃ row ∈ s.workflow.drafts, row.id = d.id ∧ d.status = .pending ∧
      s'.workflow = s.workflow.put { row with status := .approved } ∧
      s'.transitions.length = s.transitions.length + 1 := by
  rw [approveDraft] at h
  cases hload : s.workflow.load d.id author with
  | none =>
    rw [hload] at h
    cases h
  | some row =>
    rw [hload] at h
    obtain ⟨_, hcheck, h⟩ := bind_ok_iff.mp h
    cases publication with
    | some refusal => cases h
    | none =>
      obtain ⟨_, -, h⟩ := bind_ok_iff.mp h
      cases h
      have hid := List.find?_some hload
      refine ⟨row, Review.mem_of_load hload, ?_, checkLoaded_ok hcheck, rfl, List.length_append⟩
      simpa using (Bool.and_eq_true_iff.mp hid).1

theorem rejectDraft_ok {note : Text} (h : rejectDraft s author d note = .ok s') :
    ∃ row ∈ s.workflow.drafts, row.id = d.id ∧ d.status = .pending ∧
      s'.workflow = s.workflow.put { row with status := .rejected } ∧
      s'.transitions.length = s.transitions.length + 1 := by
  rw [rejectDraft] at h
  cases hload : s.workflow.load d.id author with
  | none =>
    rw [hload] at h
    cases h
  | some row =>
    rw [hload] at h
    obtain ⟨_, hcheck, h⟩ := bind_ok_iff.mp h
    obtain ⟨_, -, h⟩ := bind_ok_iff.mp h
    cases h
    have hid := List.find?_some hload
    refine ⟨row, Review.mem_of_load hload, ?_, checkLoaded_ok hcheck, rfl, List.length_append⟩
    simpa using (Bool.and_eq_true_iff.mp hid).1

theorem apply_done {account : Id → Option Account} {note : Text}
    (h : apply s account d rule verdict publication = .done note s') :
    ∃ row ∈ s.workflow.drafts, row.id = d.id ∧ d.status = .pending ∧
      (∃ status, s'.workflow = s.workflow.put { row with status := status }) ∧
      s'.transitions.length = s.transitions.length + 1 := by
  rw [apply] at h
  by_cases hready : (d.status != .pending || d.preparing) = true
  · rw [if_pos hready] at h
    cases h
  rw [if_neg hready] at h
  cases hauthorId : rule.createdBy with
  | none =>
    rw [hauthorId] at h
    cases h
  | some authorId =>
    rw [hauthorId] at h
    dsimp only at h
    cases hauthor : (account authorId).filter (·.active) with
    | none =>
      rw [hauthor] at h
      cases h
    | some author =>
      rw [hauthor] at h
      dsimp only at h
      generalize houtcome : (if verdict.action = .approve then
        approveDraft s author.toUser d publication
        else rejectDraft s author.toUser d _) = outcome at h
      cases outcome with
      | error refusal => cases h
      | ok after =>
        cases h
        split_ifs at houtcome
        · obtain ⟨row, hrow, hid, hpending, hput, hlogged⟩ := approveDraft_ok houtcome
          exact ⟨row, hrow, hid, hpending, ⟨_, hput⟩, hlogged⟩
        · obtain ⟨row, hrow, hid, hpending, hput, hlogged⟩ := rejectDraft_ok houtcome
          exact ⟨row, hrow, hid, hpending, ⟨_, hput⟩, hlogged⟩

end Acting

/-! ### Turns -/

def PendingIn (s : Store) (id : Id) : Prop :=
  ∃ row ∈ s.workflow.drafts, row.id = id ∧ row.status = .pending

/-- The tables still have the status the copy was read with. -/
def StatusKept (s : Store) (d : Draft) : Prop :=
  ∀ row ∈ s.workflow.drafts, row.id = d.id → row.status = d.status

/-- A turn carries its verdict out: the run is no dry one, the verdict acts, and `_apply` neither
leaves the draft nor raises. -/
def Acts (P : Python) (settings : Settings) (model : Model) (rules : List ApprovalRule)
    (dryRun : Bool) (turn : Turn) (d : Draft) (s : Store) : Prop :=
  dryRun = false ∧ (decide P settings model d rules turn.connectorId).acted = true ∧
    ∃ rule, (rules.find? fun rule =>
        some rule.id == (decide P settings model d rules turn.connectorId).ruleId) = some rule ∧
      ∃ note s', apply s turn.account d rule (decide P settings model d rules turn.connectorId)
        turn.publication = .done note s'

variable {dryRun : Bool} {turns : Nat → Turn}

/-- What a turn of the loop did. -/
structure Turned (P : Python) (settings : Settings) (model : Model) (rules : List ApprovalRule)
    (dryRun : Bool) (d : Draft) (turn : Turn) (s : Store) (m : Moment) : Prop where
  draft : m.draft = d
  verdict : m.verdict = decide P settings model d rules turn.connectorId
  before : m.before = turn.others s
  after : m.after = m.before ∨
    m.verdict.acted = true ∧ dryRun = false ∧
      ∃ row ∈ m.before.workflow.drafts, row.id = d.id ∧ d.status = .pending ∧
        ∃ status, m.after.workflow = m.before.workflow.put { row with status := status }
  changed : m.after ≠ m.before ↔ Acts P settings model rules dryRun turn d m.before

/-- What a turn that changes the tables went through. -/
theorem moment_inv (d : Draft) (turn : Turn) (s : Store) :
    Turned P settings model rules dryRun d turn s
      (moment P settings model rules dryRun d turn s) := by
  dsimp only [moment]
  by_cases hact : ((decide P settings model d rules turn.connectorId).acted && !dryRun) = true
  · obtain ⟨hacted, hdry⟩ := Bool.and_eq_true_iff.mp hact
    rw [if_pos hact]
    cases hfound : rules.find? fun rule =>
        some rule.id == (decide P settings model d rules turn.connectorId).ruleId with
    | none =>
      refine ⟨rfl, rfl, rfl, Or.inl rfl, iff_of_false (fun hne => hne rfl) ?_⟩
      rintro ⟨-, -, rule, hrule, -⟩
      rw [hfound] at hrule
      cases hrule
    | some rule =>
      dsimp only
      have hnot : ∀ outcome, apply (turn.others s) turn.account d rule
          (decide P settings model d rules turn.connectorId) turn.publication = outcome →
          (∀ note after, outcome ≠ .done note after) →
          ¬Acts P settings model rules dryRun turn d (turn.others s) := by
        rintro _ rfl hleft ⟨-, -, rule', hrule, note, after, hdone⟩
        obtain rfl : rule = rule' := Option.some.inj (hfound.symm.trans hrule)
        exact hleft note after hdone
      cases happly : apply (turn.others s) turn.account d rule
          (decide P settings model d rules turn.connectorId) turn.publication with
      | left detail =>
        exact ⟨rfl, rfl, rfl, Or.inl rfl, iff_of_false (fun hne => hne rfl)
          (hnot _ happly fun _ _ h => by cases h)⟩
      | raised refusal =>
        exact ⟨rfl, rfl, rfl, Or.inl rfl, iff_of_false (fun hne => hne rfl)
          (hnot _ happly fun _ _ h => by cases h)⟩
      | done note after =>
        have hdryRun : dryRun = false := by simpa using hdry
        obtain ⟨row, hrow, hid, hpending, hput, hlogged⟩ := apply_done happly
        refine ⟨rfl, rfl, rfl, Or.inr ⟨hacted, hdryRun, row, hrow, hid, hpending, hput⟩,
          iff_of_true (fun hsame => ?_) ⟨hdryRun, hacted, rule, hfound, note, after, happly⟩⟩
        have hnothing : after = turn.others s := hsame
        rw [hnothing] at hlogged
        omega
  · rw [if_neg hact]
    refine ⟨rfl, rfl, rfl, Or.inl rfl, iff_of_false (fun hne => hne rfl) ?_⟩
    rintro ⟨hdry, hacted, -⟩
    exact hact (by rw [hacted, hdry]; rfl)

variable {queue : List Draft} {s : Store}

theorem momentsFrom_inv {n k : Nat} {m : Moment}
    (hm : (momentsFrom P settings model rules dryRun turns n queue s)[k]? = some m) :
    ∃ d ∈ queue, ∃ s', Turned P settings model rules dryRun d (turns (n + k)) s' m := by
  induction queue generalizing n k s with
  | nil => cases hm
  | cons d queue ih =>
    cases k with
    | zero =>
      cases hm
      exact ⟨d, List.mem_cons_self, s, moment_inv d (turns n) s⟩
    | succ k =>
      rw [momentsFrom] at hm
      split_ifs at hm
      · obtain ⟨d', hd', s', hturned⟩ := ih hm
        rw [Nat.add_right_comm] at hturned
        exact ⟨d', List.mem_cons_of_mem _ hd', s', hturned⟩
      · cases hm

theorem record_counts {summary : Summary} (entry : Entry)
    (h : summary.approved + summary.rejected + summary.leftForReview = summary.evaluated) :
    (summary.record entry).approved + (summary.record entry).rejected +
      (summary.record entry).leftForReview = (summary.record entry).evaluated := by
  dsimp only [Summary.record]
  cases (if entry.applied = true then entry.decision else Action.abstain) <;> simp <;> omega

theorem foldl_record_counts (entries : List Entry) {summary : Summary}
    (h : summary.approved + summary.rejected + summary.leftForReview = summary.evaluated) :
    let total := entries.foldl Summary.record summary
    total.approved + total.rejected + total.leftForReview = total.evaluated ∧
      total.evaluated = summary.evaluated + entries.length := by
  induction entries generalizing summary with
  | nil => exact ⟨h, rfl⟩
  | cons entry entries ih =>
    obtain ⟨hsum, hlength⟩ := ih (record_counts entry h)
    have hone : (summary.record entry).evaluated = summary.evaluated + 1 := rfl
    refine ⟨hsum, hlength.trans ?_⟩
    rw [List.length_cons]
    omega

theorem momentsFrom_length {n : Nat}
    (h : ∀ m ∈ momentsFrom P settings model rules dryRun turns n queue s, m.entry.isSome = true) :
    (momentsFrom P settings model rules dryRun turns n queue s).length = queue.length := by
  induction queue generalizing n s with
  | nil => rfl
  | cons d queue ih =>
    have hfirst := h _ List.mem_cons_self
    have hrest := fun m hm => h m (List.mem_cons_of_mem _ hm)
    rw [momentsFrom, List.length_cons, List.length_cons]
    rw [if_pos hfirst] at hrest ⊢
    rw [ih hrest]

theorem mapM_entry {moments : List Moment} {entries : List Entry}
    (h : moments.mapM Moment.entry = some entries) :
    (∀ m ∈ moments, m.entry.isSome = true) ∧ entries.length = moments.length := by
  induction moments generalizing entries with
  | nil =>
    cases h
    exact ⟨List.forall_mem_nil _, rfl⟩
  | cons m moments ih =>
    rw [List.mapM_cons] at h
    obtain ⟨entry, hentry, h⟩ := Option.bind_eq_some_iff.mp h
    obtain ⟨rest, hrest, h⟩ := Option.bind_eq_some_iff.mp h
    cases h
    obtain ⟨hall, hlength⟩ := ih hrest
    refine ⟨List.forall_mem_cons.mpr ⟨by rw [hentry]; rfl, hall⟩, ?_⟩
    rw [List.length_cons, List.length_cons, hlength]

/-! ### The agent -/

/-- The agent decides by one rule, and accountably: the tables change only under the verdict of the
rule in charge, for a pending draft of its company, not in a dry run and not on abstention; and the
counts add up. -/
structure OneRule (P : Python) (settings : Settings) (model : Model) (table : RuleTable)
    (companyDomain : String) (dryRun : Bool) (r : Run) : Prop where
  alone : ∀ (rules : List ApprovalRule) (d : Draft) (connectorId : Option Id) (rule : ApprovalRule),
    (rules.map fun other => other.id).Nodup → Governs P settings rules d connectorId rule →
      decide P settings model d rules connectorId = decide P settings model d [rule] connectorId
  uncovered : ∀ (rules : List ApprovalRule) (d : Draft) (connectorId : Option Id),
    (∀ rule ∈ rules, ruleApplies P settings rule d connectorId = false) →
      decide P settings model d rules connectorId = decide P settings model d [] connectorId
  invariant : ∀ (rules rules' : List ApprovalRule) (d : Draft) (connectorId : Option Id),
    (rules.map fun other => other.id).Nodup → rules.Perm rules' →
      decide P settings model d rules connectorId = decide P settings model d rules' connectorId
  acts : ∀ m ∈ r.moments, m.after ≠ m.before → ∃ connectorId rule,
    Governs P settings (table.loaded companyDomain) m.draft connectorId rule ∧
      m.verdict = decideUnder P model m.draft rule ∧ rule.Allows m.verdict.action ∧
      rule.companyDomain = m.draft.companyDomain ∧ PendingIn m.before m.draft.id
  frame : ∀ m ∈ r.moments, dryRun = true ∨ m.verdict.acted = false → m.after = m.before
  counts : ∀ summary, r.summary = some summary →
    summary.approved + summary.rejected + summary.leftForReview = summary.evaluated ∧
      summary.evaluated = r.queue.length

/-- Every draft the run acts on still has the status the run read, when its verdict is carried
out. -/
def ActsFresh (P : Python) (settings : Settings) (model : Model) (rules : List ApprovalRule)
    (dryRun : Bool) (turns : Nat → Turn) (r : Run) : Prop :=
  ∀ n m, r.moments[n]? = some m →
    Acts P settings model rules dryRun (turns n) m.draft m.before → StatusKept m.before m.draft

theorem Turned.acts {turn : Turn} {m : Moment} (h : Turned P settings model rules dryRun d turn s m)
    (hne : m.after ≠ m.before) :
    (∃ rule, Governs P settings rules m.draft turn.connectorId rule ∧
      m.verdict = decideUnder P model m.draft rule ∧ rule.Allows m.verdict.action ∧
      rule.companyDomain = m.draft.companyDomain) ∧
      ∃ row ∈ m.before.workflow.drafts, row.id = m.draft.id ∧ m.draft.status = .pending := by
  obtain ⟨hacted, -, row, hrow, hid, hpending, -⟩ := h.after.resolve_left hne
  obtain rfl := h.draft
  refine ⟨?_, row, hrow, hid, hpending⟩
  rw [h.verdict] at hacted
  obtain ⟨rule, hselect, hunder⟩ := decide_acted hacted
  have hgoverns := governs_of_selectRule hselect
  have happlies := hgoverns.applies
  rw [hunder] at hacted
  rw [ruleApplies] at happlies
  simp only [Bool.and_eq_true, beq_iff_eq] at happlies
  refine ⟨rule, hgoverns, h.verdict.trans hunder, ?_, happlies.1.1.1.1.1.2⟩
  rw [h.verdict, hunder]
  exact (decideUnder_allows hacted).2

section Runs

variable (P settings model) (table : RuleTable) (companyDomain : String) (limit : Option Nat)
  (dryRun turns) (s : Store)

theorem run_cases :
    run P settings model table companyDomain limit dryRun turns s =
        ⟨[], [], some Summary.empty⟩ ∨
      ∃ size, let queue := loadQueue s companyDomain size
        let moments := momentsFrom P settings model (table.loaded companyDomain) dryRun turns 0 queue s
        run P settings model table companyDomain limit dryRun turns s =
          { queue
            moments
            summary := (moments.mapM Moment.entry).map fun entries =>
              entries.foldl Summary.record Summary.empty } := by
  by_cases hidle : settings.enabled = false ∨ table.loaded companyDomain = []
  · exact Or.inl (if_pos hidle)
  · exact Or.inr ⟨_, if_neg hidle⟩

theorem run_moments {n : Nat} {m : Moment}
    (hm : (run P settings model table companyDomain limit dryRun turns s).moments[n]? = some m) :
    ∃ s', Turned P settings model (table.loaded companyDomain) dryRun m.draft (turns n) s' m := by
  rcases run_cases P settings model dryRun turns table companyDomain limit s with
    hidle | ⟨size, hloop⟩
  · rw [hidle] at hm
    cases hm
  · rw [hloop] at hm
    obtain ⟨d, -, s', hturned⟩ := momentsFrom_inv hm
    rw [Nat.zero_add, ← hturned.draft] at hturned
    exact ⟨s', hturned⟩

theorem run_counts {summary : Summary}
    (h : (run P settings model table companyDomain limit dryRun turns s).summary = some summary) :
    summary.approved + summary.rejected + summary.leftForReview = summary.evaluated ∧
      summary.evaluated =
        (run P settings model table companyDomain limit dryRun turns s).queue.length := by
  rcases run_cases P settings model dryRun turns table companyDomain limit s with
    hidle | ⟨size, hloop⟩
  · rw [hidle] at h ⊢
    cases h
    exact ⟨rfl, rfl⟩
  · rw [hloop] at h ⊢
    obtain ⟨entries, hentries, rfl⟩ := Option.map_eq_some_iff.mp h
    obtain ⟨hsome, hlength⟩ := mapM_entry hentries
    have hzero : Summary.empty.approved + Summary.empty.rejected +
        Summary.empty.leftForReview = Summary.empty.evaluated := rfl
    obtain ⟨hsum, htotal⟩ := foldl_record_counts entries hzero
    refine ⟨hsum, htotal.trans ?_⟩
    rw [hlength, momentsFrom_length hsome]
    exact Nat.zero_add _

/-- **The approval agent.**  A run decides by the rule in charge and accounts for it if and only if
every draft it acts on has the status the run read it with: its checks of the status read the copy.
-/
theorem one_rule_iff :
    OneRule P settings model table companyDomain dryRun
        (run P settings model table companyDomain limit dryRun turns s) ↔
      ActsFresh P settings model (table.loaded companyDomain) dryRun turns
        (run P settings model table companyDomain limit dryRun turns s) := by
  refine ⟨fun h n m hm hacts row hrow hid => ?_, fun h => ?_⟩
  · obtain ⟨s', hturned⟩ :=
      run_moments P settings model dryRun turns table companyDomain limit s hm
    have hne := hturned.changed.mpr hacts
    obtain ⟨_, -, -, hpending⟩ := (hturned.acts hne).2
    obtain ⟨_, _, -, -, -, -, other, hother, hotherId, hotherPending⟩ :=
      h.acts m (List.mem_of_getElem? hm) hne
    -- Ids are a primary key: the pending row of the draft is the row at hand.
    have hsame : other = row :=
      List.inj_on_of_nodup_map m.before.workflow.ids hother hrow (hotherId.trans hid.symm)
    rw [← hsame, hotherPending, hpending]
  · exact
      { alone := fun rules d connectorId rule hids hgoverns => decide_singleton hids hgoverns
        uncovered := fun rules d connectorId hnone => by
          have hselect : selectRule P settings rules d connectorId = none := by
            cases hsome : selectRule P settings rules d connectorId with
            | none => rfl
            | some rule =>
              have hgoverns := governs_of_selectRule hsome
              exact absurd hgoverns.applies (by simp [hnone rule hgoverns.mem])
          rw [decide, hselect]
          rfl
        invariant := fun rules rules' d connectorId hids hperm => decide_perm hids hperm
        acts := fun m hm hne => by
          obtain ⟨n, hn⟩ := List.mem_iff_getElem?.mp hm
          obtain ⟨s', hturned⟩ :=
            run_moments P settings model dryRun turns table companyDomain limit s hn
          obtain ⟨⟨rule, hgoverns, hverdict, hallows, hcompany⟩, row, hrow, hid, hpending⟩ :=
            hturned.acts hne
          exact ⟨_, rule, hgoverns, hverdict, hallows, hcompany, row, hrow, hid,
            (h n m hn (hturned.changed.mp hne) row hrow hid).trans hpending⟩
        frame := fun m hm hidle => by
          obtain ⟨n, hn⟩ := List.mem_iff_getElem?.mp hm
          obtain ⟨s', hturned⟩ :=
            run_moments P settings model dryRun turns table companyDomain limit s hn
          refine hturned.after.resolve_right fun hact => ?_
          rcases hidle with hdry | hleft
          · exact absurd (hdry.symm.trans hact.2.1) nofun
          · exact absurd (hleft.symm.trans hact.1) nofun
        counts := fun summary hsummary =>
          run_counts P settings model dryRun turns table companyDomain limit s hsummary }

end Runs

/-! ### Undisturbed runs -/

/-- Where other sessions leave the statuses of the queue alone, every turn finds its draft's
status as it was read. -/
theorem momentsFrom_fresh {n : Nat} (hnodup : (queue.map fun d => d.id).Nodup)
    (hkept : ∀ d ∈ queue, StatusKept s d)
    (hothers : ∀ n s, ∀ d ∈ queue, StatusKept s d → StatusKept ((turns n).others s) d) :
    ∀ m ∈ momentsFrom P settings model rules dryRun turns n queue s,
      StatusKept m.before m.draft := by
  induction queue generalizing n s with
  | nil => exact List.forall_mem_nil _
  | cons d queue ih =>
    obtain ⟨hfirst, hrest⟩ := List.nodup_cons.mp hnodup
    have hturned : Turned P settings model rules dryRun d (turns n) s
        (moment P settings model rules dryRun d (turns n) s) := moment_inv d (turns n) s
    have hbefore : ∀ d' ∈ d :: queue,
        StatusKept (moment P settings model rules dryRun d (turns n) s).before d' :=
      fun d' hd' => by
        rw [hturned.before]
        exact hothers n s d' hd' (hkept d' hd')
    refine List.forall_mem_cons.mpr ⟨?_, ?_⟩
    · rw [hturned.draft]
      exact hbefore d List.mem_cons_self
    · split_ifs
      · refine ih hrest (fun d' hd' row hrow hid => ?_) fun n s d' hd' =>
        hothers n s d' (List.mem_cons_of_mem _ hd')
        have hkeeps := hbefore d' (List.mem_cons_of_mem _ hd')
        rcases hturned.after with hsame | ⟨-, -, old, hold, holdId, -, status, hput⟩
        · rw [hsame] at hrow
          exact hkeeps row hrow hid
        · rw [hput] at hrow
          rcases Review.mem_put hrow with rfl | hrow
          · -- Only the draft of this turn has the row that changed.
            exact absurd (List.mem_map.mpr ⟨d', hd', hid.symm.trans holdId⟩) hfirst
          · exact hkeeps row hrow hid
      · exact List.forall_mem_nil _

theorem loadQueue_ids (s : Store) (companyDomain : String) (size : Nat) :
    ((loadQueue s companyDomain size).map fun d => d.id).Nodup := by
  have hids := ((s.workflow.drafts.filter_sublist (p := fun d =>
    d.companyDomain == companyDomain && d.status == .pending && !d.preparing)).map
      fun d => d.id).nodup s.workflow.ids
  have hsorted := ((List.perm_insertionSort (fun a b : WorkflowDraft => a.createdAt ≤ b.createdAt)
    _).map fun d => d.id).nodup_iff.mpr hids
  rw [loadQueue, List.map_map]
  exact ((List.take_sublist size _).map _).nodup hsorted

theorem loadQueue_kept {companyDomain : String} {size : Nat} {d : Draft}
    (hd : d ∈ loadQueue s companyDomain size) : StatusKept s d := by
  intro row hrow hid
  obtain ⟨stored, hstored, rfl⟩ := List.mem_map.mp hd
  have hin := (List.mem_insertionSort _).mp (List.mem_of_mem_take hstored)
  rw [List.inj_on_of_nodup_map s.workflow.ids hrow (List.mem_filter.mp hin).1 hid]

theorem quiet_run_acts_fresh (table : RuleTable) (companyDomain : String) (limit : Option Nat)
    (s : Store)
    (hquiet : ∀ n s', ∀ d ∈
      (run P settings model table companyDomain limit dryRun turns s).queue,
        StatusKept s' d → StatusKept ((turns n).others s') d) :
    ActsFresh P settings model (table.loaded companyDomain) dryRun turns
      (run P settings model table companyDomain limit dryRun turns s) := by
  intro n m hn _
  have hm := List.mem_of_getElem? hn
  rcases run_cases P settings model dryRun turns table companyDomain limit s with
    hidle | ⟨size, hloop⟩
  · rw [hidle] at hm
    cases hm
  · rw [hloop] at hm hquiet
    exact momentsFrom_fresh (loadQueue_ids s companyDomain size) (fun d hd => loadQueue_kept hd)
      hquiet m hm

/-! ### A draft rejected in between -/

def admin : Account where
  id := 9
  companyDomain := "qnsc.vn"
  dept := none
  role := "Admin"
  departments := []
  departmentOwnerships := []
  roles := []
  active := true

def queued : WorkflowDraft := { Review.submission with status := .pending }

def desk : Store where
  workflow := ⟨[admin], [], [queued], List.nodup_singleton 7⟩
  details _ := ⟨some "policy.docx".toList, none, none, [], [], "policy.docx".toList⟩
  articles := []
  transitions := []

def policyRule : ApprovalRule where
  id := 3
  companyDomain := "qnsc.vn"
  name := "Policies".toList
  active := true
  priority := 100
  connectorId := none
  dept := none
  fileExtensions := []
  maxSimilarityScore := none
  riskTiers := []
  instruction := "Approve policies.".toList
  canApprove := true
  canReject := false
  createdBy := some 9
  version := 1

def policyRules : RuleTable := ⟨[policyRule], List.nodup_singleton 3⟩

def approving : Model where
  configured := true
  complete _ _ := some "\x7b\"decision\": \"approve\"\x7d".toList
  loads _ := some (.object [("decision", .text "approve".toList)])

/-- While the model is asked, a reviewer rejects the draft. -/
def rejectedMeanwhile (_ : Nat) : Turn where
  connectorId := none
  others s := { s with workflow := s.workflow.put { queued with status := .rejected } }
  account id := if id = 9 then some admin else none
  publication := none
  rolledBack := false

def busyDesk : Store :=
  { desk with workflow := ⟨[admin], [], [queued, { queued with id := 8 }], by decide⟩ }

def alone (n : Nat) : Turn := { rejectedMeanwhile n with others := id }

def quietRun : Run :=
  run Ask.asciiPython ⟨true, 25, []⟩ approving policyRules "qnsc.vn" none false alone busyDesk

theorem quiet_run_desk :
    ActsFresh Ask.asciiPython ⟨true, 25, []⟩ approving (policyRules.loaded "qnsc.vn") false alone
        quietRun ∧
      quietRun.moments.map (fun m => m.after.articles.length) = [1, 2] :=
  ⟨quiet_run_acts_fresh policyRules "qnsc.vn" none busyDesk fun _ _ _ _ hkept => hkept,
    by decide +kernel⟩

def staleRun : Run :=
  run Ask.asciiPython ⟨true, 25, []⟩ approving policyRules "qnsc.vn" none false rejectedMeanwhile desk

/-- The agent publishes the draft that was rejected. -/
theorem rejected_draft_published :
    ¬ OneRule Ask.asciiPython ⟨true, 25, []⟩ approving policyRules "qnsc.vn" false staleRun := by
  intro h
  have hone : staleRun.moments.length = 1 := by decide +kernel
  obtain ⟨m, hmoments⟩ := List.length_eq_one_iff.mp hone
  have harticles : staleRun.moments.map (fun m => (m.before.articles.length,
      m.after.articles.length)) = [(0, 1)] := by decide +kernel
  have hstatuses : staleRun.moments.map (fun m => m.before.workflow.drafts.map fun d => d.status) =
      [[.rejected]] := by decide +kernel
  rw [hmoments] at harticles hstatuses
  obtain ⟨hbefore, hafter⟩ := Prod.mk.inj (List.singleton_inj.mp harticles)
  have hne : m.after ≠ m.before := fun heq => by
    rw [heq, hbefore] at hafter
    cases hafter
  obtain ⟨_, _, -, -, -, -, row, hrow, -, hpending⟩ := h.acts m (by simp [hmoments]) hne
  have hin : row.status ∈ [DraftStatus.rejected] := by
    rw [← List.singleton_inj.mp hstatuses]
    exact List.mem_map_of_mem hrow
  rw [hpending] at hin
  exact absurd hin (by decide)

end QnscKb.Agent
