import QnscKb.Access.Agreement
import QnscKb.History.Model

/-!
# History — Versions

The version rows of an article are numbered without gap, and the newest is meant to say what the
article says.  Each operation decides on its own whether to write one.
-/

namespace QnscKb.History

open Access Runs

/-! ### What a version says -/

/-- A snapshot and an article agree on every field the snapshot records. -/
structure Agrees (s : Snapshot) (a : Article) : Prop where
  title : ∀ v ∈ s.title, v = a.title
  bodyMd : ∀ v ∈ s.bodyMd, v = a.bodyMd
  dept : ∀ v ∈ s.dept, v = a.dept
  departmentIds : ∀ v ∈ s.departmentIds, ∀ i, i ∈ v ↔ i ∈ a.departments.map (·.id)
  domain : ∀ v ∈ s.domain, v = a.domain
  type : ∀ v ∈ s.type, v = a.type
  sensitivity : ∀ v ∈ s.sensitivity, v = a.sensitivity
  visibility : ∀ v ∈ s.visibility, v = a.visibility
  explicitUserIds : ∀ v ∈ s.explicitUserIds, ∀ i, i ∈ v ↔
    ∃ row ∈ a.userPermissions, row.userId = i ∧ row.effect = .allow
  deniedUserIds : ∀ v ∈ s.deniedUserIds, ∀ i, i ∈ v ↔
    ∃ row ∈ a.userPermissions, row.userId = i ∧ row.effect = .deny
  language : ∀ v ∈ s.language, v = a.language
  externalId : ∀ v ∈ s.externalId, v = a.externalId
  tags : ∀ v ∈ s.tags, ∀ t, t ∈ v ↔ t ∈ a.tags

/-- The fields a restore copies are the same in two articles. -/
structure SameCopied (a b : Article) : Prop where
  title : a.title = b.title
  bodyMd : a.bodyMd = b.bodyMd
  dept : a.dept = b.dept
  domain : a.domain = b.domain
  type : a.type = b.type
  sensitivity : a.sensitivity = b.sensitivity
  language : a.language = b.language
  tags : ∀ t, t ∈ a.tags ↔ t ∈ b.tags

/-- The history of an article is faithful: version rows `1` to the article's own, and copying the
newest back changes nothing. -/
structure Faithful (r : Record) : Prop where
  numbered : r.versions.map ArticleVersion.version = List.range' 1 r.article.version
  newest : ∃ row, r.versions.getLast? = some row ∧ row.version = r.article.version ∧
    Agrees row.snapshot r.article ∧ SameCopied (row.snapshot.copyTo r.article) r.article

theorem getD_of_agrees {α : Type} {v : Option α} {x : α} (h : ∀ y ∈ v, y = x) : v.getD x = x := by
  cases v with
  | none => rfl
  | some y => exact h y rfl

variable {s : Snapshot} {a : Article}

theorem SameCopied.of_agrees (h : Agrees s a) : SameCopied (s.copyTo a) a := by
  refine ⟨getD_of_agrees h.title, getD_of_agrees h.bodyMd, getD_of_agrees h.dept,
    getD_of_agrees h.domain, getD_of_agrees h.type, getD_of_agrees h.sensitivity,
    getD_of_agrees h.language, fun t => ?_⟩
  cases htags : s.tags with
  | none => simp [Snapshot.copyTo, htags]
  | some v => simpa [Snapshot.copyTo, htags] using h.tags v htags t

theorem eq_of_mem_some {α : Type} {x : α} : ∀ v ∈ some x, v = x := by
  intro v hv
  exact (Option.mem_some_iff.mp hv).symm

theorem agrees_snapshot (a : Article) : Agrees a.snapshot a where
  title := eq_of_mem_some
  bodyMd := eq_of_mem_some
  dept := eq_of_mem_some
  departmentIds := nofun
  domain := eq_of_mem_some
  type := eq_of_mem_some
  sensitivity := eq_of_mem_some
  visibility := nofun
  explicitUserIds := nofun
  deniedUserIds := nofun
  language := eq_of_mem_some
  externalId := nofun
  tags := fun v hv t => by rw [eq_of_mem_some v hv]

variable {r : Record}

theorem Faithful.append
    (h : r.versions.map ArticleVersion.version = List.range' 1 r.article.version)
    (hversion : a.version = r.article.version + 1) (hagrees : Agrees s a) :
    Faithful ⟨a, r.versions ++ [⟨a.version, s⟩]⟩ := by
  refine ⟨?_, ⟨a.version, s⟩, List.getLast?_concat, rfl, hagrees, SameCopied.of_agrees hagrees⟩
  show (r.versions ++ ([⟨a.version, s⟩] : List ArticleVersion)).map ArticleVersion.version =
    List.range' 1 a.version
  rw [List.map_append, h, hversion, List.range'_concat, Nat.one_mul, Nat.add_comm 1]
  rfl

theorem Faithful.first (hversion : a.version = 1) (hagrees : Agrees s a) :
    Faithful ⟨a, [⟨1, s⟩]⟩ := by
  refine ⟨?_, ⟨1, s⟩, rfl, hversion.symm, hagrees, SameCopied.of_agrees hagrees⟩
  show [1] = List.range' 1 a.version
  rw [hversion]
  rfl

/-! ### Updates without a version -/

def sameTags (xs ys : List String) : Bool :=
  (xs.all fun t => ys.contains t) && ys.all fun t => xs.contains t

def Record.recordsAudience (r : Record) : Bool :=
  r.versions.getLast?.any fun row => row.snapshot.departmentIds.isSome

/-- An update that writes no version changes nothing the newest version records. -/
def keepsRecorded (d : Directory) (r : Record) (req : UpdateRequest) : Bool :=
  req.newSensitivity r.article == r.article.sensitivity &&
    sameTags (req.tags.getD r.article.tags) r.article.tags &&
    (!r.recordsAudience ||
      match proposedAudiences d r.article req with
      | .ok audiences => sameDepartments r.article.departments audiences
      | .error _ => true)

theorem sameTags_iff {xs ys : List String} :
    sameTags xs ys = true ↔ ∀ t, t ∈ xs ↔ t ∈ ys := by
  simp only [sameTags, Bool.and_eq_true, List.all_eq_true, List.contains_iff_mem]
  exact ⟨fun h t => ⟨h.1 t, h.2 t⟩, fun h => ⟨fun t => (h t).mp, fun t => (h t).mpr⟩⟩

variable {req : UpdateRequest}

theorem fields_of_not_contentChanged (h : contentChanged a req = false) :
    req.language.getD a.language = a.language ∧ req.title.getD a.title = a.title ∧
      req.bodyMd.getD a.bodyMd = a.bodyMd ∧ req.dept.getD a.dept = a.dept ∧
      req.domain.getD a.domain = a.domain ∧ req.type.getD a.type = a.type := by
  simpa [contentChanged, and_assoc] using h

variable {d : Directory}

theorem Agrees.update {audiences : List Department} (h : Agrees s r.article)
    (hcontent : contentChanged r.article req = false)
    (haudiences : proposedAudiences d r.article req = .ok audiences)
    (hrecords : s.departmentIds.isSome = true → r.recordsAudience = true)
    (hkeeps : keepsRecorded d r req = true) :
    Agrees s (updatedArticle r.article req audiences) := by
  obtain ⟨hlanguage, htitle, hbody, hdept, hdomain, htype⟩ :=
    fields_of_not_contentChanged hcontent
  simp only [keepsRecorded, haudiences, Bool.and_eq_true, beq_iff_eq, Bool.or_eq_true,
    Bool.not_eq_true', sameTags_iff] at hkeeps
  obtain ⟨⟨hsensitivity, htags⟩, haudience⟩ := hkeeps
  constructor
  · exact fun v hv => (h.title v hv).trans htitle.symm
  · exact fun v hv => (h.bodyMd v hv).trans hbody.symm
  · exact fun v hv => (h.dept v hv).trans hdept.symm
  · intro v hv
    have hsame : sameDepartments r.article.departments audiences = true := by
      rcases haudience with hnone | hsame
      · rw [hrecords (Option.isSome_iff_exists.mpr ⟨v, hv⟩)] at hnone
        cases hnone
      · exact hsame
    simp only [updatedArticle, hsame]
    exact h.departmentIds v hv
  · exact fun v hv => (h.domain v hv).trans hdomain.symm
  · exact fun v hv => (h.type v hv).trans htype.symm
  · exact fun v hv => (h.sensitivity v hv).trans hsensitivity.symm
  · exact h.visibility
  · exact h.explicitUserIds
  · exact h.deniedUserIds
  · exact fun v hv => (h.language v hv).trans hlanguage.symm
  · exact h.externalId
  · exact fun v hv t => (h.tags v hv t).trans (htags t).symm

/-! ### The operations -/

variable {u : User} {out : Record × Effects}

theorem Faithful.create {id : Id} {req : CreateRequest} (h : createArticle d u id req = .ok out) :
    Faithful out.1 := by
  rw [createArticle] at h
  split at h
  · cases h
  · dsimp only at h
    split at h
    · cases h
    · split at h
      · cases h
      · cases h
      · split at h
        · cases h
        · cases h
          exact Faithful.first rfl { agrees_snapshot _ with }

theorem checkUpdate_ok {audiences : List Department} (h : checkUpdate d u a req = .ok audiences) :
    proposedAudiences d a req = .ok audiences := by
  rw [checkUpdate] at h
  iterate 4
    split at h
    · cases h
  split at h
  · cases h
  · next found hfound =>
    split at h
    · cases h
    · split at h
      · cases h
      · cases h
        exact hfound

theorem Faithful.update (h : Faithful r) (hop : updateArticle d u r req = .ok out)
    (hc : contentChanged r.article req = true ∨ keepsRecorded d r req = true) : Faithful out.1 := by
  rw [updateArticle] at hop
  split at hop
  · cases hop
  · next audiences hcheck =>
    cases hop
    cases hcontent : contentChanged r.article req with
    | true =>
      have hversion : (updatedArticle r.article req audiences).version =
          r.article.version + 1 := by
        simp [updatedArticle, hcontent]
      exact Faithful.append h.numbered hversion (agrees_snapshot _)
    | false =>
      have hkeeps : keepsRecorded d r req = true := by
        rcases hc with hc | hc
        · rw [hcontent] at hc
          cases hc
        · exact hc
      have hversion : (updatedArticle r.article req audiences).version = r.article.version := by
        simp [updatedArticle, hcontent]
      obtain ⟨row, hlast, hnumber, hagrees, -⟩ := h.newest
      have hrecords : row.snapshot.departmentIds.isSome = true → r.recordsAudience = true := by
        intro hsome
        rw [Record.recordsAudience, hlast]
        exact hsome
      have hagrees' := hagrees.update hcontent (checkUpdate_ok hcheck) hrecords hkeeps
      refine ⟨?_, row, ?_, hnumber.trans hversion.symm, hagrees', .of_agrees hagrees'⟩
      · simpa [hversion] using h.numbered
      · simpa using hlast

theorem Faithful.restore {number : Nat} (h : Faithful r)
    (hop : restoreVersion d u r number = .ok out) : Faithful out.1 := by
  rw [restoreVersion] at hop
  split at hop
  · cases hop
  · cases hop
    exact Faithful.append h.numbered rfl { agrees_snapshot _ with }

/-- The users an approval records are the users with a row. -/
def recordsRows (r : Record) (p : Approval) : Bool :=
  r.article.userPermissions.all fun item =>
    !managed item ||
      match item.effect with
      | .allow => p.explicitUserIds.contains item.userId
      | .deny => p.deniedUserIds.contains item.userId

variable {p : Approval}

theorem agrees_approval (hdepartments : a.departments = p.departments)
    (hexplicit : ∀ i, i ∈ p.explicitUserIds ↔ ∃ row ∈ a.userPermissions, row.userId = i ∧
        row.effect = .allow)
    (hdenied : ∀ i, i ∈ p.deniedUserIds ↔ ∃ row ∈ a.userPermissions, row.userId = i ∧
        row.effect = .deny) :
    Agrees (p.snapshot a) a :=
  { agrees_snapshot a with
    departmentIds := fun v hv i => by rw [eq_of_mem_some v hv, hdepartments]
    visibility := eq_of_mem_some
    explicitUserIds := fun v hv i => by rw [eq_of_mem_some v hv, hexplicit]
    deniedUserIds := fun v hv i => by rw [eq_of_mem_some v hv, hdenied]
    externalId := eq_of_mem_some }

theorem Faithful.approveNew {id : Id} (h : History.approveNew u id p = .ok out) :
    Faithful out.1 := by
  rw [History.approveNew] at h
  split at h
  · cases h
  · cases h
    refine Faithful.first rfl (agrees_approval rfl (fun i => ⟨fun hi => ?_, ?_⟩)
      fun i => ⟨fun hi => ?_, ?_⟩)
    · exact ⟨p.allowRow i, List.mem_append_left _ (List.mem_map_of_mem hi), rfl, rfl⟩
    · rintro ⟨row, hrow, rfl, heffect⟩
      rcases List.mem_append.mp hrow with hrow | hrow
      · obtain ⟨j, hj, rfl⟩ := List.mem_map.mp hrow
        exact hj
      · obtain ⟨j, -, rfl⟩ := List.mem_map.mp hrow
        cases heffect
    · exact ⟨denyRow i, List.mem_append_right _ (List.mem_map_of_mem hi), rfl, rfl⟩
    · rintro ⟨row, hrow, rfl, heffect⟩
      rcases List.mem_append.mp hrow with hrow | hrow
      · obtain ⟨j, -, rfl⟩ := List.mem_map.mp hrow
        cases heffect
      · obtain ⟨j, hj, rfl⟩ := List.mem_map.mp hrow
        exact hj

theorem mem_overwrittenPermissions {row : ArticleUserPermission} :
    row ∈ p.overwrittenPermissions a ↔
      (row ∈ a.userPermissions ∧ managed row = true) ∨
        (∃ i ∈ p.externalSourceUserIds,
          (∀ item ∈ a.userPermissions, managed item = true → item.effect = .allow →
            item.userId ≠ i) ∧ row = ⟨i, .allow, p.connectorSource⟩) ∨
        (∃ i ∈ p.explicitUserIds, i ∉ p.externalSourceUserIds ∧ row = ⟨i, .allow, none⟩) ∨
        ∃ i ∈ p.deniedUserIds, row = denyRow i := by
  have hfree (i : Id) : (!(((a.userPermissions.filter managed).filter fun item =>
      item.effect == .allow).map (·.userId)).contains i) = true ↔
        ∀ item ∈ a.userPermissions, managed item = true → item.effect = .allow →
          item.userId ≠ i := by
    simp only [Bool.not_eq_true', ← Bool.not_eq_true, List.contains_iff_mem, List.mem_map,
      List.mem_filter, beq_iff_eq, not_exists, not_and, and_imp]
  simp only [Approval.overwrittenPermissions, List.mem_append, List.mem_map, List.mem_filter,
    hfree, or_assoc, and_assoc, Bool.not_eq_true', ← Bool.not_eq_true, List.contains_iff_mem,
    eq_comm (a := row)]

theorem allow_overwritten (hrows : recordsRows r p = true) (i : Id) :
    i ∈ p.explicitUserIds ↔ ∃ row ∈ p.overwrittenPermissions r.article,
      row.userId = i ∧ row.effect = .allow := by
  constructor
  · intro hi
    by_cases hexternal : i ∈ p.externalSourceUserIds
    · by_cases hfree : ∀ item ∈ r.article.userPermissions, managed item = true →
          item.effect = .allow → item.userId ≠ i
      · exact ⟨_, mem_overwrittenPermissions.mpr (Or.inr (Or.inl ⟨i, hexternal, hfree, rfl⟩)),
          rfl, rfl⟩
      · push Not at hfree
        obtain ⟨item, hmem, hmanaged, hallow, huser⟩ := hfree
        exact ⟨item, mem_overwrittenPermissions.mpr (Or.inl ⟨hmem, hmanaged⟩), huser, hallow⟩
    · exact ⟨_, mem_overwrittenPermissions.mpr
        (Or.inr (Or.inr (Or.inl ⟨i, hi, hexternal, rfl⟩))), rfl, rfl⟩
  · rintro ⟨row, hrow, rfl, heffect⟩
    rcases mem_overwrittenPermissions.mp hrow with
      ⟨hmem, hmanaged⟩ | ⟨i, hi, -, rfl⟩ | ⟨i, hi, -, rfl⟩ | ⟨i, -, rfl⟩
    · have hrecorded := List.all_eq_true.mp hrows row hmem
      simpa [hmanaged, heffect] using hrecorded
    · exact p.mapped i hi
    · exact hi
    · cases heffect

theorem deny_overwritten (hrows : recordsRows r p = true) (i : Id) :
    i ∈ p.deniedUserIds ↔ ∃ row ∈ p.overwrittenPermissions r.article,
      row.userId = i ∧ row.effect = .deny := by
  constructor
  · intro hi
    exact ⟨_, mem_overwrittenPermissions.mpr (Or.inr (Or.inr (Or.inr ⟨i, hi, rfl⟩))), rfl, rfl⟩
  · rintro ⟨row, hrow, rfl, heffect⟩
    rcases mem_overwrittenPermissions.mp hrow with
      ⟨hmem, hmanaged⟩ | ⟨i, -, -, rfl⟩ | ⟨i, -, -, rfl⟩ | ⟨i, hi, rfl⟩
    · have hrecorded := List.all_eq_true.mp hrows row hmem
      simpa [hmanaged, heffect] using hrecorded
    · cases heffect
    · cases heffect
    · exact hi

theorem Faithful.approveUpdate (h : Faithful r) (hop : History.approveUpdate d u r p = .ok out)
    (hrows : recordsRows r p = true) : Faithful out.1 := by
  rw [History.approveUpdate] at hop
  split at hop
  · cases hop
  · cases hop
    exact Faithful.append h.numbered rfl
      (agrees_approval rfl (allow_overwritten hrows) (deny_overwritten hrows))

/-! ### Whole runs -/

/-- An operation that records what it changes. -/
def versioned (d : Directory) : Option Record → Action → Bool
  | some r, .update _ req => contentChanged r.article req || keepsRecorded d r req
  | some r, .approveUpdate _ p => recordsRows r p
  | _, _ => true

def Versioned (d : Directory) (s : Option Record) (a : Action) : Prop := versioned d s a = true

instance (d : Directory) (s : Option Record) (a : Action) : Decidable (Versioned d s a) :=
  inferInstanceAs (Decidable (_ = true))

theorem ok_of_committed {α : Type} {x : Except Failure (Record × α)} {out : Record × α}
    (h : Except.committed x = some out) : x = .ok out := by
  cases x with
  | error e => cases h
  | ok y =>
    cases h
    rfl

theorem Faithful.perform {s : Option Record} {a : Action} (h : ∀ r ∈ s, Faithful r)
    (hc : Versioned d s a) (hop : perform d s a = some out) : Faithful out.1 := by
  cases s with
  | none =>
    cases a with
    | create u id req =>
      exact Faithful.create (ok_of_committed hop)
    | approveNew u id p => exact Faithful.approveNew (ok_of_committed hop)
    | update | restore | approveUpdate => cases hop
  | some r =>
    have hr := h r rfl
    cases a with
    | create | approveNew => cases hop
    | update u req => exact hr.update (ok_of_committed hop) (Bool.or_eq_true_iff.mp hc)
    | restore u number => exact hr.restore (ok_of_committed hop)
    | approveUpdate u p => exact hr.approveUpdate (ok_of_committed hop) hc

/-- **A faithful history**, after every run of operations that record what they change. -/
theorem faithful_of_versioned {d : Directory} {tr : List (Option Record × Action)}
    {s : Option Record} (run : Run Initial (Step d) tr s) (hc : Throughout (Versioned d) tr) :
    ∀ r ∈ s, Faithful r := by
  refine run.invariant (I := fun s => ∀ r ∈ s, Faithful r) ?_ ?_ hc
  · rintro s rfl r hr
    cases hr
  · intro s a t hs hversioned hstep r hr
    obtain ⟨b, hb⟩ := hstep
    obtain ⟨out, hout, heq⟩ := Option.map_eq_some_iff.mp hb
    cases heq
    cases hr
    exact Faithful.perform hs hversioned hout

/-! ### Runs of one article -/

def directory : Directory := ⟨[engineering], fun a b => a == b⟩

def author : User where
  id := 100
  companyDomain := "qnsc.vn"
  dept := none
  role := "Staff"
  departments := [engineering]
  departmentOwnerships := []
  roles := []

def newPolicy : CreateRequest where
  title := "Operations policy"
  bodyMd := "Original body"
  dept := "Engineering"
  domain := "Operations"
  type := "POLICY"
  sensitivity := "internal"
  tags := ["operations"]
  language := "en"
  audienceDepartmentIds := none
  nextReview := none
  externalId := none
  originalBodyMd := none
  publishWithoutReview := false

def noChange : UpdateRequest where
  title := none
  bodyMd := none
  dept := none
  domain := none
  type := none
  sensitivity := none
  language := none
  status := none
  tags := none
  audienceDepartmentIds := none
  nextReview := none

theorem initial_none : Initial none := rfl

def rewrittenPolicy : List Action :=
  [.create author 1000 newPolicy,
    .update author { noChange with bodyMd := some "Current body", tags := some ["policy"] },
    .restore author 1]

theorem rewrittenPolicy_plays :
    (play (next directory) [] none rewrittenPolicy).isSome = true := by decide

theorem faithful_of_versioned_rewrittenPolicy :
    ∃ r, ((play (next directory) [] none rewrittenPolicy).get rewrittenPolicy_plays).2 = some r ∧
      Faithful r := by
  obtain ⟨r, hr⟩ := Option.isSome_iff_exists.mp (by decide :
    ((play (next directory) [] none rewrittenPolicy).get rewrittenPolicy_plays).2.isSome = true)
  exact ⟨r, hr,
    faithful_of_versioned (run_play initial_none rewrittenPolicy_plays) (by decide) r hr⟩

def publicPolicy : List Action :=
  [.create author 1000 newPolicy, .update author { noChange with sensitivity := some "public" }]

theorem publicPolicy_plays :
    (play (next directory) [] none publicPolicy).isSome = true := by decide

/-- An update of the sensitivity alone leaves the newest version behind. -/
theorem reclassified_unversioned :
    ¬ ∀ (d : Directory) (tr : List (Option Record × Action)) (s : Option Record),
      Run Initial (Step d) tr s → ∀ r ∈ s, Faithful r := by
  intro h
  obtain ⟨r, hr⟩ := Option.isSome_iff_exists.mp
    (by decide : ((play (next directory) [] none publicPolicy).get publicPolicy_plays).2.isSome = true)
  obtain ⟨row, hlast, -, hagrees, -⟩ :=
    (h directory _ _ (run_play initial_none publicPolicy_plays) r hr).newest
  have hnewest : (((play (next directory) [] none publicPolicy).get publicPolicy_plays).2.bind
      fun r => r.versions.getLast?.bind (·.snapshot.sensitivity)) = some .internal := by decide
  have hcurrent : ((play (next directory) [] none publicPolicy).get publicPolicy_plays).2.map
      (·.article.sensitivity) = some .publicContent := by decide
  rw [hr, Option.bind_some, hlast] at hnewest
  rw [hr, Option.map_some] at hcurrent
  have hequal := hagrees.sensitivity _ hnewest
  rw [Option.some.inj hcurrent] at hequal
  cases hequal

end QnscKb.History
