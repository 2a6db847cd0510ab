import QnscKb.History.Versions

/-!
# History — Placement

Who may move an article into another audience.  An update checks the destination of a move, and
records and publishes it; a restore copies department and sensitivity from an old version.
-/

namespace QnscKb.History

open Access Runs

inductive Operation
  | update (req : UpdateRequest)
  | restore (number : Nat)

def operate (d : Directory) (u : User) (r : Record) : Operation → Except Failure (Record × Effects)
  | .update req => updateArticle d u r req
  | .restore number => restoreVersion d u r number

/-- Where department or sensitivity changed, the actor edits the destination by a department,
company or global grant, and the change is recorded and published. -/
def Placed (u : User) (a b : Article) (effects : Effects) : Prop :=
  b.dept ≠ a.dept ∨ b.sensitivity ≠ a.sensitivity →
    editsIn u a.toArticle b.dept = true ∧ .permissionChange ∈ effects.audits ∧
      .permissionChanged ∈ effects.events

/-- An update of the sensitivity alone is by one who edits the department; a restored version has
the article's own department and sensitivity. -/
def covered (u : User) (r : Record) : Operation → Bool
  | .update req =>
    req.newSensitivity r.article == r.article.sensitivity ||
      req.dept.getD r.article.dept != r.article.dept ||
      editsIn u r.article.toArticle r.article.dept
  | .restore number =>
    (r.versions.find? fun row => row.version == number).all fun row =>
      row.snapshot.dept.getD r.article.dept == r.article.dept &&
        row.snapshot.sensitivity.getD r.article.sensitivity == r.article.sensitivity

/-! ### Updates -/

variable {d : Directory} {req : UpdateRequest}

variable {u : User}

theorem editsIn_of_checkUpdate {a : Article} {audiences : List Department}
    (h : checkUpdate d u a req = .ok audiences) (hmove : req.dept.getD a.dept ≠ a.dept) :
    editsIn u a.toArticle (req.dept.getD a.dept) = true := by
  rw [checkUpdate] at h
  iterate 3
    split at h
    · cases h
  split at h
  · cases h
  · next hallowed =>
    by_contra hedits
    exact hallowed ⟨hmove, by simpa using hedits⟩

variable {out : Record × Effects}

variable {r : Record}

theorem update_records {audiences : List Department}
    (hcheck : checkUpdate d u r.article req = .ok audiences)
    (hop : updateArticle d u r req = .ok out)
    (hchanged : permissionsChanged r.article req audiences = true) :
    .permissionChange ∈ out.2.audits ∧ .permissionChanged ∈ out.2.events := by
  rw [updateArticle, hcheck] at hop
  cases hop
  simp [hchanged]

theorem placed_update_iff (hop : updateArticle d u r req = .ok out) :
    Placed u r.article out.1.article out.2 ↔ covered u r (.update req) = true := by
  obtain ⟨audiences, hcheck⟩ : ∃ audiences, checkUpdate d u r.article req = .ok audiences := by
    rw [updateArticle] at hop
    split at hop
    · cases hop
    · next audiences hcheck => exact ⟨audiences, hcheck⟩
  have hrecords := update_records hcheck hop
  have harticle : out.1.article = updatedArticle r.article req audiences := by
    rw [updateArticle, hcheck] at hop
    cases hop
    rfl
  rw [Placed, harticle]
  show (req.dept.getD r.article.dept ≠ r.article.dept ∨
      req.newSensitivity r.article ≠ r.article.sensitivity → _) ↔ _
  simp only [covered, Bool.or_eq_true, beq_iff_eq, bne_iff_ne]
  constructor
  · intro hplaced
    by_cases hsensitivity : req.newSensitivity r.article = r.article.sensitivity
    · exact Or.inl (Or.inl hsensitivity)
    · by_cases hdept : req.dept.getD r.article.dept = r.article.dept
      · have hedits := (hplaced (Or.inr hsensitivity)).1
        rw [show (updatedArticle r.article req audiences).dept = r.article.dept from hdept] at hedits
        exact Or.inr hedits
      · exact Or.inl (Or.inr hdept)
  · intro hcovered hchange
    have hpermissions : permissionsChanged r.article req audiences = true := by
      simp only [permissionsChanged, Bool.or_eq_true, bne_iff_ne]
      rcases hchange with hdept | hsensitivity
      · exact Or.inr hdept
      · exact Or.inl (Or.inl hsensitivity)
    refine ⟨?_, hrecords hpermissions⟩
    by_cases hdept : req.dept.getD r.article.dept = r.article.dept
    · rw [show (updatedArticle r.article req audiences).dept = r.article.dept from hdept]
      rcases hcovered with (hsensitivity | hmove) | hedits
      · rcases hchange with hmove | hchanged
        · exact absurd hdept hmove
        · exact absurd hsensitivity hchanged
      · exact absurd hdept hmove
      · exact hedits
    · exact editsIn_of_checkUpdate hcheck hdept

theorem placed_restore_iff {number : Nat} (hop : restoreVersion d u r number = .ok out) :
    Placed u r.article out.1.article out.2 ↔ covered u r (.restore number) = true := by
  obtain ⟨row, hcheck⟩ : ∃ row, checkRestore d u r number = .ok row := by
    rw [restoreVersion] at hop
    split at hop
    · cases hop
    · next row hcheck => exact ⟨row, hcheck⟩
  have hfind : (r.versions.find? fun row => row.version == number) = some row := by
    rw [checkRestore] at hcheck
    iterate 2
      split at hcheck
      · cases hcheck
    split at hcheck
    · cases hcheck
    · next found hfound =>
      iterate 2
        split at hcheck
        · cases hcheck
      cases hcheck
      exact hfound
  rw [restoreVersion, hcheck] at hop
  cases hop
  rw [Placed]
  show (row.snapshot.dept.getD r.article.dept ≠ r.article.dept ∨
      row.snapshot.sensitivity.getD r.article.sensitivity ≠ r.article.sensitivity → _) ↔ _
  simp only [covered, hfind, Option.all_some, Bool.and_eq_true, beq_iff_eq]
  constructor
  · intro hplaced
    by_contra hmoved
    -- A restore never says that permissions changed.
    have hrecorded := (hplaced (not_and_or.mp hmoved)).2.1
    simp at hrecorded
  · rintro ⟨hdept, hsensitivity⟩ (hmoved | hmoved)
    · exact absurd hdept hmoved
    · exact absurd hsensitivity hmoved

/-- **Content is placed by those who may**, in every update and restore that succeeds, exactly where
the sensitivity alone is changed by an editor of the department, and a restored version has the
article's own placement. -/
theorem placed_iff_covered {d : Directory} {u : User} {r : Record} {op : Operation}
    {out : Record × Effects} (h : operate d u r op = .ok out) :
    Placed u r.article out.1.article out.2 ↔ covered u r op = true := by
  cases op with
  | update req => exact placed_update_iff h
  | restore number => exact placed_restore_iff h

/-! ### An author's restore -/

def twoDepartments : Directory := ⟨[engineering, finance], fun a b => a == b⟩

def administrator : User := { author with id := 1, role := "Admin", departments := [] }

/-- A policy of Finance, which an administrator has restricted and moved to Engineering. -/
def movedPolicy : List Action :=
  [.create author 1000 { newPolicy with dept := "Finance" },
    .update administrator
      { noChange with dept := some "Engineering", sensitivity := some "restricted" }]

/-- The record that a list of operations leaves. -/
def recordAfter (d : Directory) (actions : List Action) : Option Record :=
  (play (next d) [] none actions).bind fun out => out.2

def movedRecord : Record := (recordAfter twoDepartments movedPolicy).get (by decide)

def movedBack : Operation := .update { noChange with dept := some "Finance" }

theorem placed_iff_covered_movedBack :
    ∃ out, operate twoDepartments administrator movedRecord movedBack = .ok out ∧
      out.1.article.dept ≠ movedRecord.article.dept ∧
      (Placed administrator movedRecord.article out.1.article out.2 ↔
        covered administrator movedRecord movedBack = true) := by
  obtain ⟨out, hout, hmoved⟩ : ∃ out,
      operate twoDepartments administrator movedRecord movedBack = .ok out ∧
        out.1.article.dept ≠ movedRecord.article.dept := ⟨_, rfl, by decide⟩
  exact ⟨out, hout, hmoved, placed_iff_covered hout⟩

/-- An author moves an article back into a department they may not edit in. -/
theorem restored_into_department :
    ¬ ∀ (d : Directory) (u : User) (r : Record) (op : Operation) (out : Record × Effects),
      operate d u r op = .ok out → Placed u r.article out.1.article out.2 := by
  intro h
  obtain ⟨out, hout⟩ : ∃ out, restoreVersion twoDepartments author movedRecord 1 = .ok out :=
    ⟨_, rfl⟩
  have hcovered := (placed_restore_iff hout).mp
    (h twoDepartments author movedRecord (.restore 1) out hout)
  exact absurd hcovered (by decide)

end QnscKb.History
