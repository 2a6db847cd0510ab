import QnscKb.Edits.Model

/-!
# Edits — which edits overwrite

An edit prepared from a version is *current* when it replaces the body at that version.  Two guards
make it so: the unique index, by which a session that loaded `read` inserts row `read + 1` only if
nothing was committed since (`read_eq_of_fresh`), and the row lock of an approval
(`SessionOk.frame`).  A draft approved from the queue passes neither.
-/

namespace QnscKb.Edits
open QnscKb.Runs

variable {Body : Type}

/-- The edit replaces the version it was prepared from. -/
def Current (s : State Body) : Event → Prop
  | .replaces base => base = s.article.version
  | _ => True

/-- A queue approval locks the article at the version its draft was prepared from. -/
def LocksCurrent (s : State Body) : Event → Prop
  | .approvalLocks i => ∀ d ∈ s.drafts[i]?, d.preparedFrom = s.article.version
  | _ => True

instance (s : State Body) : (e : Event) → Decidable (Current s e)
  | .replaces base => inferInstanceAs (Decidable (base = s.article.version))
  | .approvalLocks _ | .quiet => isTrue trivial

instance (s : State Body) : (e : Event) → Decidable (LocksCurrent s e)
  | .approvalLocks i =>
    inferInstanceAs (Decidable (∀ d ∈ s.drafts[i]?, d.preparedFrom = s.article.version))
  | .replaces _ | .quiet => isTrue trivial

instance (C : State Body → Event → Prop) [∀ s e, Decidable (C s e)]
    (tr : List (State Body × Event)) : Decidable (Throughout C tr) :=
  inferInstanceAs (Decidable (∀ p ∈ tr, C p.1 p.2))

/-! ### The invariant -/

/-- A draft of the table that was prepared from `read`. -/
def Prepared (s : State Body) (i read : Nat) : Prop :=
  ∃ d, s.drafts[i]? = some d ∧ d.preparedFrom = read

/-- What a session's state of progress says of the system. -/
def SessionOk (s : State Body) (k : Nat) : Session Body → Prop
  | .requested _ | .closed => True
  | .updateChecked read _ _ | .restoreChecked read _ | .revised read _ _ =>
    read ≤ s.article.version
  | .draftCreated read i _ | .selfApproving read i => read ≤ s.article.version ∧ Prepared s i read
  | .selfLocked read i => read ≤ s.article.version ∧ Prepared s i read ∧ s.lock = some k
  | .approveLocked read i => read = s.article.version ∧ Prepared s i read ∧ s.lock = some k

structure Inv (s : State Body) : Prop where
  history : ∀ n, s.hasVersion n = true ↔ 1 ≤ n ∧ n ≤ s.article.version
  sessions : ∀ k x, s.sessions[k]? = some x → SessionOk s k x

variable {s : State Body}

theorem Inv.of_initial (h : Initial s) : Inv s where
  history := h.history
  sessions := fun k x hk => by rw [h.noSessions] at hk; cases hk

/-- **The unique index**: a session that loaded `read` and inserts `read + 1` is up to date. -/
theorem read_eq_of_fresh (h : Inv s) {read : Nat} (hle : read ≤ s.article.version)
    (hf : s.hasVersion (read + 1) = false) : read = s.article.version := by
  refine Nat.le_antisymm hle (Nat.not_lt.mp fun hlt => ?_)
  rw [(h.history (read + 1)).mpr ⟨Nat.le_add_left 1 read, hlt⟩] at hf
  cases hf

/-- **The row lock**: what a session says of the system survives a step of another one that grows
the version, keeps the drafts' origin, and leaves a locked article alone. -/
theorem SessionOk.frame {t : State Body} {k : Nat} {x : Session Body} (h : SessionOk s k x)
    (hv : s.article.version ≤ t.article.version)
    (hl : s.lock = some k → t.lock = some k ∧ t.article.version = s.article.version)
    (hd : ∀ i read, Prepared s i read → Prepared t i read) : SessionOk t k x := by
  cases x with
  | requested _ => exact trivial
  | closed => exact trivial
  | updateChecked read body own => exact Nat.le_trans h hv
  | restoreChecked read body => exact Nat.le_trans h hv
  | revised read body revision => exact Nat.le_trans h hv
  | draftCreated read i own => exact ⟨Nat.le_trans h.1 hv, hd i read h.2⟩
  | selfApproving read i => exact ⟨Nat.le_trans h.1 hv, hd i read h.2⟩
  | selfLocked read i =>
    obtain ⟨hle, hp, hk⟩ := h
    exact ⟨Nat.le_trans hle hv, hd i read hp, (hl hk).1⟩
  | approveLocked read i =>
    obtain ⟨he, hp, hk⟩ := h
    exact ⟨he.trans (hl hk).2.symm, hd i read hp, (hl hk).1⟩

theorem Inv.of_step {t : State Body} {k : Nat} {x : Session Body} (h : Inv s)
    (hs : t.sessions = s.sessions.set k x)
    (hrows : ∀ n, t.hasVersion n = true ↔ 1 ≤ n ∧ n ≤ t.article.version)
    (hv : s.article.version ≤ t.article.version)
    (hl : ∀ j, j ≠ k → s.lock = some j → t.lock = some j ∧ t.article.version = s.article.version)
    (hd : ∀ i read, Prepared s i read → Prepared t i read) (hx : SessionOk t k x) : Inv t where
  history := hrows
  sessions := by
    intro j y hj
    rw [hs, List.getElem?_set] at hj
    by_cases hjk : k = j
    · subst hjk
      simp only [if_true] at hj
      split at hj
      · cases hj; exact hx
      · cases hj
    · rw [if_neg hjk] at hj
      exact (h.sessions j y hj).frame hv (hl j (Ne.symm hjk)) hd

section Updates

variable {s : State Body} {k i read : Nat}

theorem Prepared.addDraft (h : Prepared s i read) (d : PendingDraft Body) :
    Prepared (s.addDraft d) i read := by
  obtain ⟨e, he, hp⟩ := h
  refine ⟨e, ?_, hp⟩
  rw [State.addDraft, List.getElem?_append_left (List.getElem?_eq_some_iff.mp he).1]
  exact he

theorem prepared_addDraft (d : PendingDraft Body) :
    Prepared (s.addDraft d) s.drafts.length d.preparedFrom :=
  ⟨d, by simp [State.addDraft], rfl⟩

theorem Prepared.setStatus (h : Prepared s i read) (j : Nat) (status : DraftStatus) :
    Prepared (s.setStatus j status) i read := by
  obtain ⟨d, hd, hp⟩ := h
  by_cases hji : j = i
  · exact ⟨{ d with status := status }, by simp [State.setStatus, hji, hd], hp⟩
  · exact ⟨d, by simp [State.setStatus, hji, hd], hp⟩

theorem history_publish (h : Inv s) (he : read = s.article.version) (body : Body) (n : Nat) :
    (s.publish read body).hasVersion n = true ↔ 1 ≤ n ∧ n ≤ read + 1 := by
  have hold := h.history n
  simp only [State.hasVersion] at hold
  simp only [State.publish, State.hasVersion, List.any_append, List.any_cons, List.any_nil,
    Bool.or_false, Bool.or_eq_true, hold, beq_iff_eq, ← he]
  omega

end Updates

/-! ### One step -/

section OneStep

variable {s t : State Body} {k : Nat} {e : Event}

theorem Inv.put (h : Inv s) {x : Session Body} (hx : SessionOk (s.put k x) k x) :
    Inv (s.put k x) :=
  h.of_step rfl h.history (Nat.le_refl _) (fun _ _ hj => ⟨hj, rfl⟩) (fun _ _ hp => hp) hx

theorem Inv.close (h : Inv s) (k : Nat) : Inv (s.put k .closed) :=
  h.put trivial

theorem Inv.release (h : Inv s) (hk : s.lock = some k) : Inv (s.release.put k .closed) :=
  h.of_step rfl h.history (Nat.le_refl _)
    (fun _ hj hlj => absurd (Option.some.inj (hlj.symm.trans hk)) hj) (fun _ _ hp => hp) trivial

theorem Inv.hold (h : Inv s) {x : Session Body} (hn : s.lock = none)
    (hx : SessionOk ((s.hold k).put k x) k x) : Inv ((s.hold k).put k x) :=
  h.of_step rfl h.history (Nat.le_refl _)
    (fun _ _ hlj => by rw [hn] at hlj; cases hlj) (fun _ _ hp => hp) hx

variable {read : Nat}

theorem Inv.create (h : Inv s) (hle : read ≤ s.article.version) (body : Body) (own : Bool) :
    Inv ((s.addDraft ⟨body, .draft, read⟩).put k (.draftCreated read s.drafts.length own)) :=
  h.of_step rfl h.history (Nat.le_refl _) (fun _ _ hj => ⟨hj, rfl⟩)
    (fun _ _ hp => hp.addDraft _) ⟨hle, prepared_addDraft ⟨body, .draft, read⟩⟩

theorem Inv.publish (h : Inv s) (he : read = s.article.version) (body : Body)
    (hl : ∀ j, j ≠ k → s.lock ≠ some j) : Inv ((s.publish read body).put k .closed) :=
  h.of_step rfl (history_publish h he body) (he ▸ Nat.le_succ read)
    (fun j hj hlj => absurd hlj (hl j hj)) (fun _ _ hp => hp) trivial

theorem outcome {s' : State Body} {e' : Event} (hstep : some (e', s') = some (e, t))
    (hi : Inv s') (hcur : Current s e') : Inv t ∧ Current s e := by
  cases hstep
  exact ⟨hi, hcur⟩

theorem commitApproval_ok (h : Inv s) {i : Nat} (hk : s.lock = some k)
    (hle : read ≤ s.article.version) (hp : Prepared s i read)
    (hstep : commitApproval s k read i = some (e, t)) : Inv t ∧ Current s e := by
  obtain ⟨d, hd, hfrom⟩ := hp
  simp only [commitApproval, hd] at hstep
  cases hf : s.hasVersion (read + 1) with
  | true =>
    rw [hf] at hstep
    exact outcome hstep (h.release hk) trivial
  | false =>
    rw [hf] at hstep
    have he := read_eq_of_fresh h hle hf
    refine outcome hstep ?_ (hfrom.trans he)
    exact h.of_step rfl (history_publish h he d.bodyMd) (he ▸ Nat.le_succ read)
      (fun j hj hlj => absurd (Option.some.inj (hlj.symm.trans hk)) hj)
      (fun _ _ hj => hj.setStatus i .approved) trivial

section Advance

variable [DecidableEq Body] {output : Body}

theorem request_ok (h : Inv s) (hc : LocksCurrent s e) {request : Request Body}
    (hx : s.sessions[k]? = some (.requested request))
    (hstep : advance s k output = some (e, t)) : Inv t ∧ Current s e := by
  unfold advance at hstep
  rw [hx] at hstep
  cases request with
  | submitUpdate version body own =>
    simp only at hstep
    split at hstep
    · exact outcome hstep (h.close k) trivial
    · exact outcome hstep (h.put (Nat.le_refl _)) trivial
  | restoreVersion number =>
    simp only at hstep
    split at hstep
    · exact outcome hstep (h.close k) trivial
    · split at hstep
      · exact outcome hstep (h.close k) trivial
      · exact outcome hstep (h.put (Nat.le_refl _)) trivial
  | confirmEdit => exact outcome hstep (h.put (Nat.le_refl _)) trivial
  | approveDraft i =>
    simp only at hstep
    cases hd : s.drafts[i]? with
    | none =>
      rw [hd] at hstep
      exact outcome hstep (h.close k) trivial
    | some d =>
      simp only [hd] at hstep
      split at hstep
      · exact outcome hstep (h.close k) trivial
      cases hl : s.lock with
      | some j => simp [hl] at hstep
      | none =>
        rw [hl] at hstep
        cases hstep
        -- the condition is what makes the loaded version the draft's own
        exact ⟨h.hold hl ⟨rfl, ⟨d, hd, hc d hd⟩, rfl⟩, trivial⟩

theorem revised_ok (h : Inv s) {read : Nat} {body revision : Body}
    (hx : s.sessions[k]? = some (.revised read body revision)) (hle : read ≤ s.article.version)
    (hstep : advance s k output = some (e, t)) : Inv t ∧ Current s e := by
  unfold advance at hstep
  simp only [hx] at hstep
  split at hstep
  · exact outcome hstep (h.close k) trivial
  cases hl : s.lock with
  | some j => simp [hl] at hstep
  | none =>
    rw [hl] at hstep
    cases hf : s.hasVersion (read + 1) with
    | true =>
      rw [hf] at hstep
      exact outcome hstep (h.close k) trivial
    | false =>
      rw [hf] at hstep
      have he := read_eq_of_fresh h hle hf
      have hfree : ∀ j, j ≠ k → s.lock ≠ some j := fun j _ hj => by
        rw [hl] at hj
        cases hj
      exact outcome hstep (h.publish he revision hfree) he

/-- **One step of a session** keeps the invariant and replaces the body only at the version its
edit was prepared from, unless a queue approval locks past it. -/
theorem advance_ok (h : Inv s) (hc : LocksCurrent s e)
    (hstep : advance s k output = some (e, t)) : Inv t ∧ Current s e := by
  cases hx : s.sessions[k]? with
  | none =>
    simp only [advance, hx] at hstep
    cases hstep
  | some x =>
    have hok := h.sessions k x hx
    cases x with
    | requested request => exact request_ok h hc hx hstep
    | revised read body revision => exact revised_ok h hx hok hstep
    | closed =>
      simp only [advance, hx] at hstep
      cases hstep
    | updateChecked read body own =>
      simp only [advance, hx] at hstep
      exact outcome hstep (h.create hok output own) trivial
    | restoreChecked read body =>
      simp only [advance, hx] at hstep
      exact outcome hstep (h.create hok body false) trivial
    | draftCreated read i own =>
      simp only [advance, hx] at hstep
      refine outcome hstep ?_ trivial
      refine h.of_step rfl h.history (Nat.le_refl _) (fun _ _ hj => ⟨hj, rfl⟩)
        (fun _ _ hp => hp.setStatus i .pending) ?_
      cases own with
      | true => exact ⟨hok.1, hok.2.setStatus i .pending⟩
      | false => exact trivial
    | selfApproving read i =>
      simp only [advance, hx] at hstep
      cases hl : s.lock with
      | some j => simp [hl] at hstep
      | none =>
        rw [hl] at hstep
        exact outcome hstep (h.hold hl ⟨hok.1, hok.2, rfl⟩) trivial
    | selfLocked read i =>
      simp only [advance, hx] at hstep
      exact commitApproval_ok h hok.2.2 hok.1 hok.2.1 hstep
    | approveLocked read i =>
      simp only [advance, hx] at hstep
      exact commitApproval_ok h hok.2.2 (Nat.le_of_eq hok.1) hok.2.1 hstep

end Advance

theorem abandon_ok (h : Inv s) (k : Nat) : Inv (abandon s k) := by
  unfold abandon
  split
  · rename_i hk
    exact h.release hk
  · exact h.close k

theorem Inv.arrive (h : Inv s) (request : Request Body) :
    Inv { s with sessions := s.sessions ++ [.requested request] } where
  history := h.history
  sessions := by
    intro j y hj
    by_cases hlt : j < s.sessions.length
    · rw [List.getElem?_append_left hlt] at hj
      exact (h.sessions j y hj).frame (Nat.le_refl _) (fun hl => ⟨hl, rfl⟩) fun _ _ hp => hp
    · rw [List.getElem?_append_right (Nat.not_lt.mp hlt), List.getElem?_singleton] at hj
      split at hj
      · cases hj; exact trivial
      · cases hj

theorem step_ok [DecidableEq Body] (h : Inv s) (hc : LocksCurrent s e) (hstep : Step s e t) :
    Inv t ∧ Current s e := by
  obtain ⟨a, ha⟩ := hstep
  cases a with
  | arrive request =>
    obtain ⟨rfl, rfl⟩ := ha
    exact ⟨h.arrive request, trivial⟩
  | advance j output => exact advance_ok h hc ha
  | abandon j =>
    obtain ⟨rfl, rfl⟩ := ha
    exact ⟨abandon_ok h j, trivial⟩

end OneStep

/-- **No lost edit**, in every run whose queue approvals lock the article at the version their
draft was prepared from. -/
theorem edits_current_of_locks [DecidableEq Body] {tr : List (State Body × Event)}
    {s : State Body} (r : Run Initial Step tr s) (hc : Throughout LocksCurrent tr) :
    Throughout Current tr :=
  r.always (I := Inv) (fun _ => Inv.of_initial) (fun _ _ _ hi hl hs => (step_ok hi hl hs).1)
    (fun _ _ _ hi hl hs => (step_ok hi hl hs).2) hc

/-! ### Two drafts prepared from one version -/

def firstVersion : State String where
  article := ⟨1, "one"⟩
  versions := [⟨1, "one"⟩]
  drafts := []
  sessions := []
  lock := none

theorem initial_firstVersion : Initial firstVersion where
  history n := by
    simp only [firstVersion, State.hasVersion, List.any_cons, List.any_nil, Bool.or_false,
      beq_iff_eq]
    omega
  noDrafts := rfl
  noSessions := rfl
  unlocked := rfl

def submitted (k : Nat) (body : String) : List (Action String) :=
  [.arrive (.submitUpdate (some 1) body false), .advance k "", .advance k body, .advance k ""]

def approved (k draft : Nat) : List (Action String) :=
  [.arrive (.approveDraft draft), .advance k "", .advance k ""]

theorem edits_current_of_locks_approved :
    ∃ tr s, play [] firstVersion (submitted 0 "two" ++ approved 1 0) = some (tr, s) ∧
      Throughout Current tr :=
  ⟨_, _, rfl, edits_current_of_locks (run_of_play (submitted 0 "two" ++ approved 1 0)
    (.start initial_firstVersion) rfl) (by decide)⟩

/-- The second of two drafts prepared from version 1 overwrites what the first committed. -/
theorem second_approval_overwrites :
    ¬ ∀ (tr : List (State String × Event)) (s : State String), Run Initial Step tr s →
      Throughout Current tr := by
  intro h
  have hplay : ∃ tr s, play [] firstVersion
      (submitted 0 "two" ++ submitted 1 "three" ++ approved 2 0 ++ approved 3 1) = some (tr, s) ∧
        ¬ Throughout Current tr := ⟨_, _, rfl, by decide⟩
  obtain ⟨tr, s, hp, hno⟩ := hplay
  exact hno (h tr s (run_of_play _ (.start initial_firstVersion) hp))

end QnscKb.Edits
