import QnscKb.Sync.Window

/-!
# Sync — Notices

Every call of `enqueue_connector_sync` leaves a notice: a change at the provider that a walk has yet
to read.  It is folded onto one request, and answered by the next claim of a request of that
connector and scope.  An observer keeps the requests whose notices wait, or came since their last
claim.
-/

namespace QnscKb.Sync

open Runs

/-! ### The observer -/

/-- The requests with a notice no claim has answered, and those with one that was folded onto them
since they were last claimed. -/
structure Notices where
  waiting : List Nat
  folded : List Nat

def SyncRequest.target (r : SyncRequest) : Nat × Option Nat := (r.connectorId, r.scopeId)

/-- Two requests are for the same connector and scope. -/
def State.sameTarget (s : State) (i j : Nat) : Bool :=
  (s.requests[i]?).map SyncRequest.target == (s.requests[j]?).map SyncRequest.target

def Notices.note (s : State) (g : Notices) : Action → Notices
  | .advance k _ =>
    match s.phaseOf k with
    | some (.coalescing i _ _ _) => ⟨i :: g.waiting, i :: g.folded⟩
    | some (.inserting _ _ _ _) => ⟨s.requests.length :: g.waiting, s.requests.length :: g.folded⟩
    | some (.decided i _ false) =>
      ⟨g.waiting.filter fun j => !s.sameTarget i j, g.folded.filter fun j => j != i⟩
    | _ => g
  | _ => g

abbrev NoticeStep : State × Notices → Action → State × Notices → Prop :=
  Runs.By (watched next Notices.note)

def NoticeInitial (p : State × Notices) : Prop := Initial p.1 ∧ p.2 = ⟨[], []⟩

/-! ### No notice is lost -/

/-- For every notice that waits, a request for its connector and scope is queued, or its own has
failed. -/
def NoticesKept (p : State × Notices) : Prop :=
  ∀ i ∈ p.2.waiting, ∃ row, p.1.requests[i]? = some row ∧
    (row.status = .failed ∨ ∃ (j : Nat) (row' : SyncRequest), p.1.requests[j]? = some row' ∧
      row'.target = row.target ∧ row'.status = .queued)

/-- The `UPDATE` of a worker completes its request. -/
def State.completes (s : State) (i : Nat) (r : SyncRequest) (success : Bool) (error : Option Text)
    (retryable : Bool) : Bool :=
  (s.requests[i]?).any fun row => row.status != .completed &&
    (r.flush (r.finished success error retryable s.now) row).status == .completed

/-- A request is completed only if it was claimed after every notice folded onto it. -/
def completesClaimed (p : State × Notices) : Action → Bool
  | .advance k _ =>
    match p.1.phaseOf k with
    | some (.finishing i r success error retryable) =>
      !p.1.completes i r success error retryable || !p.2.folded.contains i
    | _ => true
  | _ => true

def CompletesClaimed (p : State × Notices) (a : Action) : Prop := completesClaimed p a = true

instance (p : State × Notices) (a : Action) : Decidable (CompletesClaimed p a) :=
  inferInstanceAs (Decidable (_ = true))

/-! ### Who writes a request -/

def State.queuedAt (s : State) (i : Nat) : Bool :=
  (s.requests[i]?).any fun row => row.status == .queued

def State.inFlightAt (s : State) (i : Nat) : Bool := (s.requests[i]?).any SyncRequest.inFlight

/-- An enqueue finds the request it is folded onto still queued; a worker finds its own still
dispatched or running. -/
def owned (s : State) : Action → Bool
  | .advance k _ =>
    match s.phaseOf k with
    | some (.coalescing i _ _ _) => s.queuedAt i
    | some (.marking i _) => s.inFlightAt i
    | some (.finishing i _ _ _ _) => s.inFlightAt i
    | _ => true
  | _ => true

def Owned (p : State × Notices) (a : Action) : Prop := owned p.1 a = true

instance (p : State × Notices) (a : Action) : Decidable (Owned p a) :=
  inferInstanceAs (Decidable (_ = true))

/-! ### The rows that are not in flight -/

/-- The request is queued or has failed. -/
def SyncRequest.settled (r : SyncRequest) : Prop := r.status = .queued ∨ r.status = .failed

def RestsAt (s : State) (i : Nat) : Prop :=
  ∃ row, s.requests[i]? = some row ∧ row.settled

variable {s t : State} {i j : Nat}

theorem restsAt_write {loaded changed : SyncRequest} (h : RestsAt s j)
    (hwrite : i = j → ∀ row, row.settled → (loaded.flush changed row).settled) :
    RestsAt (s.write i loaded changed) j := by
  obtain ⟨row, hrow, hsettled⟩ := h
  by_cases hij : i = j
  · refine ⟨loaded.flush changed row, ?_, hwrite hij row hsettled⟩
    rw [getElem?_write, if_pos hij, hrow]
    rfl
  · refine ⟨row, ?_, hsettled⟩
    rw [getElem?_write, if_neg hij, hrow]

theorem restsAt_recovered (rows : List (Nat × SyncRequest)) (now : Nat) (h : RestsAt s j) :
    RestsAt (rows.foldl (fun t row => t.write row.1 row.2 (row.2.recovered now)) s) j := by
  induction rows generalizing s with
  | nil => exact h
  | cons row rows ih =>
    refine ih (restsAt_write h fun _ found hfound => ?_)
    rcases flush_status row.2 (row.2.recovered now) found with hsame | hqueued
    · rwa [SyncRequest.settled, hsame]
    · exact Or.inl hqueued

theorem restsAt_not_inFlight (h : RestsAt s j) : s.inFlightAt j = false := by
  obtain ⟨row, hrow, hqueued | hfailed⟩ := h
  · simp [State.inFlightAt, hrow, SyncRequest.inFlight, hqueued]
  · simp [State.inFlightAt, hrow, SyncRequest.inFlight, hfailed]

theorem restsAt_after {phase : Phase} (h : RestsAt s j) (ht : t.requests = s.after phase)
    (hclaim : ∀ r, phase ≠ .decided j r false)
    (hmark : ∀ r, phase = .marking j r → s.inFlightAt j = true)
    (hfinish : ∀ r success error retryable, phase = .finishing j r success error retryable →
        s.inFlightAt j = true) :
    RestsAt t j := by
  have hfree := restsAt_not_inFlight h
  suffices hafter : ∃ u : State, u.requests = s.after phase ∧ RestsAt u j by
    obtain ⟨u, hu, row, hrow, hsettled⟩ := hafter
    exact ⟨row, by rw [ht, ← hu, hrow], hsettled⟩
  cases phase with
  | coalescing i r reason priority =>
    refine ⟨_, rfl, restsAt_write h fun _ row hrow => ?_⟩
    have hstatus : (r.flush (r.coalesced reason priority s.now) row).status = row.status :=
      flush_status_of_kept rfl
    rwa [SyncRequest.settled, hstatus]
  | inserting c scope reason priority =>
    obtain ⟨row, hrow, hsettled⟩ := h
    refine ⟨{ s with requests := s.requests ++ [_] }, rfl, row, ?_, hsettled⟩
    exact (List.getElem?_append_left (List.getElem?_eq_some_iff.mp hrow).1).trans hrow
  | decided i r inFlight =>
    cases inFlight with
    | true => exact ⟨s, rfl, h⟩
    | false =>
      refine ⟨_, rfl, restsAt_write h fun hij => ?_⟩
      subst hij
      exact absurd rfl (hclaim r)
  | marking i r =>
    refine ⟨_, rfl, restsAt_write h fun hij => ?_⟩
    subst hij
    rw [hmark r rfl] at hfree
    cases hfree
  | finishing i r success error retryable =>
    refine ⟨_, rfl, restsAt_write h fun hij => ?_⟩
    subst hij
    rw [hfinish r success error retryable rfl] at hfree
    cases hfree
  | recovering rows => exact ⟨_, rfl, restsAt_recovered rows s.now h⟩
  | idle | called | rowLocked => exact ⟨s, rfl, h⟩

/-! ### The invariant -/

/-- What holds between two steps. -/
structure NoticeInv (p : State × Notices) : Prop where
  settled : ∀ i ∈ p.2.folded, RestsAt p.1 i
  waiting : ∀ i ∈ p.2.waiting, i ∈ p.2.folded

variable {p : State × Notices}

theorem NoticeInv.of_initial (h : NoticeInitial p) : NoticeInv p := by
  obtain ⟨-, hnone⟩ := h
  constructor
  · intro i hi
    rw [hnone] at hi
    cases hi
  · intro i hi
    rw [hnone] at hi
    cases hi

theorem sameTarget_self (s : State) (i : Nat) : s.sameTarget i i = true := beq_self_eq_true _

theorem NoticeInv.more (h : NoticeInv p) (hi : RestsAt t i)
    (hafter : ∀ j, RestsAt p.1 j → RestsAt t j) :
    NoticeInv (t, ⟨i :: p.2.waiting, i :: p.2.folded⟩) := by
  constructor
  · intro j hj
    rcases List.mem_cons.mp hj with rfl | hj
    · exact hi
    · exact hafter j (h.settled j hj)
  · intro j hj
    rcases List.mem_cons.mp hj with rfl | hj
    · exact List.mem_cons_self
    · exact List.mem_cons_of_mem _ (h.waiting j hj)

theorem NoticeInv.fewer (h : NoticeInv p) (hafter : ∀ j, RestsAt p.1 j → j ≠ i → RestsAt t j) :
    NoticeInv (t, ⟨p.2.waiting.filter fun j => !p.1.sameTarget i j,
      p.2.folded.filter fun j => j != i⟩) := by
  constructor
  · intro j hj
    obtain ⟨hj, hne⟩ := List.mem_filter.mp hj
    exact hafter j (h.settled j hj) (bne_iff_ne.mp hne)
  · intro j hj
    obtain ⟨hj, hother⟩ := List.mem_filter.mp hj
    refine List.mem_filter.mpr ⟨h.waiting j hj, ?_⟩
    by_cases hji : j = i
    · subst hji
      simp [sameTarget_self] at hother
    · simpa using hji

theorem NoticeInv.advance {g : Notices} (h : NoticeInv p) {k : Nat} {cached : Bool} {x : Session}
    (hnote : g = Notices.note p.1 p.2 (.advance k cached)) (hx : Advanced p.1 k x t)
    (hc : Owned p (.advance k cached)) : NoticeInv (t, g) := by
  simp only [Owned, owned, phaseOf_eq hx.session] at hc
  simp only [Notices.note, phaseOf_eq hx.session] at hnote
  have hafter {j : Nat} (hj : RestsAt p.1 j) (hclaim : ∀ r, x.phase ≠ .decided j r false) :
      RestsAt t j := by
    refine restsAt_after hj hx.requests hclaim (fun r hphase => ?_)
      fun r success error retryable hphase => ?_
    · rwa [hphase] at hc
    · rwa [hphase] at hc
  -- every notice stays, with one more where the call enqueues, and fewer where it claims
  have hstays (hsame : g = p.2) (hclaim : ∀ i r, x.phase ≠ .decided i r false) :
      NoticeInv (t, g) := by
    subst hsame
    exact ⟨fun j hj => hafter (h.settled j hj) (hclaim j), h.waiting⟩
  cases hphase : x.phase with
  | coalescing i r reason priority =>
    simp only [hphase] at hnote hc hafter
    subst hnote
    have hi : RestsAt p.1 i := by
      obtain ⟨row, hrow, hqueued⟩ := (Option.any_eq_true _ _).mp hc
      exact ⟨row, hrow, Or.inl (by simpa using hqueued)⟩
    have hgoes {j : Nat} (hj : RestsAt p.1 j) : RestsAt t j :=
      hafter hj fun r hclaims => by cases hclaims
    exact h.more (hgoes hi) fun j hj => hgoes hj
  | inserting c scope reason priority =>
    have hrequests := hx.requests
    simp only [hphase] at hnote hafter hrequests
    subst hnote
    refine h.more ⟨SyncRequest.enqueued c scope reason priority p.1.now, ?_, Or.inl rfl⟩
      fun j hj => hafter hj fun r hclaims => by cases hclaims
    rw [hrequests]
    simp [State.after]
  | decided i r inFlight =>
    cases inFlight with
    | true =>
      simp only [hphase] at hnote
      exact hstays hnote fun i r hclaims => (by cases hphase.symm.trans hclaims)
    | false =>
      simp only [hphase] at hnote hafter
      subst hnote
      refine h.fewer fun j hj hne => hafter hj fun r' hclaims => ?_
      cases hclaims
      exact hne rfl
  | marking | finishing | recovering | idle | called | rowLocked =>
    simp only [hphase] at hnote
    exact hstays hnote fun i r hclaims => (by cases hphase.symm.trans hclaims)

theorem NoticeInv.step {q : State × Notices} {a : Action} (h : NoticeInv p) (hc : Owned p a)
    (hstep : NoticeStep p a q) : NoticeInv q := by
  obtain ⟨t, g⟩ := q
  obtain ⟨⟨e, hnext⟩, hnote⟩ := by_watched_iff.mp hstep
  rcases next_requests hnext with ⟨hrequests, ha⟩ | ⟨k, cached, x, rfl, hx⟩
  · have hsame : g = p.2 := by
      cases a with
      | advance k cached => exact absurd rfl (ha k cached)
      | openSession | call | rollback | tick => exact hnote
    subst hsame
    refine ⟨fun i hi => ?_, h.waiting⟩
    obtain ⟨row, hrow, hsettled⟩ := h.settled i hi
    exact ⟨row, by rw [hrequests, hrow], hsettled⟩
  · exact h.advance hnote hx hc

theorem NoticeInv.kept (h : NoticeInv p) : NoticesKept p := by
  intro i hi
  obtain ⟨row, hrow, hqueued | hfailed⟩ := h.settled i (h.waiting i hi)
  · exact ⟨row, hrow, Or.inr ⟨i, row, hrow, rfl, hqueued⟩⟩
  · exact ⟨row, hrow, Or.inl hfailed⟩

theorem NoticeInv.completesClaimed {a : Action} (h : NoticeInv p) (hc : Owned p a) :
    CompletesClaimed p a := by
  cases a with
  | advance k cached =>
    simp only [CompletesClaimed, Sync.completesClaimed]
    split
    · next i r success error retryable hphase =>
      simp only [Owned, owned, hphase] at hc
      have hnot : p.2.folded.contains i = false := by
        by_contra hfolded
        have hfree := restsAt_not_inFlight (h.settled i (by simpa using hfolded))
        rw [hc] at hfree
        cases hfree
      rw [hnot]
      simp
    · rfl
  | openSession | call | rollback | tick => rfl

/-- **No notice is lost**, in every run whose enqueues find the request they fold onto still queued
and whose workers find theirs dispatched or running. -/
theorem notices_kept_of_owned {tr : List ((State × Notices) × Action)} {p : State × Notices}
    (r : Run NoticeInitial NoticeStep tr p) (hc : Throughout Owned tr) :
    NoticesKept p ∧ Throughout CompletesClaimed tr :=
  ⟨(r.invariant (I := NoticeInv) (fun _ => NoticeInv.of_initial)
      (fun _ _ _ hi hc hs => hi.step hc hs) hc).kept,
    r.always (I := NoticeInv) (fun _ => NoticeInv.of_initial)
      (fun _ _ _ hi hc hs => hi.step hc hs) (fun _ _ _ hi hc _ => hi.completesClaimed hc) hc⟩

def unnoticed : State × Notices := (emptyQueue, ⟨[], []⟩)

/-- A change comes while the walk is under way; it gets a request of its own. -/
def noticeInWalk : List Action :=
  startedPoll ++ carried 0 (.enqueue 7 none .webhook 10) 2 ++ carried 1 (.finish 0 true none true) 2

theorem notices_kept_of_owned_noticeInWalk :
    NoticesKept ((play (watched next Notices.note) [] unnoticed noticeInWalk).get (by decide)).2 ∧
      Throughout CompletesClaimed
        ((play (watched next Notices.note) [] unnoticed noticeInWalk).get (by decide)).1 :=
  notices_kept_of_owned (run_play ⟨⟨rfl, rfl⟩, rfl⟩ (by decide)) (by decide)

/-- A walk takes so long that its request is recovered; a change is folded onto it, and then the
walk ends. -/
def erasedNotice : List Action :=
  startedPoll ++ .tick 20000 :: carried 0 (.recoverStale 15 180) 2 ++
    carried 0 (.enqueue 7 none .webhook 10) 2 ++ carried 1 (.finish 0 true none true) 2

theorem erasedNotice_plays :
    (play (watched next Notices.note) [] unnoticed erasedNotice).isSome = true := by decide

/-- A worker that is late completes a recovered request with a new notice on it. -/
theorem notice_erased :
    ¬ ∀ (tr : List ((State × Notices) × Action)) (p : State × Notices),
      Run NoticeInitial NoticeStep tr p → NoticesKept p ∧ Throughout CompletesClaimed tr := by
  intro h
  have hboth := h _ _ (run_play ⟨⟨rfl, rfl⟩, rfl⟩ erasedNotice_plays)
  exact absurd hboth.2 (by decide)

end QnscKb.Sync
