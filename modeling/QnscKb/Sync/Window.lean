import QnscKb.Sync.OneWalk

/-!
# Sync — The recovery window

`recover_stale_sync_requests` means to requeue a running request only after its run has lasted for
`running_stale_after_minutes`.  What it reads is `started_at`, which `mark_sync_request_running`
sets once for the request and not for each of its runs; an observer notes when each request was last
marked running.
-/

namespace QnscKb.Sync

open Runs

/-! ### The observer -/

/-- When each request was last marked running; the running window of each session's recovery. -/
structure Watch where
  began : Nat → Option Nat
  window : Nat → Nat

def State.phaseOf (s : State) (k : Nat) : Option Phase := s.sessions[k]?.map Session.phase

def Watch.note (s : State) (g : Watch) : Action → Watch
  | .advance k _ =>
    match s.phaseOf k with
    | some (.marking i _) =>
      { g with began := fun j => if j = i then some s.now else g.began j }
    | some (.called (.recoverStale _ running)) =>
      { g with window := fun j => if j = k then running else g.window j }
    | _ => g
  | _ => g

abbrev WatchedStep : State × Watch → Action → State × Watch → Prop :=
  Runs.By (watched next Watch.note)

def WatchedInitial (p : State × Watch) : Prop := Initial p.1 ∧ p.2.began = fun _ => none

/-! ### The window -/

/-- The `UPDATE` of a recovery puts a running row back into the queue. -/
def State.requeues (s : State) (p : Nat × SyncRequest) : Bool :=
  (s.requests[p.1]?).any fun row =>
    row.status == .running && (p.2.flush (p.2.recovered s.now) row).status == .queued

/-- The current run of the request began at least so many minutes ago. -/
def lasted (p : State × Watch) (i minutes : Nat) : Bool :=
  (p.2.began i).any fun at_ => at_ + 60 * minutes ≤ p.1.now

/-- A recovery requeues running requests only after their runs have lasted for its window. -/
def requeuesStale (p : State × Watch) : Action → Bool
  | .advance k _ =>
    match p.1.phaseOf k with
    | some (.recovering rows) =>
      rows.all fun row => !p.1.requeues row || lasted p row.1 (p.2.window k)
    | _ => true
  | _ => true

def RequeuesStale (p : State × Watch) (a : Action) : Prop := requeuesStale p a = true

instance (p : State × Watch) (a : Action) : Decidable (RequeuesStale p a) :=
  inferInstanceAs (Decidable (_ = true))

/-- A recovery has selected the request, and not written it yet. -/
def State.selected (s : State) (i : Nat) : Bool :=
  s.sessions.any fun x =>
    match x.phase with
    | .recovering rows => rows.any fun row => row.1 == i
    | _ => false

/-- A request is marked running for the first time, while no recovery has selected it. -/
def firstRun (s : State) : Action → Bool
  | .advance k _ =>
    match s.phaseOf k with
    | some (.marking i r) => r.startedAt.isNone && !s.selected i
    | _ => true
  | _ => true

def FirstRun (p : State × Watch) (a : Action) : Prop := firstRun p.1 a = true

instance (p : State × Watch) (a : Action) : Decidable (FirstRun p a) :=
  inferInstanceAs (Decidable (_ = true))

/-! ### The rows after a step -/

/-- The row was not started by the step. -/
def RowKept (row row' : SyncRequest) : Prop :=
  row'.startedAt = row.startedAt ∧ (row'.status = .running → row.status = .running)

theorem RowKept.refl (row : SyncRequest) : RowKept row row := ⟨rfl, id⟩

theorem RowKept.trans {a b c : SyncRequest} (h : RowKept a b) (h' : RowKept b c) : RowKept a c :=
  ⟨h'.1.trans h.1, fun hc => h.2 (h'.2 hc)⟩

theorem rowKept_flush {loaded changed row : SyncRequest}
    (hstarted : changed.startedAt = loaded.startedAt)
    (hstatus : changed.status = .running → changed.status = loaded.status) :
    RowKept row (loaded.flush changed row) := by
  refine ⟨flush_startedAt_of_kept hstarted, fun hrunning => ?_⟩
  rcases flush_status loaded changed row with hrow | hchanged
  · rwa [hrow] at hrunning
  · rwa [flush_status_of_kept (hstatus (hchanged.symm.trans hrunning))] at hrunning

/-- A change of the table that starts no request. -/
def TableKept (s t : State) : Prop :=
  ∀ (j : Nat) (row' : SyncRequest), t.requests[j]? = some row' →
    (∃ row, s.requests[j]? = some row ∧ RowKept row row') ∨
      (row'.startedAt = none ∧ row'.status ≠ .running)

variable {s : State} {i k : Nat}

theorem tableKept_write {loaded changed : SyncRequest}
    (h : ∀ row, RowKept row (loaded.flush changed row)) :
    TableKept s (s.write i loaded changed) := by
  intro j row' hrow'
  obtain ⟨row, hrow, ⟨-, rfl⟩ | ⟨-, rfl⟩⟩ := of_getElem?_write hrow'
  · exact Or.inl ⟨_, hrow, h _⟩
  · exact Or.inl ⟨_, hrow, .refl _⟩

theorem TableKept.trans {t u : State} (h : TableKept s t) (h' : TableKept t u) : TableKept s u := by
  intro j row'' hrow''
  rcases h' j row'' hrow'' with ⟨row', hrow', hkept'⟩ | hnew
  · rcases h j row' hrow' with ⟨row, hrow, hkept⟩ | ⟨hstarted, hidle⟩
    · exact Or.inl ⟨row, hrow, hkept.trans hkept'⟩
    · exact Or.inr ⟨hkept'.1.trans hstarted, fun hrunning => hidle (hkept'.2 hrunning)⟩
  · exact Or.inr hnew

theorem tableKept_recovered (rows : List (Nat × SyncRequest)) (now : Nat) (s : State) :
    TableKept s (rows.foldl (fun t row => t.write row.1 row.2 (row.2.recovered now)) s) := by
  induction rows generalizing s with
  | nil => exact fun j row hrow => Or.inl ⟨row, hrow, .refl row⟩
  | cons row rows ih =>
    have hone : TableKept s (s.write row.1 row.2 (row.2.recovered now)) :=
      tableKept_write fun _ => rowKept_flush rfl nofun
    exact hone.trans (ih _)

theorem tableKept_after {t : State} {phase : Phase} (hmark : ∀ i r, phase ≠ .marking i r)
    (ht : t.requests = s.after phase) : TableKept s t := by
  intro j row' hrow'
  rw [ht] at hrow'
  cases phase with
  | marking i r => exact absurd rfl (hmark i r)
  | coalescing i r reason priority =>
    have hwrite : TableKept s (s.write i r (r.coalesced reason priority s.now)) :=
      tableKept_write fun _ => rowKept_flush rfl fun _ => rfl
    exact hwrite j row' hrow'
  | inserting c scope reason priority =>
    have hnew : (s.requests ++ [SyncRequest.enqueued c scope reason priority s.now])[j]? =
      some row' := hrow'
    rw [List.getElem?_append] at hnew
    split at hnew
    · exact Or.inl ⟨row', hnew, .refl row'⟩
    · rw [List.getElem?_singleton] at hnew
      split at hnew
      · cases hnew
        exact Or.inr ⟨rfl, nofun⟩
      · cases hnew
  | decided i r inFlight =>
    cases inFlight with
    | true => exact Or.inl ⟨row', hrow', .refl row'⟩
    | false =>
      have hwrite : TableKept s (s.write i r (r.claimed s.now)) :=
        tableKept_write fun _ => rowKept_flush rfl nofun
      exact hwrite j row' hrow'
  | finishing i r success error retryable =>
    refine tableKept_write (fun _ => rowKept_flush ?_ fun hrunning => ?_) j row' hrow'
    · simp only [SyncRequest.finished]
      split
      · rfl
      · split <;> rfl
    · have hidle := finished_inFlight r success error retryable s.now
      simp [SyncRequest.inFlight, hrunning] at hidle
  | recovering rows => exact tableKept_recovered rows s.now s j row' hrow'
  | idle | called | rowLocked => exact Or.inl ⟨row', hrow', .refl row'⟩

/-! ### The invariant -/

/-- What holds between two steps. -/
structure WindowInv (p : State × Watch) : Prop where
  /-- `started_at` is the start of the current run. -/
  began : ∀ i row at_, p.1.requests[i]? = some row → row.startedAt = some at_ →
    p.2.began i = some at_
  /-- What a recovery has selected has not been running for less than its window. -/
  recovering : ∀ k x rows q row, p.1.sessions[k]? = some x → x.phase = .recovering rows →
    q ∈ rows → p.1.requests[q.1]? = some row → row.status = .running →
      lasted p q.1 (p.2.window k) = true

variable {p q : State × Watch}

theorem WindowInv.of_initial (h : WatchedInitial p) : WindowInv p := by
  obtain ⟨⟨hrequests, hsessions⟩, -⟩ := h
  constructor
  · intro i row at_ hrow
    simp [hrequests] at hrow
  · intro k x rows q row hx
    simp [hsessions] at hx

variable {x : Session}

theorem phaseOf_eq (h : s.sessions[k]? = some x) : s.phaseOf k = some x.phase := by
  rw [State.phaseOf, h, Option.map_some]

theorem lasted_of_began {minutes : Nat} (hbegan : q.2.began i = p.2.began i)
    (hnow : p.1.now ≤ q.1.now) (h : lasted p i minutes = true) : lasted q i minutes = true := by
  obtain ⟨at_, hat, hle⟩ := (Option.any_eq_true _ _).mp h
  refine (Option.any_eq_true _ _).mpr ⟨at_, hbegan.trans hat, ?_⟩
  simp only [decide_eq_true_eq] at hle ⊢
  omega

variable {cached : Bool}

theorem note_began {g : Watch} (hx : s.sessions[k]? = some x)
    (hmark : ∀ i r, x.phase ≠ .marking i r) :
    (Watch.note s g (.advance k cached)).began = g.began := by
  simp only [Watch.note, phaseOf_eq hx]
  split
  · next i r heq => exact absurd (Option.some.inj heq) (hmark i r)
  · rfl
  · rfl

theorem note_window {g : Watch} {j : Nat} (hx : s.sessions[k]? = some x)
    (hcall : j = k → ∀ dispatched running, x.phase ≠ .called (.recoverStale dispatched running)) :
    (Watch.note s g (.advance k cached)).window j = g.window j := by
  simp only [Watch.note, phaseOf_eq hx]
  split
  · rfl
  · next dispatched running heq =>
    have hjk : j ≠ k := fun hjk => hcall hjk dispatched running (Option.some.inj heq)
    simp [hjk]
  · rfl

theorem lasted_of_stale (h : WindowInv p) {dispatched running : Nat} {row : SyncRequest}
    (hrow : p.1.requests[i]? = some row) (hstale : row.stale dispatched running p.1.now = true)
    (hrunning : row.status = .running) : lasted p i running = true := by
  simp only [SyncRequest.stale, hrunning, Bool.or_eq_true, Bool.and_eq_true] at hstale
  rcases hstale with ⟨hnot, -⟩ | ⟨-, hstarted⟩
  · cases hnot
  · obtain ⟨at_, hat, hlt⟩ := (Option.any_eq_true _ _).mp hstarted
    refine (Option.any_eq_true _ _).mpr ⟨at_, h.began i row at_ hrow hat, ?_⟩
    simp only [decide_eq_true_eq] at hlt ⊢
    omega

variable {e : Event}

theorem WindowInv.quiet (h : WindowInv p) {a : Action} (hstep : next p.1 a = some (e, q.1))
    (hnote : q.2 = Watch.note p.1 p.2 a) (hrequests : q.1.requests = p.1.requests)
    (ha : ∀ k cached, a ≠ .advance k cached) : WindowInv q := by
  have hsame : q.2 = p.2 := by
    rw [hnote]
    cases a with
    | advance k cached => exact absurd rfl (ha k cached)
    | openSession | call | rollback | tick => rfl
  constructor
  · intro i row at_ hrow hat
    rw [hsame]
    exact h.began i row at_ (hrequests ▸ hrow) hat
  · intro k x rows r row hx hphase hr hrow hrunning
    rcases recovering_of_next hstep hx hphase with hx' | ⟨cached, -, -, -, rfl, -⟩
    · rw [hrequests] at hrow
      refine lasted_of_began (by rw [hsame]) (next_now hstep) ?_
      rw [hsame]
      exact h.recovering k x rows r row hx' hphase hr hrow hrunning
    · exact absurd rfl (ha k cached)

theorem WindowInv.mark (h : WindowInv p) {r : SyncRequest}
    (hstep : next p.1 (.advance k cached) = some (e, q.1))
    (hnote : q.2 = Watch.note p.1 p.2 (.advance k cached)) (hx : Advanced p.1 k x q.1)
    (hphase : x.phase = .marking i r) (hstarted : r.startedAt = none)
    (hselected : p.1.selected i = false) : WindowInv q := by
  have hrequests : q.1.requests = (p.1.write i r (r.marked p.1.now)).requests := by
    rw [hx.requests, hphase]
    rfl
  have hbegan (j : Nat) : q.2.began j = if j = i then some p.1.now else p.2.began j := by
    rw [hnote]
    simp [Watch.note, phaseOf_eq hx.session, hphase]
  have hwindow (j : Nat) : q.2.window j = p.2.window j := by
    rw [hnote]
    refine note_window hx.session fun _ dispatched running hcalled => ?_
    rw [hphase] at hcalled
    cases hcalled
  constructor
  · intro j row' at_ hrow' hat
    rw [hrequests] at hrow'
    obtain ⟨row, hrow, ⟨rfl, rfl⟩ | ⟨hji, rfl⟩⟩ := of_getElem?_write hrow'
    · have hnow : (r.flush (r.marked p.1.now) row).startedAt = some p.1.now := by
        simp [SyncRequest.flush, flushed, SyncRequest.marked, hstarted]
      rw [hbegan, if_pos rfl, ← hat, hnow]
    · rw [hbegan, if_neg hji]
      exact h.began j row' at_ hrow hat
  · intro j y rows s row' hy hyphase hs hrow' hrunning
    rcases recovering_of_next hstep hy hyphase with
      hy' | ⟨cached', x', dispatched, running, ha, hx', hcall, -⟩
    · have hne : s.1 ≠ i := by
        rintro rfl
        have hall := List.any_eq_false.mp hselected y (List.mem_of_getElem? hy')
        rw [hyphase] at hall
        exact hall (List.any_eq_true.mpr ⟨s, hs, by simp⟩)
      rw [hrequests] at hrow'
      obtain ⟨row, hrow, ⟨rfl, -⟩ | ⟨-, rfl⟩⟩ := of_getElem?_write hrow'
      · exact absurd rfl hne
      · refine lasted_of_began (by rw [hbegan, if_neg hne]) (next_now hstep) ?_
        rw [hwindow]
        exact h.recovering j y rows s row' hy' hyphase hs hrow hrunning
    · cases ha
      rw [hx.session] at hx'
      cases hx'
      rw [hphase] at hcall
      cases hcall

theorem WindowInv.advance (h : WindowInv p) (hstep : next p.1 (.advance k cached) = some (e, q.1))
    (hnote : q.2 = Watch.note p.1 p.2 (.advance k cached)) (hx : Advanced p.1 k x q.1)
    (hmark : ∀ i r, x.phase ≠ .marking i r) : WindowInv q := by
  have hkept := tableKept_after hmark hx.requests
  have hbegan : q.2.began = p.2.began := by rw [hnote, note_began hx.session hmark]
  constructor
  · intro j row' at_ hrow' hat
    rcases hkept j row' hrow' with ⟨row, hrow, hsame, -⟩ | ⟨hnone, -⟩
    · rw [hbegan]
      exact h.began j row at_ hrow (hsame ▸ hat)
    · rw [hnone] at hat
      cases hat
  · intro j y rows s row' hy hyphase hs hrow' hrunning
    rcases hkept s.1 row' hrow' with ⟨row, hrow, -, hwas⟩ | ⟨-, hidle⟩
    · rcases recovering_of_next hstep hy hyphase with
        hy' | ⟨cached', x', dispatched, running, ha, hx', hcall, hstale⟩
      · refine lasted_of_began (by rw [hbegan]) (next_now hstep) ?_
        have hwindow : q.2.window j = p.2.window j := by
          rw [hnote]
          refine note_window hx.session fun hjk dispatched running hcalled => ?_
          subst hjk
          rw [hx.session] at hy'
          cases hy'
          rw [hyphase] at hcalled
          cases hcalled
        rw [hwindow]
        exact h.recovering j y rows s row hy' hyphase hs hrow (hwas hrunning)
      · cases ha
        obtain ⟨row₀, hrow₀, hrowstale⟩ := hstale s hs
        rw [hrow] at hrow₀
        cases hrow₀
        have hwindow : q.2.window k = running := by
          rw [hnote]
          simp [Watch.note, phaseOf_eq hx', hcall]
        refine lasted_of_began (by rw [hbegan]) (next_now hstep) ?_
        rw [hwindow]
        exact lasted_of_stale h hrow hrowstale (hwas hrunning)
    · exact absurd hrunning hidle

theorem WindowInv.step {a : Action} (h : WindowInv p) (hc : FirstRun p a)
    (hstep : WatchedStep p a q) : WindowInv q := by
  obtain ⟨⟨e, hnext⟩, hnote⟩ := by_watched_iff.mp hstep
  rcases next_requests hnext with ⟨hrequests, ha⟩ | ⟨k, cached, x, rfl, hx⟩
  · exact h.quiet hnext hnote hrequests ha
  · by_cases hmark : ∃ i r, x.phase = .marking i r
    · obtain ⟨i, r, hphase⟩ := hmark
      have hfirst : (r.startedAt.isNone && !p.1.selected i) = true := by
        simpa only [FirstRun, firstRun, phaseOf_eq hx.session, hphase] using hc
      obtain ⟨hstarted, hselected⟩ := Bool.and_eq_true_iff.mp hfirst
      exact h.mark hnext hnote hx hphase (Option.isNone_iff_eq_none.mp hstarted)
        (by simpa using hselected)
    · exact h.advance hnext hnote hx fun i r hphase => hmark ⟨i, r, hphase⟩

theorem WindowInv.requeuesStale (h : WindowInv p) (a : Action) : RequeuesStale p a := by
  cases a with
  | advance k cached =>
    simp only [RequeuesStale, Sync.requeuesStale]
    split
    · next rows hphase =>
      obtain ⟨x, hx, hrows⟩ := Option.map_eq_some_iff.mp hphase
      refine List.all_eq_true.mpr fun row hrow => ?_
      by_cases hrequeues : p.1.requeues row = true
      · obtain ⟨found, hfound, hrunning⟩ := (Option.any_eq_true _ _).mp hrequeues
        have hlasted := h.recovering k x rows row found hx hrows hrow hfound
          (by simpa using (Bool.and_eq_true_iff.mp hrunning).1)
        simp [hlasted]
      · simp [hrequeues]
    · rfl
  | openSession | call | rollback | tick => rfl

/-- **The recovery window** is kept in every run that marks a request running once only, and not
between the selection and the commit of a recovery. -/
theorem recovery_window_of_firstRuns {tr : List ((State × Watch) × Action)} {p : State × Watch}
    (r : Run WatchedInitial WatchedStep tr p) (hc : Throughout FirstRun tr) :
    Throughout RequeuesStale tr :=
  r.always (I := WindowInv) (fun _ => WindowInv.of_initial)
    (fun _ _ _ hi hc hs => hi.step hc hs) (fun _ a _ hi _ _ => hi.requeuesStale a) hc

def unwatched : State × Watch := (emptyQueue, ⟨fun _ => none, fun _ => 0⟩)

def hangingWalk : List Action :=
  startedPoll ++ .tick 20000 :: carried 0 (.recoverStale 15 180) 2

theorem recovery_window_of_firstRuns_hangingWalk :
    Throughout RequeuesStale
      ((play (watched next Watch.note) [] unwatched hangingWalk).get (by decide)).1 :=
  recovery_window_of_firstRuns (run_play ⟨⟨rfl, rfl⟩, rfl⟩ (by decide)) (by decide)

/-- A walk fails and is retried four hours later; the recovery that comes meanwhile requeues it. -/
def retriedWalk : List Action :=
  startedPoll ++ carried 1 (.finish 0 false none true) 2 ++ .tick 14400 ::
    carried 0 (.claim 0) 3 ++ carried 1 (.markRunning 0) 2 ++ carried 0 (.recoverStale 15 180) 2

theorem retriedWalk_plays :
    (play (watched next Watch.note) [] unwatched retriedWalk).isSome = true := by decide

/-- The second run of a request is requeued as it starts. -/
theorem retried_request_recovered :
    ¬ ∀ (tr : List ((State × Watch) × Action)) (p : State × Watch),
      Run WatchedInitial WatchedStep tr p → Throughout RequeuesStale tr := by
  intro h
  exact absurd (h _ _ (run_play ⟨⟨rfl, rfl⟩, rfl⟩ retriedWalk_plays)) (by decide)

end QnscKb.Sync
