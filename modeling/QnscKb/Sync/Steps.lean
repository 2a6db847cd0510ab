import QnscKb.Sync.Queue

/-!
# Sync — Steps

What one step of the queue does to its table and its clock.  Only the steps of a call write, each as
its phase says; every invariant of the table is a case analysis of `State.after`.
-/

namespace QnscKb.Sync

open Runs

/-! ### The table after a call's step -/

/-- The table once a call in this phase has gone on. -/
def State.after (s : State) : Phase → List SyncRequest
  | .coalescing i r reason priority => (s.write i r (r.coalesced reason priority s.now)).requests
  | .inserting c scope reason priority =>
    s.requests ++ [SyncRequest.enqueued c scope reason priority s.now]
  | .decided i r false => (s.write i r (r.claimed s.now)).requests
  | .marking i r => (s.write i r (r.marked s.now)).requests
  | .finishing i r success error retryable =>
    (s.write i r (r.finished success error retryable s.now)).requests
  | .recovering rows =>
    (rows.foldl (fun t row => t.write row.1 row.2 (row.2.recovered s.now)) s).requests
  | _ => s.requests

/-- The rows are of the table, and stale for these windows. -/
def StaleRows (s : State) (staleAfterMinutes runningStaleAfterMinutes : Nat)
    (rows : List (Nat × SyncRequest)) : Prop :=
  ∀ p ∈ rows, ∃ row, s.requests[p.1]? = some row ∧
    row.stale staleAfterMinutes runningStaleAfterMinutes s.now = true

/-- A call of session `k` has gone on from `s` to `t`. -/
structure Advanced (s : State) (k : Nat) (x : Session) (t : State) : Prop where
  session : s.sessions[k]? = some x
  requests : t.requests = s.after x.phase
  now : t.now = s.now
  sessions : ∃ y, t.sessions = s.sessions.set k y ∧ ∀ rows, y.phase = .recovering rows →
    ∃ dispatched running, x.phase = .called (.recoverStale dispatched running) ∧
      StaleRows s dispatched running rows

variable {s t : State} {k : Nat} {x : Session} {e : Event}

theorem Advanced.stay {phase : Phase} (hx : s.sessions[k]? = some x)
    (hafter : s.after x.phase = s.requests) (hphase : ∀ rows, phase ≠ .recovering rows) :
    Advanced s k x (s.put k { x with phase := phase }) where
  session := hx
  requests := hafter.symm
  now := rfl
  sessions := ⟨_, rfl, fun rows h => absurd h (hphase rows)⟩

variable {i j : Nat} {changed loaded : SyncRequest}

theorem Advanced.write {r : SyncRequest} (hx : s.sessions[k]? = some x)
    (hafter : s.after x.phase = (s.write i r changed).requests) :
    Advanced s k x ((s.write i r changed).put k (x.done i changed)) where
  session := hx
  requests := hafter.symm
  now := rfl
  sessions := ⟨_, rfl, nofun⟩

variable {cached : Bool}

theorem Advanced.object {phase : SyncRequest → Phase} (hx : s.sessions[k]? = some x)
    (hafter : s.after x.phase = s.requests) (hphase : ∀ r rows, phase r ≠ .recovering rows)
    (hstep : (match s.object x cached i with
      | none => some (Event.quiet, s.put k { x with phase := .idle })
      | some r => some (Event.quiet, s.put k { x with phase := phase r })) = some (e, t)) :
    Advanced s k x t := by
  split at hstep
  · cases hstep
    exact .stay hx hafter nofun
  · cases hstep
    exact .stay hx hafter (hphase _)

theorem recovered_sessions (rows : List (Nat × SyncRequest)) (now : Nat) (s : State) :
    (rows.foldl (fun t row => t.write row.1 row.2 (row.2.recovered now)) s).sessions =
      s.sessions ∧
    (rows.foldl (fun t row => t.write row.1 row.2 (row.2.recovered now)) s).now = s.now := by
  induction rows generalizing s with
  | nil => exact ⟨rfl, rfl⟩
  | cons row rows ih => exact ih (s.write row.1 row.2 (row.2.recovered now))

theorem advance_called_inv {call : Call} (hx : s.sessions[k]? = some x)
    (hphase : x.phase = .called call) (h : advance s k cached = some (e, t)) :
    Advanced s k x t := by
  have hafter : s.after x.phase = s.requests := by rw [hphase]; rfl
  cases call with
  | enqueue c scope reason priority =>
    simp only [advance, hx, Option.bind_eq_bind, Option.bind_some, hphase] at h
    split at h
    · cases h
      exact .stay hx hafter nofun
    · exact .object hx hafter (by intro _ _ hr; cases hr) h
  | claim i =>
    simp only [advance, hx, Option.bind_eq_bind, Option.bind_some, hphase] at h
    split at h
    · cases h
      exact .stay hx hafter nofun
    · split at h
      · exact .object hx hafter (by intro _ _ hr; cases hr) h
      · cases h
        exact .stay hx hafter nofun
  | markRunning i =>
    simp only [advance, hx, Option.bind_eq_bind, Option.bind_some, hphase] at h
    exact .object hx hafter (by intro _ _ hr; cases hr) h
  | finish i success error retryable =>
    simp only [advance, hx, Option.bind_eq_bind, Option.bind_some, hphase] at h
    exact .object hx hafter (by intro _ _ hr; cases hr) h
  | recoverStale dispatchedMinutes runningMinutes =>
    simp only [advance, hx, Option.bind_eq_bind, Option.bind_some, hphase, Option.some.injEq,
      Prod.mk.injEq] at h
    obtain ⟨-, rfl⟩ := h
    refine ⟨hx, hafter.symm, rfl, _, rfl, fun rows hrows => ?_⟩
    cases hrows
    refine ⟨_, _, hphase, fun p hp => ?_⟩
    obtain ⟨row, hrow, hp⟩ := List.mem_filterMap.mp hp
    obtain ⟨r, -, rfl⟩ := Option.map_eq_some_iff.mp hp
    obtain ⟨hmem, hstale⟩ := List.mem_filter.mp hrow
    exact ⟨row.1, List.mem_zipIdx_iff_getElem?.mp hmem, hstale⟩

/-- **A call goes on** as its phase says. -/
theorem advance_inv (h : advance s k cached = some (e, t)) : ∃ x, Advanced s k x t := by
  cases hx : s.sessions[k]? with
  | none => simp [advance, hx] at h
  | some x =>
    refine ⟨x, ?_⟩
    have hcall := h
    simp only [advance, hx, Option.bind_eq_bind, Option.bind_some] at h
    cases hphase : x.phase with
    | idle => simp [hphase] at h
    | called call => exact advance_called_inv hx hphase hcall
    | coalescing | finishing =>
      simp only [hphase] at h
      split at h
      · cases h
      · cases h
        exact .write hx (by rw [hphase]; rfl)
    | inserting c scope reason priority =>
      simp only [hphase] at h
      cases h
      exact ⟨hx, by rw [hphase]; rfl, rfl, _, rfl, nofun⟩
    | rowLocked i r =>
      simp only [hphase] at h
      split at h
      · cases h
      · cases h
        exact .stay hx (by rw [hphase]; rfl) nofun
    | decided i r inFlight =>
      simp only [hphase] at h
      cases inFlight with
      | true =>
        cases h
        exact ⟨hx, by rw [hphase]; rfl, rfl, _, rfl, nofun⟩
      | false =>
        cases h
        exact .write hx (by rw [hphase]; rfl)
    | marking i r =>
      simp only [hphase] at h
      split at h
      · cases h
      · obtain ⟨-, rfl⟩ := by simpa using h
        exact .write hx (by rw [hphase]; rfl)
    | recovering rows =>
      simp only [hphase] at h
      split at h
      · cases h
      · cases h
        obtain ⟨hsessions, hnow⟩ := recovered_sessions rows s.now s
        have hput : ((rows.foldl (fun t row => t.write row.1 row.2 (row.2.recovered s.now)) s).put
            k ⟨rows.map (fun row => (row.1, row.2.recovered s.now)) ++ x.memory, .idle⟩).sessions =
            s.sessions.set k
              ⟨rows.map (fun row => (row.1, row.2.recovered s.now)) ++ x.memory, .idle⟩ := by
          rw [State.put, hsessions]
        exact ⟨hx, by rw [hphase]; rfl, hnow, _, hput, nofun⟩

/-! ### A step of the system -/

variable {a : Action}

/-- A call is made in an idle session, which then carries it out. -/
theorem next_call_inv {call : Call} (h : next s (.call k call) = some (e, t)) :
    ∃ x, s.sessions[k]? = some x ∧ t = s.put k { x with phase := .called call } := by
  cases hx : s.sessions[k]? with
  | none => simp [next, hx] at h
  | some x =>
    simp only [next, hx] at h
    by_cases hphase : x.phase = .idle
    · obtain ⟨-, rfl⟩ := by simpa [hphase] using h
      exact ⟨x, rfl, rfl⟩
    · simp [hphase] at h

/-- **The table after a step**: a call's phase says it, and no other step writes. -/
theorem next_requests (h : next s a = some (e, t)) :
    (t.requests = s.requests ∧ ∀ k cached, a ≠ .advance k cached) ∨
      ∃ k cached x, a = .advance k cached ∧ Advanced s k x t := by
  cases a with
  | openSession =>
    cases h
    exact Or.inl ⟨rfl, nofun⟩
  | call k call =>
    obtain ⟨x, -, rfl⟩ := next_call_inv h
    exact Or.inl ⟨rfl, nofun⟩
  | advance k cached =>
    obtain ⟨x, hx⟩ := advance_inv h
    exact Or.inr ⟨k, cached, x, rfl, hx⟩
  | rollback k =>
    cases h
    exact Or.inl ⟨rfl, nofun⟩
  | tick seconds =>
    cases h
    exact Or.inl ⟨rfl, nofun⟩

theorem next_now (h : next s a = some (e, t)) : s.now ≤ t.now := by
  cases a with
  | openSession | rollback k =>
    cases h
    exact Nat.le_refl _
  | call k call =>
    obtain ⟨x, -, rfl⟩ := next_call_inv h
    exact Nat.le_refl _
  | advance k cached =>
    obtain ⟨x, hx⟩ := advance_inv h
    exact Nat.le_of_eq hx.now.symm
  | tick seconds =>
    cases h
    exact Nat.le_add_right _ _

theorem getElem?_set_sessions {sessions : List Session} {y z : Session}
    (h : (sessions.set k z)[j]? = some y) : (j = k ∧ y = z) ∨ sessions[j]? = some y := by
  rw [List.getElem?_set] at h
  split at h
  · next hkj =>
    split at h
    · exact Or.inl ⟨hkj.symm, (Option.some.inj h).symm⟩
    · cases h
  · exact Or.inr h

/-- **A session that recovers** did so before, or has just selected its rows. -/
theorem recovering_of_next (h : next s a = some (e, t)) {y : Session}
    {rows : List (Nat × SyncRequest)} (hy : t.sessions[j]? = some y)
    (hrows : y.phase = .recovering rows) :
    s.sessions[j]? = some y ∨ ∃ cached x dispatched running, a = .advance j cached ∧
      s.sessions[j]? = some x ∧ x.phase = .called (.recoverStale dispatched running) ∧
        StaleRows s dispatched running rows := by
  cases a with
  | openSession =>
    cases h
    left
    have hnew : (s.sessions ++ [(⟨[], .idle⟩ : Session)])[j]? = some y := hy
    rw [List.getElem?_append] at hnew
    split at hnew
    · exact hnew
    · rw [List.getElem?_singleton] at hnew
      split at hnew
      · obtain rfl := Option.some.inj hnew
        cases hrows
      · cases hnew
  | call k call =>
    obtain ⟨x, -, rfl⟩ := next_call_inv h
    rcases getElem?_set_sessions hy with ⟨-, rfl⟩ | hy
    · cases hrows
    · exact Or.inl hy
  | advance k cached =>
    obtain ⟨x, hx⟩ := advance_inv h
    obtain ⟨z, hz, hselect⟩ := hx.sessions
    rw [hz] at hy
    rcases getElem?_set_sessions hy with ⟨rfl, rfl⟩ | hy
    · obtain ⟨dispatched, running, hphase, hstale⟩ := hselect rows hrows
      exact Or.inr ⟨cached, x, dispatched, running, rfl, hx.session, hphase, hstale⟩
    · exact Or.inl hy
  | rollback k =>
    cases h
    rcases getElem?_set_sessions hy with ⟨-, rfl⟩ | hy
    · cases hrows
    · exact Or.inl hy
  | tick seconds =>
    cases h
    exact Or.inl hy

theorem flush_status_of_kept {row : SyncRequest} (h : changed.status = loaded.status) :
    (loaded.flush changed row).status = row.status :=
  if_pos h

theorem flush_status (loaded changed row : SyncRequest) :
    (loaded.flush changed row).status = row.status ∨
      (loaded.flush changed row).status = changed.status := by
  simp only [SyncRequest.flush, flushed]
  split
  · exact Or.inl rfl
  · exact Or.inr rfl

theorem flush_startedAt_of_kept {row : SyncRequest} (h : changed.startedAt = loaded.startedAt) :
    (loaded.flush changed row).startedAt = row.startedAt :=
  if_pos h

theorem of_getElem?_write {row' : SyncRequest}
    (h : (s.write i loaded changed).requests[j]? = some row') :
    ∃ row, s.requests[j]? = some row ∧
      ((j = i ∧ row' = loaded.flush changed row) ∨ (j ≠ i ∧ row' = row)) := by
  rw [State.write, List.getElem?_modify] at h
  obtain ⟨row, hrow, rfl⟩ := Option.map_eq_some_iff.mp h
  refine ⟨row, hrow, ?_⟩
  by_cases hij : i = j
  · exact Or.inl ⟨hij.symm, by simp [hij]⟩
  · exact Or.inr ⟨fun hji => hij hji.symm, by simp [hij]⟩

end QnscKb.Sync
