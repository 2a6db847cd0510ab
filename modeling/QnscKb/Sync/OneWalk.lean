import QnscKb.Sync.Steps

/-!
# Sync — One walk

At most one request of a connector is dispatched or running.  `claim_sync_request` keeps it, by the
lock of an idle connector until its commit, and no other call puts a request in flight but
`mark_sync_request_running`, which asks nothing of the row it writes.
-/

namespace QnscKb.Sync

open Runs

/-- One walk of a connector at a time. -/
def OneWalk (s : State) : Prop :=
  ∀ i j : Nat, ∀ r r' : SyncRequest, s.requests[i]? = some r → s.requests[j]? = some r' →
    r.inFlight = true → r'.inFlight = true → r.connectorId = r'.connectorId → i = j

/-- A worker marks a request running while it is dispatched or running. -/
def MarksInFlight (s : State) : Event → Prop
  | .quiet => True
  | .marks i => (s.requests[i]?).all SyncRequest.inFlight = true

instance (s : State) (e : Event) : Decidable (MarksInFlight s e) :=
  match e with
  | .quiet => .isTrue trivial
  | .marks _ => inferInstanceAs (Decidable (_ = true))

/-- The objects a call holds. -/
def Phase.objects : Phase → List (Nat × SyncRequest)
  | .coalescing i r _ _ => [(i, r)]
  | .rowLocked i r => [(i, r)]
  | .decided i r _ => [(i, r)]
  | .marking i r => [(i, r)]
  | .finishing i r _ _ _ => [(i, r)]
  | .recovering rows => rows
  | .idle => []
  | .called _ => []
  | .inserting _ _ _ _ => []

/-- The object is of a row of its connector. -/
def OfRow (s : State) (p : Nat × SyncRequest) : Prop :=
  ∃ row, s.requests[p.1]? = some row ∧ row.connectorId = p.2.connectorId

/-- What holds between two steps. -/
structure Inv (s : State) : Prop where
  oneWalk : OneWalk s
  memory : ∀ x ∈ s.sessions, ∀ p ∈ x.memory, OfRow s p
  objects : ∀ x ∈ s.sessions, ∀ p ∈ x.phase.objects, OfRow s p
  /-- A session that has found a connector idle is right until it commits. -/
  idle : ∀ x ∈ s.sessions, ∀ i r, x.phase = .decided i r false → ∀ j row,
    s.requests[j]? = some row → row.connectorId = r.connectorId → row.inFlight = true → j = i
  /-- The lock of a connector has one holder. -/
  lock : ∀ (k k' : Nat) (x x' : Session) (c : Nat), s.sessions[k]? = some x →
    s.sessions[k']? = some x' → x.phase.lockedConnector = some c →
    x'.phase.lockedConnector = some c → k = k'

variable {s : State}

theorem Inv.of_initial (h : Initial s) : Inv s := by
  obtain ⟨hrequests, hsessions⟩ := h
  refine ⟨?_, ?_, ?_, ?_, ?_⟩
  · intro i j r r' hi
    simp [hrequests] at hi
  · simp [hsessions]
  · simp [hsessions]
  · simp [hsessions]
  · intro k k' x x' c hk
    simp [hsessions] at hk

/-! ### Tables -/

/-- A change of the table that puts no request in flight. -/
structure Calm (s t : State) : Prop where
  rows : ∀ (i : Nat) (row : SyncRequest), s.requests[i]? = some row →
    ∃ row', t.requests[i]? = some row' ∧ row'.connectorId = row.connectorId
  inFlight : ∀ (i : Nat) (row' : SyncRequest), t.requests[i]? = some row' → row'.inFlight = true →
    ∃ row, s.requests[i]? = some row ∧ row.inFlight = true ∧ row.connectorId = row'.connectorId

theorem Calm.refl (s : State) : Calm s s where
  rows _ row h := ⟨row, h, rfl⟩
  inFlight _ row h hf := ⟨row, h, hf, rfl⟩

/-- Changes that put no request in flight add up to one that does not. -/
theorem Calm.trans {t u : State} (h : Calm s t) (h' : Calm t u) : Calm s u where
  rows i row hrow := by
    obtain ⟨row', hrow', hc⟩ := h.rows i row hrow
    obtain ⟨row'', hrow'', hc'⟩ := h'.rows i row' hrow'
    exact ⟨row'', hrow'', hc'.trans hc⟩
  inFlight i row'' hrow'' hf := by
    obtain ⟨row', hrow', hf', hc'⟩ := h'.inFlight i row'' hrow'' hf
    obtain ⟨row, hrow, hf, hc⟩ := h.inFlight i row' hrow' hf'
    exact ⟨row, hrow, hf, hc.trans hc'⟩

/-- An object is still of a row of its connector after a change of the table. -/
theorem OfRow.calm {t : State} {p : Nat × SyncRequest} (h : OfRow s p) (hc : Calm s t) :
    OfRow t p := by
  obtain ⟨row, hrow, hconnector⟩ := h
  obtain ⟨row', hrow', hc'⟩ := hc.rows p.1 row hrow
  exact ⟨row', hrow', hc'.trans hconnector⟩

theorem getElem?_write (s : State) (i : Nat) (loaded changed : SyncRequest) (j : Nat) :
    (s.write i loaded changed).requests[j]? =
      if i = j then (loaded.flush changed) <$> s.requests[j]? else s.requests[j]? := by
  rw [State.write]
  split <;> simp_all

variable {i j : Nat} {loaded changed r : SyncRequest}

/-- A write that puts no request in flight is calm. -/
theorem calm_write
    (h : ∀ row, s.requests[i]? = some row → (loaded.flush changed row).inFlight = true →
        row.inFlight = true) :
    Calm s (s.write i loaded changed) := by
  refine ⟨fun j row hrow => ?_, fun j row' hrow' hf => ?_⟩
  · rw [getElem?_write]
    split
    · exact ⟨loaded.flush changed row, by simp [hrow], rfl⟩
    · exact ⟨row, hrow, rfl⟩
  · rw [getElem?_write] at hrow'
    split at hrow'
    · next hij =>
      subst hij
      obtain ⟨row, hrow, rfl⟩ := Option.map_eq_some_iff.mp hrow'
      exact ⟨row, hrow, h row hrow hf, rfl⟩
    · exact ⟨row', hrow', hf, rfl⟩

/-- A flush puts a row in flight only where the object's status was changed to be so. -/
theorem inFlight_of_flush {row : SyncRequest}
    (h : changed.inFlight = false ∨ changed.status = loaded.status)
    (hf : (loaded.flush changed row).inFlight = true) : row.inFlight = true := by
  by_cases hs : changed.status = loaded.status
  · simpa [SyncRequest.inFlight, SyncRequest.flush, flushed, hs] using hf
  · have hc := h.resolve_right hs
    simp only [SyncRequest.inFlight, SyncRequest.flush, flushed, if_neg hs] at hf hc
    rw [hc] at hf
    cases hf

/-- A request that is finished is not in flight. -/
theorem finished_inFlight (r : SyncRequest) (success : Bool) (error : Option Text)
    (retryable : Bool) (now : Nat) : (r.finished success error retryable now).inFlight = false := by
  simp only [SyncRequest.finished]
  split
  · rfl
  · split <;> rfl

/-- A new request that is not in flight changes nothing for the others. -/
theorem calm_append (h : r.inFlight = false) :
    Calm s { s with requests := s.requests ++ [r] } where
  rows i row hrow := ⟨row, by
    rw [List.getElem?_append_left (List.getElem?_eq_some_iff.mp hrow).1, hrow], rfl⟩
  inFlight i row hrow hf := by
    rcases Nat.lt_or_ge i s.requests.length with hlt | hge
    · rw [List.getElem?_append_left hlt] at hrow
      exact ⟨row, hrow, hf, rfl⟩
    · rw [List.getElem?_append_right hge, List.getElem?_singleton] at hrow
      split at hrow
      · obtain rfl := Option.some.inj hrow
        rw [h] at hf
        cases hf
      · cases hrow

/-! ### What a step keeps -/

variable {s t : State} {k : Nat} {x : Session}

/-- A change that puts no request in flight keeps one walk a connector. -/
theorem OneWalk.calm (h : OneWalk s) (hc : Calm s t) : OneWalk t := by
  intro i j r r' hi hj hr hr' hconnector
  obtain ⟨row, hrow, hf, hcr⟩ := hc.inFlight i r hi hr
  obtain ⟨row', hrow', hf', hcr'⟩ := hc.inFlight j r' hj hr'
  exact h i j row row' hrow hrow' hf hf' (by rw [hcr, hcr', hconnector])

/-- A calm change of the table keeps the invariant, where no session changes. -/
theorem Inv.calm (h : Inv s) (hc : Calm s t) (hsessions : t.sessions = s.sessions) : Inv t := by
  refine ⟨h.oneWalk.calm hc, ?_, ?_, ?_, ?_⟩
  · rw [hsessions]
    exact fun y hy p hp => (h.memory y hy p hp).calm hc
  · rw [hsessions]
    exact fun y hy p hp => (h.objects y hy p hp).calm hc
  · rw [hsessions]
    intro y hy i r hphase j row hrow hconnector hf
    obtain ⟨row', hrow', hf', hc'⟩ := hc.inFlight j row hrow hf
    exact h.idle y hy i r hphase j row' hrow' (hc'.trans hconnector) hf'
  · rw [hsessions]
    exact h.lock

theorem mem_put {y : Session} (h : y ∈ (s.put k x).sessions) : y = x ∨ y ∈ s.sessions :=
  (List.mem_or_eq_of_mem_set h).symm

theorem getElem?_put {y : Session} (h : (s.put k x).sessions[j]? = some y) :
    (j = k ∧ y = x) ∨ (j ≠ k ∧ s.sessions[j]? = some y) := by
  rw [State.put, List.getElem?_set] at h
  split at h
  · next hkj =>
    split at h
    · exact .inl ⟨hkj.symm, (Option.some.inj h).symm⟩
    · cases h
  · next hkj => exact .inr ⟨fun hjk => hkj hjk.symm, h⟩

/-- A session may go on with objects of rows, as long as it takes no lock. -/
theorem Inv.put (h : Inv s) (hmemory : ∀ p ∈ x.memory, OfRow s p)
    (hobjects : ∀ p ∈ x.phase.objects, OfRow s p) (hlock : x.phase.lockedConnector = none) :
    Inv (s.put k x) := by
  refine ⟨h.oneWalk, ?_, ?_, ?_, ?_⟩
  · intro y hy
    rcases mem_put hy with rfl | hy
    · exact hmemory
    · exact h.memory y hy
  · intro y hy
    rcases mem_put hy with rfl | hy
    · exact hobjects
    · exact h.objects y hy
  · intro y hy i r hphase
    rcases mem_put hy with rfl | hy
    · rw [hphase] at hlock
      cases hlock
    · exact h.idle y hy i r hphase
  · intro j j' y y' c hj hj' hy hy'
    rcases getElem?_put hj with ⟨-, rfl⟩ | ⟨-, hj⟩
    · rw [hlock] at hy
      cases hy
    · rcases getElem?_put hj' with ⟨-, rfl⟩ | ⟨-, hj'⟩
      · rw [hlock] at hy'
        cases hy'
      · exact h.lock j j' y y' c hj hj' hy hy'

/-- The end of a call keeps the invariant. -/
theorem Inv.done (h : Inv s) (hx : x ∈ s.sessions) (hr : OfRow s (i, r)) :
    Inv (s.put k (x.done i r)) := by
  refine h.put (fun p hp => ?_) (by simp [Session.done, Phase.objects]) rfl
  rcases List.mem_cons.mp hp with rfl | hp
  · exact hr
  · exact h.memory x hx p hp

variable {cached : Bool}

/-- An object that a session gets is of the row it is asked for. -/
theorem ofRow_of_object (h : Inv s) (hx : x ∈ s.sessions) (hr : s.object x cached i = some r) :
    OfRow s (i, r) := by
  simp only [State.object] at hr
  split at hr
  · next entry hentry =>
    obtain rfl := Option.some.inj hr
    cases cached with
    | false => cases hentry
    | true =>
      have hi : entry.1 = i := by simpa using List.find?_some hentry
      subst hi
      exact h.memory x hx entry (List.mem_of_find?_eq_some hentry)
  · exact ⟨r, hr, rfl⟩

/-- A connector that was found idle has no request in flight but the one asked about. -/
theorem inFlightBeside_eq_false {c : Nat} (h : s.inFlightBeside c i = false) {row : SyncRequest}
    (hrow : s.requests[j]? = some row) (hc : row.connectorId = c) (hf : row.inFlight = true) :
    j = i := by
  by_contra hne
  have hmem : (row, j) ∈ s.requests.zipIdx := List.mem_zipIdx_iff_getElem?.mpr hrow
  have hall := List.any_eq_false.mp h (row, j) hmem
  simp [hc, hf, hne] at hall

/-- A session that finds its connector unlocked locks it, with what it has found. -/
theorem Inv.decide (h : Inv s) (hx : s.sessions[k]? = some x) (hphase : x.phase = .rowLocked i r)
    (hfree : s.connectorBusy r.connectorId = false) :
    Inv (s.put k { x with phase := .decided i r (s.inFlightBeside r.connectorId i) }) := by
  have hmem : x ∈ s.sessions := List.mem_of_getElem? hx
  have hnone : ∀ (j : Nat) (y : Session), s.sessions[j]? = some y →
      y.phase.lockedConnector ≠ some r.connectorId := by
    intro j y hj hy
    have hall := List.any_eq_false.mp hfree y (List.mem_of_getElem? hj)
    simp [hy] at hall
  refine ⟨h.oneWalk, ?_, ?_, ?_, ?_⟩
  · intro y hy
    rcases mem_put hy with rfl | hy
    · exact h.memory x hmem
    · exact h.memory y hy
  · intro y hy
    rcases mem_put hy with rfl | hy
    · have hobjects := h.objects x hmem
      rw [hphase] at hobjects
      exact hobjects
    · exact h.objects y hy
  · intro y hy i' r' hphase'
    rcases mem_put hy with rfl | hy
    · obtain ⟨rfl, rfl, hbeside⟩ : i = i' ∧ r = r' ∧ s.inFlightBeside r.connectorId i = false := by
        simpa using hphase'
      exact fun j row hrow hc hf => inFlightBeside_eq_false hbeside hrow hc hf
    · exact h.idle y hy i' r' hphase'
  · intro j j' y y' c hj hj' hy hy'
    rcases getElem?_put hj with ⟨rfl, rfl⟩ | ⟨-, hj⟩
    · obtain rfl : r.connectorId = c := by simpa [Phase.lockedConnector] using hy
      rcases getElem?_put hj' with ⟨rfl, -⟩ | ⟨-, hj'⟩
      · rfl
      · exact absurd hy' (hnone j' y' hj')
    · rcases getElem?_put hj' with ⟨-, rfl⟩ | ⟨-, hj'⟩
      · obtain rfl : r.connectorId = c := by simpa [Phase.lockedConnector] using hy'
        exact absurd hy (hnone j y hj)
      · exact h.lock j j' y y' c hj hj' hy hy'

theorem of_write {row' : SyncRequest} (h : (s.write i loaded changed).requests[j]? = some row') :
    ∃ row, s.requests[j]? = some row ∧ row'.connectorId = row.connectorId ∧
      (j ≠ i → row' = row) := by
  rw [getElem?_write] at h
  split at h
  · next hij =>
    obtain ⟨row, hrow, rfl⟩ := Option.map_eq_some_iff.mp h
    exact ⟨row, hrow, rfl, fun hne => absurd hij.symm hne⟩
  · exact ⟨row', h, rfl, fun _ => rfl⟩

/-- A write keeps the connector of every row. -/
theorem OfRow.write {p : Nat × SyncRequest} (h : OfRow s p) (i : Nat)
    (loaded changed : SyncRequest) : OfRow (s.write i loaded changed) p := by
  obtain ⟨row, hrow, hc⟩ := h
  by_cases hi : i = p.1
  · exact ⟨loaded.flush changed row, by rw [getElem?_write, if_pos hi, hrow]; rfl, hc⟩
  · exact ⟨row, by rw [getElem?_write, if_neg hi, hrow], hc⟩

/-- **A claim** by the session that holds the lock of an idle connector starts the one walk of it.
-/
theorem Inv.claim (h : Inv s) (hx : s.sessions[k]? = some x) (hphase : x.phase = .decided i r false)
    (hc : changed.connectorId = r.connectorId) :
    Inv ((s.write i r changed).put k (x.done i changed)) := by
  have hmem : x ∈ s.sessions := List.mem_of_getElem? hx
  obtain ⟨claimed, hclaimed, hconnector⟩ : OfRow s (i, r) := by
    have hobjects := h.objects x hmem
    rw [hphase] at hobjects
    exact hobjects (i, r) List.mem_cons_self
  -- what is in flight beside the claimed row was so before, and is of another connector
  have hbeside : ∀ j row, (s.write i r changed).requests[j]? = some row → row.inFlight = true →
      j ≠ i → s.requests[j]? = some row ∧ row.connectorId ≠ r.connectorId := by
    intro j row hrow hf hji
    obtain ⟨row', hrow', -, heq⟩ := of_write hrow
    obtain rfl := heq hji
    exact ⟨hrow', fun hsame => hji (h.idle x hmem i r hphase j row hrow' hsame hf)⟩
  have hown : ∀ row, (s.write i r changed).requests[i]? = some row →
      row.connectorId = r.connectorId := by
    intro row hrow
    obtain ⟨row', hrow', hsame, -⟩ := of_write hrow
    obtain rfl := Option.some.inj (hclaimed.symm.trans hrow')
    exact hsame.trans hconnector
  refine ⟨?_, ?_, ?_, ?_, ?_⟩
  · intro a b row row' ha hb hf hf' hsame
    by_cases hai : a = i
    · subst hai
      by_contra hba
      obtain ⟨-, hne⟩ := hbeside b row' hb hf' (Ne.symm hba)
      exact hne (hsame.symm.trans (hown row ha))
    · obtain ⟨ha', hne⟩ := hbeside a row ha hf hai
      by_cases hbi : b = i
      · subst hbi
        exact absurd (hsame.trans (hown row' hb)) hne
      · exact h.oneWalk a b row row' ha' (hbeside b row' hb hf' hbi).1 hf hf' hsame
  · intro y hy p hp
    rcases mem_put hy with rfl | hy
    · rcases List.mem_cons.mp hp with rfl | hp
      · have hchanged : OfRow s (i, changed) := ⟨claimed, hclaimed, hconnector.trans hc.symm⟩
        exact hchanged.write _ _ _
      · exact (h.memory x hmem p hp).write _ _ _
    · exact (h.memory y hy p hp).write _ _ _
  · intro y hy p hp
    rcases mem_put hy with rfl | hy
    · cases hp
    · exact (h.objects y hy p hp).write _ _ _
  · intro y hy i' r' hphase' j row hrow hsame hf
    obtain ⟨k', hk'⟩ := List.mem_iff_getElem?.mp hy
    rcases getElem?_put hk' with ⟨-, rfl⟩ | ⟨hne, hk'⟩
    · cases hphase'
    · by_cases hji : j = i
      · subst hji
        have hlock : r'.connectorId = r.connectorId := hsame.symm.trans (hown row hrow)
        refine absurd (h.lock k' k y x r.connectorId hk' hx ?_ ?_) hne
        · rw [hphase', Phase.lockedConnector, hlock]
        · rw [hphase, Phase.lockedConnector]
      · exact h.idle y (List.mem_of_getElem? hk') i' r' hphase' j row
          (hbeside j row hrow hf hji).1 hsame hf
  · intro j j' y y' c hj hj' hy hy'
    rcases getElem?_put hj with ⟨-, rfl⟩ | ⟨-, hj⟩
    · cases hy
    · rcases getElem?_put hj' with ⟨-, rfl⟩ | ⟨-, hj'⟩
      · cases hy'
      · exact h.lock j j' y y' c hj hj' hy hy'

/-- A call that ends with a calm write keeps the invariant. -/
theorem Inv.finish (h : Inv s) (hx : x ∈ s.sessions) (hr : OfRow s (i, r))
    (hc : changed.connectorId = r.connectorId) (hcalm : Calm s (s.write i r changed)) :
    Inv ((s.write i r changed).put k (x.done i changed)) := by
  obtain ⟨row, hrow, hconnector⟩ := hr
  exact (h.calm hcalm rfl).done hx (OfRow.calm ⟨row, hrow, hconnector.trans hc.symm⟩ hcalm)

/-- The writes of a recovery put no request in flight. -/
theorem calm_recovered (rows : List (Nat × SyncRequest)) (now : Nat) (s : State) :
    Calm s (rows.foldl (fun t row => t.write row.1 row.2 (row.2.recovered now)) s) ∧
      (rows.foldl (fun t row => t.write row.1 row.2 (row.2.recovered now)) s).sessions =
        s.sessions := by
  induction rows generalizing s with
  | nil => exact ⟨Calm.refl s, rfl⟩
  | cons row rows ih =>
    obtain ⟨hcalm, hsessions⟩ := ih (s.write row.1 row.2 (row.2.recovered now))
    refine ⟨Calm.trans (calm_write fun _ _ => inFlight_of_flush (.inl rfl)) hcalm, hsessions⟩

/-- A recovery keeps the invariant. -/
theorem Inv.recover (h : Inv s) (hx : x ∈ s.sessions) {rows : List (Nat × SyncRequest)}
    (hphase : x.phase = .recovering rows) :
    Inv ((rows.foldl (fun t row => t.write row.1 row.2 (row.2.recovered s.now)) s).put k
      { memory := rows.map (fun row => (row.1, row.2.recovered s.now)) ++ x.memory
        phase := .idle }) := by
  obtain ⟨hcalm, hsessions⟩ := calm_recovered rows s.now s
  refine (h.calm hcalm hsessions).put (fun p hp => ?_) (by simp [Phase.objects]) rfl
  rcases List.mem_append.mp hp with hp | hp
  · obtain ⟨row, hrow, rfl⟩ := List.mem_map.mp hp
    have hobjects := h.objects x hx
    rw [hphase] at hobjects
    obtain ⟨found, hfound, hc⟩ := hobjects row hrow
    exact OfRow.calm ⟨found, hfound, hc⟩ hcalm
  · exact (h.memory x hx p hp).calm hcalm

/-- A call that loads objects of rows keeps the invariant. -/
theorem Inv.load (h : Inv s) (hx : x ∈ s.sessions) {phase : Phase}
    (hobjects : ∀ p ∈ phase.objects, OfRow s p) (hlock : phase.lockedConnector = none) :
    Inv (s.put k { x with phase := phase }) :=
  h.put (h.memory x hx) hobjects hlock

theorem Inv.loadNone (h : Inv s) (hx : x ∈ s.sessions) {phase : Phase}
    (hobjects : phase.objects = []) (hlock : phase.lockedConnector = none) :
    Inv (s.put k { x with phase := phase }) :=
  h.load hx (by simp [hobjects]) hlock

/-! ### One step -/

variable {e : Event}

/-- A call that asks for an object goes on with one of its row, or ends. -/
theorem Inv.object (h : Inv s) (hx : s.sessions[k]? = some x) {phase : SyncRequest → Phase}
    {u : State} (hobjects : ∀ r, (phase r).objects = [(i, r)])
    (hlock : ∀ r, (phase r).lockedConnector = none)
    (hstep : (match s.object x cached i with
      | none => some (Event.quiet, s.put k { x with phase := .idle })
      | some r => some (Event.quiet, s.put k { x with phase := phase r })) = some (e, u)) :
    Inv u := by
  have hmem : x ∈ s.sessions := List.mem_of_getElem? hx
  split at hstep
  · obtain ⟨-, rfl⟩ : Event.quiet = e ∧ s.put k { x with phase := .idle } = u := by
      simpa using hstep
    exact h.loadNone hmem rfl rfl
  · next r hr =>
    obtain ⟨-, rfl⟩ : Event.quiet = e ∧ s.put k { x with phase := phase r } = u := by
      simpa using hstep
    refine h.load hmem (fun p hp => ?_) (hlock r)
    rw [hobjects r] at hp
    obtain rfl := List.mem_singleton.mp hp
    exact ofRow_of_object h hmem hr

/-- The first step of a call keeps the invariant. -/
theorem advance_called {call : Call} (h : Inv s) (hx : s.sessions[k]? = some x)
    (hphase : x.phase = .called call) (hstep : advance s k cached = some (e, t)) : Inv t := by
  have hmem : x ∈ s.sessions := List.mem_of_getElem? hx
  cases call with
  | enqueue c scope reason priority =>
    simp only [advance, hx, Option.bind_eq_bind, Option.bind_some, hphase] at hstep
    split at hstep
    · obtain ⟨-, rfl⟩ := by simpa using hstep
      exact h.loadNone hmem rfl rfl
    · exact h.object hx (fun r => rfl) (fun r => rfl) hstep
  | claim i =>
    simp only [advance, hx, Option.bind_eq_bind, Option.bind_some, hphase] at hstep
    split at hstep
    · obtain ⟨-, rfl⟩ := by simpa using hstep
      exact h.loadNone hmem rfl rfl
    · split at hstep
      · exact h.object hx (fun r => rfl) (fun r => rfl) hstep
      · obtain ⟨-, rfl⟩ := by simpa using hstep
        exact h.loadNone hmem rfl rfl
  | markRunning i =>
    simp only [advance, hx, Option.bind_eq_bind, Option.bind_some, hphase] at hstep
    exact h.object hx (fun r => rfl) (fun r => rfl) hstep
  | finish i success error retryable =>
    simp only [advance, hx, Option.bind_eq_bind, Option.bind_some, hphase] at hstep
    exact h.object hx (fun r => rfl) (fun r => rfl) hstep
  | recoverStale dispatchedMinutes runningMinutes =>
    simp only [advance, hx, Option.bind_eq_bind, Option.bind_some, hphase,
      Option.some.injEq, Prod.mk.injEq] at hstep
    obtain ⟨-, rfl⟩ := hstep
    refine h.load hmem (fun p hp => ?_) rfl
    obtain ⟨row, -, hrow⟩ := List.mem_filterMap.mp hp
    obtain ⟨r, hr, rfl⟩ := Option.map_eq_some_iff.mp hrow
    exact ofRow_of_object h hmem hr

/-- **Every step of a call** keeps the invariant, if a worker marks only what is in flight. -/
theorem advance_ok (h : Inv s) (hstep : advance s k cached = some (e, t)) (hc : MarksInFlight s e) :
    Inv t := by
  cases hx : s.sessions[k]? with
  | none => simp [advance, hx] at hstep
  | some x =>
    have hmem : x ∈ s.sessions := List.mem_of_getElem? hx
    have hobjects := h.objects x hmem
    cases hphase : x.phase with
    | idle => simp [advance, hx, hphase] at hstep
    | called call => exact advance_called h hx hphase hstep
    | coalescing i r reason priority =>
      simp only [advance, hx, Option.bind_eq_bind, Option.bind_some, hphase] at hstep
      rw [hphase] at hobjects
      split at hstep
      · cases hstep
      · obtain ⟨-, rfl⟩ := by simpa using hstep
        exact h.finish hmem (hobjects (i, r) List.mem_cons_self) rfl
          (calm_write fun _ _ => inFlight_of_flush (.inr rfl))
    | inserting c scope reason priority =>
      simp only [advance, hx, Option.bind_eq_bind, Option.bind_some, hphase,
        Option.some.injEq, Prod.mk.injEq] at hstep
      obtain ⟨-, rfl⟩ := hstep
      have hinv := h.calm (calm_append (s := s)
        (r := SyncRequest.enqueued c scope reason priority s.now) rfl) rfl
      refine hinv.done hmem ⟨_, ?_, rfl⟩
      simp
    | rowLocked i r =>
      simp only [advance, hx, Option.bind_eq_bind, Option.bind_some, hphase] at hstep
      split at hstep
      · cases hstep
      · next hfree =>
        obtain ⟨-, rfl⟩ := by simpa using hstep
        exact h.decide hx hphase (by simpa using hfree)
    | decided i r inFlight =>
      simp only [advance, hx, Option.bind_eq_bind, Option.bind_some, hphase] at hstep
      rw [hphase] at hobjects
      cases inFlight with
      | true =>
        obtain ⟨-, rfl⟩ := by simpa using hstep
        exact h.done hmem (hobjects (i, r) List.mem_cons_self)
      | false =>
        obtain ⟨-, rfl⟩ := by simpa using hstep
        exact h.claim hx hphase rfl
    | marking i r =>
      simp only [advance, hx, Option.bind_eq_bind, Option.bind_some, hphase] at hstep
      rw [hphase] at hobjects
      split at hstep
      · cases hstep
      · obtain ⟨rfl, rfl⟩ := by simpa using hstep
        refine h.finish hmem (hobjects (i, r) List.mem_cons_self) rfl
          (calm_write fun row hrow hf => ?_)
        by_cases hrunning : r.status = .running
        · exact inFlight_of_flush (.inr hrunning.symm) hf
        · rw [if_neg hrunning] at hc
          simpa [MarksInFlight, hrow] using hc
    | finishing i r success error retryable =>
      simp only [advance, hx, Option.bind_eq_bind, Option.bind_some, hphase] at hstep
      rw [hphase] at hobjects
      split at hstep
      · cases hstep
      · obtain ⟨-, rfl⟩ := by simpa using hstep
        refine h.finish hmem (hobjects (i, r) List.mem_cons_self) ?_
          (calm_write fun _ _ => inFlight_of_flush (.inl (finished_inFlight _ _ _ _ _)))
        simp only [SyncRequest.finished]
        split
        · rfl
        · split <;> rfl
    | recovering rows =>
      simp only [advance, hx, Option.bind_eq_bind, Option.bind_some, hphase] at hstep
      split at hstep
      · cases hstep
      · obtain ⟨-, rfl⟩ := by simpa using hstep
        exact h.recover hmem hphase

theorem Inv.openSession (h : Inv s) :
    Inv { s with sessions := s.sessions ++ [⟨[], .idle⟩] } := by
  have hnew : ∀ y ∈ s.sessions ++ [(⟨[], .idle⟩ : Session)], y ∈ s.sessions ∨ y = ⟨[], .idle⟩ := by
    intro y hy
    simpa using hy
  have hget : ∀ (j : Nat) (y : Session) (c : Nat),
      (s.sessions ++ [(⟨[], .idle⟩ : Session)])[j]? = some y →
      y.phase.lockedConnector = some c → s.sessions[j]? = some y := by
    intro j y c hj hy
    rcases Nat.lt_or_ge j s.sessions.length with hlt | hge
    · rwa [List.getElem?_append_left hlt] at hj
    · rw [List.getElem?_append_right hge, List.getElem?_singleton] at hj
      split at hj
      · obtain rfl := Option.some.inj hj
        cases hy
      · cases hj
  refine ⟨h.oneWalk, ?_, ?_, ?_, ?_⟩
  · intro y hy
    rcases hnew y hy with hy | rfl
    · exact h.memory y hy
    · simp
  · intro y hy
    rcases hnew y hy with hy | rfl
    · exact h.objects y hy
    · simp [Phase.objects]
  · intro y hy i r hphase
    rcases hnew y hy with hy | rfl
    · exact h.idle y hy i r hphase
    · cases hphase
  · intro j j' y y' c hj hj' hy hy'
    exact h.lock j j' y y' c (hget j y c hj hy) (hget j' y' c hj' hy') hy hy'

/-- A step of the system keeps the invariant under the same condition. -/
theorem step_ok (h : Inv s) (hc : MarksInFlight s e) (hstep : Step s e t) : Inv t := by
  obtain ⟨a, ha⟩ := hstep
  cases a with
  | openSession =>
    obtain ⟨-, rfl⟩ := by simpa [next] using ha
    exact h.openSession
  | call k call =>
    obtain ⟨x, hx, rfl⟩ := next_call_inv ha
    exact h.loadNone (List.mem_of_getElem? hx) rfl rfl
  | advance k cached => exact advance_ok h ha hc
  | rollback k =>
    obtain ⟨-, rfl⟩ := by simpa [next] using ha
    exact h.put (by simp) (by simp [Phase.objects]) rfl
  | tick seconds =>
    obtain ⟨-, rfl⟩ := by simpa [next] using ha
    exact h.calm ⟨(Calm.refl s).rows, (Calm.refl s).inFlight⟩ rfl

/-- **One walk per connector**, in every run whose workers mark a request running only while it is
dispatched or running. -/
theorem one_walk_of_marks {tr : List (State × Event)} {s : State} (r : Run Initial Step tr s)
    (hc : Throughout MarksInFlight tr) : OneWalk s :=
  (r.invariant (I := Inv) (fun _ => Inv.of_initial)
    (fun _ _ _ hi hm hs => step_ok hi hm hs) hc).oneWalk

/-! ### A message delivered late -/

def emptyQueue : State := ⟨[], [], 0⟩

/-- A call of session `k`, carried through in `n` steps. -/
def carried (k : Nat) (call : Call) (n : Nat) : List Action :=
  .call k call :: List.replicate n (.advance k false)

def claimedPoll : List Action :=
  .openSession :: carried 0 (.enqueue 7 none .polling 50) 2 ++ carried 0 (.claim 0) 3

def startedPoll : List Action :=
  claimedPoll ++ .openSession :: carried 1 (.markRunning 0) 2

/-- A second request of the connector waits until the first walk is over, and is claimed then. -/
def twoRequests : List Action :=
  startedPoll ++ carried 0 (.enqueue 7 (some 3) .manual 10) 2 ++ carried 0 (.claim 1) 3 ++
    carried 1 (.finish 0 true none false) 2 ++ carried 0 (.claim 1) 3

theorem one_walk_of_marks_twoRequests :
    OneWalk ((play next [] emptyQueue twoRequests).get (by decide)).2 :=
  one_walk_of_marks (run_play ⟨rfl, rfl⟩ (by decide)) (by decide)

/-- The first request is recovered, another one of the connector is claimed, and then a late worker
marks the first running. -/
def lateMessage : List Action :=
  claimedPoll ++ .tick 1000 :: carried 0 (.recoverStale 15 180) 2 ++
    carried 0 (.enqueue 7 (some 3) .manual 10) 2 ++ carried 0 (.claim 1) 3 ++
    .openSession :: carried 1 (.markRunning 0) 2

/-- A message delivered after its request was recovered starts a second walk. -/
theorem late_message_walks_twice :
    ¬ ∀ (tr : List (State × Event)) (s : State), Run Initial Step tr s → OneWalk s := by
  intro h
  have hplays : (play next [] emptyQueue lateMessage).isSome = true := by decide
  have hwalk := h _ _ (run_play ⟨rfl, rfl⟩ hplays)
  have hboth : ∃ r r', ((play next [] emptyQueue lateMessage).get hplays).2.requests[0]? = some r ∧
      ((play next [] emptyQueue lateMessage).get hplays).2.requests[1]? = some r' ∧
      r.inFlight = true ∧ r'.inFlight = true ∧ r.connectorId = r'.connectorId :=
    ⟨_, _, rfl, rfl, by decide, by decide, by decide⟩
  obtain ⟨r, r', hr, hr', hf, hf', hc⟩ := hboth
  exact absurd (hwalk 0 1 r r' hr hr' hf hf' hc) (by decide)

end QnscKb.Sync
