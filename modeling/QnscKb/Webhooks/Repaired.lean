import QnscKb.Webhooks.Model

/-!
# Webhooks — Repaired

What a repair pass over the push subscriptions leaves recorded
(`src/domain/webhook_subscriptions.py`).
-/

namespace QnscKb.Webhooks
open Access (Id)

def Request.connectorId : Request → Id
  | .refresh c | .delete c _ _ | .create c _ | .createFailed c => c

variable {S : Settings} {A : Answers} {c : Id} {p p' p'' : Provider}
  {rows rows' : List Subscription}

/-! ### What one connector's repair may do at the provider -/

/-- Only calls of the connector are added, no recorded subscription comes back, and what is new at
the provider was asked for. -/
structure Effects (c : Id) (rows : List Subscription) (p p' : Provider) : Prop where
  others : ∀ call : Request, call.connectorId ≠ c → call ∈ p'.calls → call ∈ p.calls
  kept : ∀ call ∈ p.calls, call ∈ p'.calls
  gone : ∀ row ∈ rows, Live.known row.providerSubscriptionId ∉ p.live →
    Live.known row.providerSubscriptionId ∉ p'.live
  grown : ∀ x ∈ p'.live, x ∈ p.live ∨ (∃ id, x = .known id ∧ .create c id ∈ p'.calls) ∨
    ∃ scope, x = .stray scope ∧ .createFailed c ∈ p'.calls

namespace Effects

theorem refl (c : Id) (rows : List Subscription) (p : Provider) : Effects c rows p p :=
  ⟨fun _ _ h => h, fun _ h => h, fun _ _ h => h, fun _ h => Or.inl h⟩

theorem trans (h : Effects c rows p p') (h' : Effects c rows p' p'') : Effects c rows p p'' where
  others call hne hcall := h.others call hne (h'.others call hne hcall)
  kept call hcall := h'.kept call (h.kept call hcall)
  gone row hrow hgone := h'.gone row hrow (h.gone row hrow hgone)
  grown x hx := by
    rcases h'.grown x hx with hx | hnew
    · rcases h.grown x hx with hx | ⟨id, heq, hcall⟩ | ⟨scope, heq, hcall⟩
      · exact Or.inl hx
      · exact Or.inr (Or.inl ⟨id, heq, h'.kept _ hcall⟩)
      · exact Or.inr (Or.inr ⟨scope, heq, h'.kept _ hcall⟩)
    · exact Or.inr hnew

theorem of_ids (h : Effects c rows' p p')
    (hsub : ∀ row ∈ rows, ∃ row' ∈ rows',
      row'.providerSubscriptionId = row.providerSubscriptionId) :
    Effects c rows p p' where
  others := h.others
  kept := h.kept
  gone row hrow hgone := by
    obtain ⟨row', hrow', heq⟩ := hsub row hrow
    rw [← heq] at hgone ⊢
    exact h.gone row' hrow' hgone
  grown := h.grown

theorem of_call {call : Request} {live : List Live} (hcall : call.connectorId = c)
    (hlive : ∀ row ∈ rows, Live.known row.providerSubscriptionId ∈ live →
      Live.known row.providerSubscriptionId ∈ p.live)
    (hgrown : ∀ x ∈ live, x ∈ p.live ∨ (∃ id, x = .known id ∧ call = .create c id) ∨
      ∃ scope, x = .stray scope ∧ call = .createFailed c) :
    Effects c rows p ⟨live, call :: p.calls⟩ where
  others other hne hmem := by
    rcases List.mem_cons.mp hmem with rfl | hmem
    · exact absurd hcall hne
    · exact hmem
  kept other hmem := List.mem_cons_of_mem _ hmem
  gone row hrow := mt (hlive row hrow)
  grown x hx := by
    rcases hgrown x hx with hx | ⟨id, heq, rfl⟩ | ⟨scope, heq, rfl⟩
    · exact Or.inl hx
    · exact Or.inr (Or.inl ⟨id, heq, List.mem_cons_self⟩)
    · exact Or.inr (Or.inr ⟨scope, heq, List.mem_cons_self⟩)

end Effects

theorem failed_effects (scopeId : Id) (left : Bool) :
    Effects c rows p (p.failed c scopeId left) := by
  cases left with
  | false => exact Effects.of_call rfl (fun row _ h => h) fun x hx => Or.inl hx
  | true =>
    refine Effects.of_call rfl (fun row _ h => ?_) fun x hx => ?_
    · rcases List.mem_cons.mp h with h | h
      · cases h
      · exact h
    · rcases List.mem_cons.mp hx with rfl | hx
      · exact Or.inr (Or.inr ⟨scopeId, rfl, rfl⟩)
      · exact Or.inl hx

theorem retire_live {old : Subscription} {x : Live} (h : x ∈ (retire A c p old).live) :
    x ∈ p.live := by
  rw [retire] at h
  split at h
  · exact List.mem_of_mem_filter h
  · exact h

theorem retire_effects (old : Subscription) : Effects c rows p (retire A c p old) :=
  Effects.of_call rfl (fun _ _ h => retire_live (c := c) h) fun _ h =>
    Or.inl (retire_live (c := c) h)

/-- The subscriptions are retired one after another. -/
structure Retired (c : Id) (existing : List Subscription) (p p' : Provider) : Prop where
  calls : ∀ call ∈ p'.calls, call ∈ p.calls ∨ ∃ row ∈ existing, ∃ gone,
    call = .delete c row.providerSubscriptionId gone
  live : ∀ x ∈ p'.live, x ∈ p.live
  asked : ∀ row ∈ existing, ∃ gone, Request.delete c row.providerSubscriptionId gone ∈ p'.calls ∧
    (gone = true → Live.known row.providerSubscriptionId ∉ p'.live)

theorem retire_all (rows existing : List Subscription) (p : Provider) :
    Effects c rows p (existing.foldl (retire A c) p) ∧
      Retired c existing p (existing.foldl (retire A c) p) := by
  induction existing generalizing p with
  | nil =>
    exact ⟨Effects.refl c rows p, fun call h => Or.inl h, fun x h => h,
      fun row h => absurd h List.not_mem_nil⟩
  | cons old existing ih =>
    obtain ⟨heffects, hretired⟩ := ih (retire A c p old)
    refine ⟨(retire_effects old).trans heffects, fun call hcall => ?_, fun x hx => ?_,
      fun row hrow => ?_⟩
    · rcases hretired.calls call hcall with h | ⟨row, hrow, gone, rfl⟩
      · rcases List.mem_cons.mp h with rfl | h
        · exact Or.inr ⟨old, List.mem_cons_self, _, rfl⟩
        · exact Or.inl h
      · exact Or.inr ⟨row, List.mem_cons_of_mem _ hrow, gone, rfl⟩
    · exact retire_live (hretired.live x hx)
    · rcases List.mem_cons.mp hrow with rfl | hrow
      · refine ⟨A.delete p.calls.length, heffects.kept _ List.mem_cons_self,
          fun hgone hlive => ?_⟩
        have h := hretired.live _ hlive
        rw [retire, hgone] at h
        have hne := (List.mem_filter.mp h).2
        rw [bne_self_eq_false] at hne
        cases hne
      · exact hretired.asked row hrow

/-! ### One scope -/

def Subscription.off (row : Subscription) : Subscription := { row with active := false }

def retiredRows (c scopeId : Id) (rows : List Subscription) : List Subscription :=
  rows.map fun row => if row.serves c scopeId then row.off else row

variable {scopeId : Id} {row : Subscription}

theorem mem_retiredRows_off (h : row ∈ retiredRows c scopeId rows) :
    ∃ old ∈ rows, row = old ∨ row = old.off := by
  obtain ⟨old, hold, heq⟩ := List.mem_map.mp h
  refine ⟨old, hold, ?_⟩
  split at heq
  · exact Or.inr heq.symm
  · exact Or.inl heq.symm

theorem serves_off (scopeId : Id) (row : Subscription) : row.off.serves c scopeId = false :=
  Bool.and_false _

theorem serves_fields (h : row.serves c scopeId = true) :
    row.connectorId = c ∧ row.scopeId = some scopeId ∧ row.active = true := by
  simp only [Subscription.serves, Bool.and_eq_true, beq_iff_eq] at h
  exact ⟨h.1.1, h.1.2, h.2⟩

theorem mem_retiredRows_of_not (h : row ∈ rows) (hserves : row.serves c scopeId = false) :
    row ∈ retiredRows c scopeId rows :=
  List.mem_map.mpr ⟨row, h, if_neg (by simp [hserves])⟩

theorem off_mem_retiredRows (h : row ∈ rows) (hserves : row.serves c scopeId = true) :
    row.off ∈ retiredRows c scopeId rows :=
  List.mem_map.mpr ⟨row, h, if_pos hserves⟩

theorem mem_retiredRows (c scopeId : Id) (h : row ∈ rows) :
    row.serves c scopeId = false ∧ row ∈ retiredRows c scopeId rows ∨
      row.serves c scopeId = true ∧ row.off ∈ retiredRows c scopeId rows := by
  cases hserves : row.serves c scopeId with
  | false => exact Or.inl ⟨rfl, mem_retiredRows_of_not h hserves⟩
  | true => exact Or.inr ⟨rfl, off_mem_retiredRows h hserves⟩

theorem retiredRows_ids (c scopeId : Id) (rows : List Subscription) :
    (retiredRows c scopeId rows).map Subscription.providerSubscriptionId =
      rows.map Subscription.providerSubscriptionId := by
  rw [retiredRows, List.map_map]
  refine List.map_congr_left fun row _ => ?_
  rw [Function.comp_apply]
  split
  · rfl
  · rfl

variable {out : Except Failure (List Subscription)}

theorem createWebhook_cases (h : createWebhook A c scopeId rows p = (out, p')) :
    Effects c rows p p' ∧ ∀ rows', out = .ok rows' → ∃ row : Subscription, row.connectorId = c ∧
      row.scopeId = some scopeId ∧ row.active = true ∧ rows' = rows ++ [row] ∧
      (∀ other ∈ rows, other.providerSubscriptionId ≠ row.providerSubscriptionId) ∧
      p'.calls = .create c row.providerSubscriptionId :: p.calls := by
  unfold createWebhook at h
  split at h
  · rename_i id resource expiresAt hcreate
    split at h
    · cases h
      exact ⟨failed_effects _ _, fun rows' h => by cases h⟩
    · rename_i hnew
      have hnew : ∀ other ∈ rows, other.providerSubscriptionId ≠ id := by
        intro other hother heq
        exact hnew (List.any_eq_true.mpr ⟨other, hother, beq_iff_eq.mpr heq⟩)
      cases h
      refine ⟨Effects.of_call rfl (fun row hrow h => ?_) fun x hx => ?_, fun rows' h => ?_⟩
      · rcases List.mem_cons.mp h with h | h
        · exact absurd (Live.known.inj h) (hnew row hrow)
        · exact h
      · rcases List.mem_cons.mp hx with rfl | hx
        · exact Or.inr (Or.inl ⟨id, rfl, rfl⟩)
        · exact Or.inl hx
      · cases h
        exact ⟨_, rfl, rfl, rfl, rfl, hnew, rfl⟩
  · cases h
    exact ⟨failed_effects _ _, fun rows' h => by cases h⟩
  · cases h
    exact ⟨failed_effects _ _, fun rows' h => by cases h⟩

theorem createWebhook_deletes (h : createWebhook A c scopeId rows p = (out, p')) {c' : Id}
    {id : String} {gone : Bool} (hcall : Request.delete c' id gone ∈ p'.calls) :
    Request.delete c' id gone ∈ p.calls := by
  have hfailed : ∀ left, Request.delete c' id gone ∈ (p.failed c scopeId left).calls →
      Request.delete c' id gone ∈ p.calls := by
    intro left h
    rcases List.mem_cons.mp h with h | h
    · cases h
    · exact h
  unfold createWebhook at h
  split at h
  · split at h
    · cases h
      exact hfailed _ hcall
    · cases h
      rcases List.mem_cons.mp hcall with h | h
      · cases h
      · exact h
  · cases h
    exact hfailed _ hcall
  · cases h
    exact hfailed _ hcall

variable {force : Bool} {deadline : Nat} {scope : SourceScope}

theorem ensureScope_cases (h : ensureScope A force deadline c rows p scope = (out, p')) :
    (out = .ok rows ∧ p' = p ∧ force = false ∧
        ((rows.filter (Subscription.serves c scope.id)).any (Subscription.healthy deadline)) =
          true) ∨
      createWebhook A c scope.id (retiredRows c scope.id rows)
        ((rows.filter (Subscription.serves c scope.id)).foldl (retire A c) p) = (out, p') := by
  unfold ensureScope at h
  dsimp only at h
  split at h
  · rename_i hhealthy
    rw [Bool.and_eq_true, Bool.not_eq_true'] at hhealthy
    cases h
    exact Or.inl ⟨rfl, rfl, hhealthy.2, hhealthy.1⟩
  · exact Or.inr h

theorem ensureScope_effects (h : ensureScope A force deadline c rows p scope = (out, p')) :
    Effects c rows p p' := by
  rcases ensureScope_cases h with ⟨-, rfl, -⟩ | h
  · exact Effects.refl c rows p'
  · obtain ⟨hretire, -⟩ := retire_all (A := A) (c := c) rows
      (rows.filter (Subscription.serves c scope.id)) p
    refine hretire.trans ((createWebhook_cases h).1.of_ids fun row hrow => ?_)
    rcases mem_retiredRows c scope.id hrow with ⟨-, h⟩ | ⟨-, h⟩
    · exact ⟨row, h, rfl⟩
    · exact ⟨row.off, h, rfl⟩

theorem ensureScope_ids (h : ensureScope A force deadline c rows p scope = (.ok rows', p')) :
    ∀ row ∈ rows, ∃ row' ∈ rows', row'.providerSubscriptionId = row.providerSubscriptionId := by
  intro row hrow
  rcases ensureScope_cases h with ⟨hout, -⟩ | h
  · cases hout
    exact ⟨row, hrow, rfl⟩
  · obtain ⟨new, -, -, -, rfl, -⟩ := (createWebhook_cases h).2 rows' rfl
    rcases mem_retiredRows c scope.id hrow with ⟨-, h⟩ | ⟨-, h⟩
    · exact ⟨row, List.mem_append_left _ h, rfl⟩
    · exact ⟨row.off, List.mem_append_left _ h, rfl⟩

/-! ### Whose subscriptions are retired -/

/-- Only recorded subscriptions of the connector that asks are retired. -/
def Owned (start : List Subscription) (p : Provider) : Prop :=
  ∀ c id gone, Request.delete c id gone ∈ p.calls →
    ∃ row ∈ start, row.providerSubscriptionId = id ∧ row.connectorId = c

/-- The rows are those of the start, or of a scope that is done. -/
def Traced (start : List Subscription) (done : List Id) (rows : List Subscription) : Prop :=
  ∀ row ∈ rows, (∃ old ∈ start, old.providerSubscriptionId = row.providerSubscriptionId ∧
    old.connectorId = row.connectorId) ∨ ∃ scope ∈ done, row.scopeId = some scope

variable {start rows : List Subscription} {done : List Id}

theorem ensureScope_owned (hrows : Traced start done rows) (hnew : scope.id ∉ done)
    (hp : Owned start p) (h : ensureScope A force deadline c rows p scope = (out, p')) :
    Owned start p' ∧ ∀ rows', out = .ok rows' → Traced start (scope.id :: done) rows' := by
  have hmore : Traced start (scope.id :: done) rows := by
    intro row hrow
    rcases hrows row hrow with h | ⟨s, hs, h⟩
    · exact Or.inl h
    · exact Or.inr ⟨s, List.mem_cons_of_mem _ hs, h⟩
  rcases ensureScope_cases h with ⟨rfl, rfl, -⟩ | h
  · exact ⟨hp, fun rows' hok => by cases hok; exact hmore⟩
  · refine ⟨fun c' id gone hcall => ?_, fun rows' hok row hrow => ?_⟩
    · obtain ⟨-, hretired⟩ := retire_all (A := A) (c := c) rows
        (rows.filter (Subscription.serves c scope.id)) p
      rcases hretired.calls _ (createWebhook_deletes h hcall) with hold | ⟨row, hrow, gone', heq⟩
      · exact hp c' id gone hold
      · cases heq
        obtain ⟨hmem, hserves⟩ := List.mem_filter.mp hrow
        obtain ⟨hc, hscope, -⟩ := serves_fields hserves
        rcases hrows row hmem with ⟨old, hold, heq, hconnector⟩ | ⟨s, hs, hs'⟩
        · exact ⟨old, hold, heq, hconnector.trans hc⟩
        · rw [hscope] at hs'
          cases hs'
          exact absurd hs hnew
    · obtain ⟨new, -, hscope, -, rfl, -⟩ := (createWebhook_cases h).2 rows' hok
      rcases List.mem_append.mp hrow with hrow | hrow
      · obtain ⟨old, hold, heq⟩ := mem_retiredRows_off hrow
        rcases heq with rfl | rfl
        · exact hmore row hold
        · exact hmore old hold
      · rw [List.mem_singleton] at hrow
        subst hrow
        exact Or.inr ⟨scope.id, List.mem_cons_self, hscope⟩

variable {scopes : List SourceScope}

theorem ensureScopes_owned (hrows : Traced start done rows)
    (hkeys : (scopes.map SourceScope.id).Nodup) (hnew : ∀ scope ∈ scopes, scope.id ∉ done)
    (hp : Owned start p) (h : ensureScopes A force deadline c rows p scopes = (out, p')) :
    Owned start p' := by
  induction scopes generalizing rows p done with
  | nil =>
    cases h
    exact hp
  | cons scope scopes ih =>
    rw [ensureScopes] at h
    rw [List.map_cons, List.nodup_cons] at hkeys
    cases hscope : ensureScope A force deadline c rows p scope with
    | mk result q =>
      obtain ⟨hq, hok⟩ := ensureScope_owned hrows (hnew scope List.mem_cons_self) hp hscope
      rw [hscope] at h
      cases result with
      | error failure =>
        cases h
        exact hq
      | ok rows' =>
        refine ih (hok rows' rfl) hkeys.2 (fun s hs hmem => ?_) hq h
        rcases List.mem_cons.mp hmem with heq | hmem
        · exact hkeys.1 (heq ▸ List.mem_map_of_mem hs)
        · exact hnew s (List.mem_cons_of_mem _ hs) hmem

/-! ### The loop over the scopes -/

/-- The loop has come so far: what it has done for the connector is on record. -/
structure Loop (c : Id) (start : List Subscription) (done : List Id) (rows : List Subscription)
    (p : Provider) : Prop where
  keys : (rows.map Subscription.providerSubscriptionId).Nodup
  created : ∀ id, Request.create c id ∈ p.calls → ∃ row ∈ rows, row.providerSubscriptionId = id ∧
    row.connectorId = c ∧ row.active = true ∧ ∃ scope ∈ done, row.scopeId = some scope
  deleted : ∀ id gone, Request.delete c id gone ∈ p.calls → ∃ row ∈ rows,
    row.providerSubscriptionId = id ∧ row.connectorId = c ∧ row.active = false
  clean : Request.createFailed c ∉ p.calls
  kept : ∀ row ∈ start, row ∈ rows ∨ row.off ∈ rows ∧ row.connectorId = c ∧
    ∃ gone, Request.delete c row.providerSubscriptionId gone ∈ p.calls ∧
      (gone = true → Live.known row.providerSubscriptionId ∉ p.live)

theorem Loop.more (hl : Loop c start done rows p) (id : Id) : Loop c start (id :: done) rows p where
  keys := hl.keys
  created created hcreated := by
    obtain ⟨row, hrow, heq, hc, hactive, s, hs, hscope⟩ := hl.created created hcreated
    exact ⟨row, hrow, heq, hc, hactive, s, List.mem_cons_of_mem _ hs, hscope⟩
  deleted := hl.deleted
  clean := hl.clean
  kept := hl.kept

theorem nodup_retiredRows {new : Subscription}
    (hkeys : (rows.map Subscription.providerSubscriptionId).Nodup)
    (hfresh : ∀ row ∈ retiredRows c scopeId rows,
        row.providerSubscriptionId ≠ new.providerSubscriptionId) :
    ((retiredRows c scopeId rows ++ [new]).map Subscription.providerSubscriptionId).Nodup := by
  rw [List.map_append, List.map_singleton, List.nodup_append]
  refine ⟨?_, List.nodup_singleton _, fun id hid id' hid' heq => ?_⟩
  · rw [retiredRows_ids]
    exact hkeys
  · obtain ⟨row, hrow, rfl⟩ := List.mem_map.mp hid
    rw [List.mem_singleton] at hid'
    exact hfresh row hrow (heq.trans hid')

/-- **One scope** keeps the record. -/
theorem Loop.step (hl : Loop c start done rows p) (hnew : scope.id ∉ done)
    (h : ensureScope A force deadline c rows p scope = (.ok rows', p')) :
    Loop c start (scope.id :: done) rows' p' := by
  have hgone := (ensureScope_effects h).gone
  rcases ensureScope_cases h with ⟨hout, rfl, -⟩ | h
  · cases hout
    exact hl.more scope.id
  · obtain ⟨hretire, hretired⟩ := retire_all (A := A) (c := c) rows
      (rows.filter (Subscription.serves c scope.id)) p
    obtain ⟨heffects, hok⟩ := createWebhook_cases h
    obtain ⟨new, hc, hscope, hactive, rfl, hfresh, hcalls⟩ := hok rows' rfl
    have hcalled : ∀ call ∈ p'.calls, call = .create c new.providerSubscriptionId ∨
        call ∈ p.calls ∨ ∃ row ∈ rows, row.serves c scope.id = true ∧ ∃ gone,
          call = .delete c row.providerSubscriptionId gone := by
      intro call hcall
      rw [hcalls] at hcall
      rcases List.mem_cons.mp hcall with h | hcall
      · exact Or.inl h
      · rcases hretired.calls call hcall with h | ⟨row, hrow, gone, h⟩
        · exact Or.inr (Or.inl h)
        · exact Or.inr (Or.inr ⟨row, (List.mem_filter.mp hrow).1, (List.mem_filter.mp hrow).2,
            gone, h⟩)
    have hstays : ∀ row ∈ rows, row.serves c scope.id = false →
        row ∈ retiredRows c scope.id rows ++ [new] :=
      fun row hrow hserves => List.mem_append_left _ (mem_retiredRows_of_not hrow hserves)
    have hoff : ∀ row ∈ rows, row.serves c scope.id = true →
        row.off ∈ retiredRows c scope.id rows ++ [new] :=
      fun row hrow hserves => List.mem_append_left _ (off_mem_retiredRows hrow hserves)
    refine ⟨?_, fun id hid => ?_, fun id gone hid => ?_, fun hfailed => ?_, fun row hrow => ?_⟩
    · exact nodup_retiredRows hl.keys hfresh
    · rcases hcalled _ hid with heq | hold | ⟨row, -, -, gone, heq⟩
      · cases heq
        exact ⟨new, List.mem_append_right _ (List.mem_singleton_self _), rfl, hc, hactive,
          scope.id, List.mem_cons_self, hscope⟩
      · obtain ⟨row, hrow, heq, hrc, hra, s, hs, hrs⟩ := hl.created id hold
        refine ⟨row, hstays row hrow ?_, heq, hrc, hra, s, List.mem_cons_of_mem _ hs, hrs⟩
        refine Bool.eq_false_of_not_eq_true fun hserves => hnew ?_
        have hsame := (serves_fields hserves).2.1
        rw [hrs] at hsame
        cases hsame
        exact hs
      · cases heq
    · rcases hcalled _ hid with heq | hold | ⟨row, hrow, hserves, gone, heq⟩
      · cases heq
      · obtain ⟨row, hrow, heq, hrc, hra⟩ := hl.deleted id gone hold
        refine ⟨row, hstays row hrow ?_, heq, hrc, hra⟩
        rw [Subscription.serves, hra, Bool.and_false]
      · cases heq
        exact ⟨row.off, hoff row hrow hserves, rfl, (serves_fields hserves).1, rfl⟩
    · rcases hcalled _ hfailed with heq | hold | ⟨row, -, -, gone, heq⟩
      · cases heq
      · exact hl.clean hold
      · cases heq
    · rcases hl.kept row hrow with hin | ⟨hin, hrc, gone, hasked, hlive⟩
      · cases hserves : row.serves c scope.id with
        | false => exact Or.inl (hstays row hin hserves)
        | true =>
          obtain ⟨gone, hasked, hlive⟩ :=
            hretired.asked row (List.mem_filter.mpr ⟨hin, hserves⟩)
          refine Or.inr ⟨hoff row hin hserves, (serves_fields hserves).1, gone,
            heffects.kept _ hasked, fun h => ?_⟩
          exact heffects.gone row.off (off_mem_retiredRows hin hserves) (hlive h)
      · exact Or.inr ⟨hstays row.off hin (serves_off scope.id row), hrc, gone,
          heffects.kept _ (hretire.kept _ hasked), fun h => hgone row.off hin (hlive h)⟩

theorem ensureScopes_effects (h : ensureScopes A force deadline c rows p scopes = (out, p')) :
    Effects c rows p p' := by
  induction scopes generalizing rows p with
  | nil =>
    cases h
    exact Effects.refl c rows p'
  | cons scope scopes ih =>
    rw [ensureScopes] at h
    cases hscope : ensureScope A force deadline c rows p scope with
    | mk result q =>
      rw [hscope] at h
      cases result with
      | error failure =>
        cases h
        exact ensureScope_effects hscope
      | ok rows' =>
        exact (ensureScope_effects hscope).trans ((ih h).of_ids (ensureScope_ids hscope))

/-- **The loop** keeps the record. -/
theorem Loop.all (hl : Loop c start done rows p) (hkeys : (scopes.map SourceScope.id).Nodup)
    (hnew : ∀ scope ∈ scopes, scope.id ∉ done)
    (h : ensureScopes A force deadline c rows p scopes = (.ok rows', p')) :
    ∃ done', Loop c start done' rows' p' := by
  induction scopes generalizing rows p done with
  | nil =>
    cases h
    exact ⟨done, hl⟩
  | cons scope scopes ih =>
    rw [ensureScopes] at h
    rw [List.map_cons, List.nodup_cons] at hkeys
    cases hscope : ensureScope A force deadline c rows p scope with
    | mk result q =>
      rw [hscope] at h
      cases result with
      | error failure => cases h
      | ok rows'' =>
        refine ih (hl.step (hnew scope List.mem_cons_self) hscope) hkeys.2
          (fun s hs hmem => ?_) h
        rcases List.mem_cons.mp hmem with heq | hmem
        · exact hkeys.1 (heq ▸ List.mem_map_of_mem hs)
        · exact hnew s (List.mem_cons_of_mem _ hs) hmem

/-! ### One connector -/

/-- To authorize a connector writes tokens, and calls nothing but the refresh. -/
structure Authorized (c : Id) (db db' : Database) (p p' : Provider) : Prop where
  subscriptions : db'.subscriptions = db.subscriptions
  scopes : db'.scopes = db.scopes
  live : p'.live = p.live
  calls : p'.calls = p.calls ∨ p'.calls = .refresh c :: p.calls

variable {db db' : Database} {connector : Connector}

theorem ensureConnectorAuthorized_spec {out : Except Failure Unit}
    (h : ensureConnectorAuthorized S A db p connector = (out, db', p')) :
    Authorized connector.id db db' p p' := by
  unfold ensureConnectorAuthorized at h
  split at h
  · cases h
    exact ⟨rfl, rfl, rfl, Or.inl rfl⟩
  · cases h
    exact ⟨rfl, rfl, rfl, Or.inl rfl⟩
  · dsimp only at h
    split at h
    · cases h
      exact ⟨rfl, rfl, rfl, Or.inr rfl⟩
    · cases h
      exact ⟨rfl, rfl, rfl, Or.inr rfl⟩
    · cases h
      exact ⟨rfl, rfl, rfl, Or.inr rfl⟩
    · cases h
      exact ⟨rfl, rfl, rfl, Or.inr rfl⟩
    · cases h
      exact ⟨rfl, rfl, rfl, Or.inr rfl⟩

theorem Authorized.effects (h : Authorized c db db' p p') : Effects c rows p p' := by
  have hgone : ∀ row ∈ rows, Live.known row.providerSubscriptionId ∉ p.live →
      Live.known row.providerSubscriptionId ∉ p'.live := fun row _ hgone => h.live ▸ hgone
  have hgrown : ∀ x ∈ p'.live, x ∈ p.live := fun x hx => h.live ▸ hx
  rcases h.calls with hcalls | hcalls
  · exact ⟨fun call _ hcall => hcalls ▸ hcall, fun call hcall => hcalls ▸ hcall, hgone,
      fun x hx => Or.inl (hgrown x hx)⟩
  · refine ⟨fun call hne hcall => ?_, fun call hcall => ?_, hgone,
      fun x hx => Or.inl (hgrown x hx)⟩
    · rw [hcalls] at hcall
      rcases List.mem_cons.mp hcall with rfl | hcall
      · exact absurd rfl hne
      · exact hcall
    · rw [hcalls]
      exact List.mem_cons_of_mem _ hcall

/-- The repair of a connector before it is committed or rolled back: what holds of the provider, and
the record where nothing failed. -/
theorem ensureWebhookSubscriptions_spec
    (hkeys : (db.subscriptions.map Subscription.providerSubscriptionId).Nodup)
    (hscopes : (db.scopes.map SourceScope.id).Nodup)
    (hnew : ∀ call ∈ p.calls, call.connectorId ≠ connector.id) (hp : Owned db.subscriptions p)
    (h : ensureWebhookSubscriptions S A force db p connector = (out, db', p')) :
    db'.subscriptions = db.subscriptions ∧ db'.scopes = db.scopes ∧
      Effects connector.id db.subscriptions p p' ∧ Owned db.subscriptions p' ∧
        ∀ rows', out = .ok rows' → ∃ done, Loop connector.id db.subscriptions done rows' p' := by
  unfold ensureWebhookSubscriptions at h
  split at h
  · cases h
    exact ⟨rfl, rfl, Effects.refl _ _ _, hp, fun rows' h => by cases h⟩
  · cases hauth : ensureConnectorAuthorized S A db p connector with
    | mk result rest =>
      obtain ⟨db₁, p₁⟩ := rest
      have hspec := ensureConnectorAuthorized_spec hauth
      have hp₁ : Owned db.subscriptions p₁ := by
        intro c id gone hcall
        refine hp c id gone ?_
        rcases hspec.calls with heq | heq
        · exact heq ▸ hcall
        · rw [heq] at hcall
          rcases List.mem_cons.mp hcall with h | h
          · cases h
          · exact h
      rw [hauth] at h
      cases result with
      | error failure =>
        cases h
        exact ⟨hspec.subscriptions, hspec.scopes, hspec.effects, hp₁,
          fun rows' h => by cases h⟩
      | ok u =>
        cases hscopes' : ensureScopes A force (A.now connector.id + RENEWAL_HORIZON)
            connector.id db₁.subscriptions p₁ (db₁.selected connector.id) with
        | mk result' p₂ =>
          dsimp only at h
          rw [hscopes'] at h
          cases h
          rw [hspec.subscriptions] at hscopes'
          have hselected : ((db'.selected connector.id).map SourceScope.id).Nodup := by
            rw [Database.selected, hspec.scopes]
            exact hscopes.sublist (List.filter_sublist.map SourceScope.id)
          refine ⟨hspec.subscriptions, hspec.scopes,
            hspec.effects.trans (ensureScopes_effects hscopes'),
            ensureScopes_owned (fun row hrow => Or.inl ⟨row, hrow, rfl, rfl⟩) hselected
              (fun s _ hs => absurd hs List.not_mem_nil) hp₁ hscopes', fun rows' hok => ?_⟩
          cases hok
          have hcalls : ∀ call ∈ p₁.calls, call.connectorId = connector.id →
              call = .refresh connector.id := by
            intro call hcall hc
            rcases hspec.calls with heq | heq
            · rw [heq] at hcall
              exact absurd hc (hnew call hcall)
            · rw [heq] at hcall
              rcases List.mem_cons.mp hcall with rfl | hcall
              · rfl
              · exact absurd hc (hnew call hcall)
          have hstart : Loop connector.id db.subscriptions [] db.subscriptions p₁ :=
            ⟨hkeys, fun id hid => (by cases hcalls _ hid rfl),
              fun id gone hid => (by cases hcalls _ hid rfl),
              fun hfailed => (by cases hcalls _ hfailed rfl), fun row hrow => Or.inl hrow⟩
          exact hstart.all hselected (fun s _ hs => absurd hs List.not_mem_nil) hscopes'

/-! ### A pass -/

/-- What is on record of a pass that has come so far: `before` are the rows it began with, `there`
the subscriptions at the provider, `seen` the connectors. -/
structure Accounted (before : List Subscription) (there : List Live) (seen : List Id)
    (pass : Pass) : Prop where
  keys : (pass.db.subscriptions.map Subscription.providerSubscriptionId).Nodup
  scopes : (pass.db.scopes.map SourceScope.id).Nodup
  about : ∀ call ∈ pass.provider.calls, call.connectorId ∈ seen
  owned : Owned pass.db.subscriptions pass.provider
  created : ∀ c id, Request.create c id ∈ pass.provider.calls → c ∉ pass.failed →
    ∃ row ∈ pass.db.subscriptions, row.providerSubscriptionId = id ∧ row.connectorId = c ∧
      row.active = true
  deleted : ∀ c id gone, Request.delete c id gone ∈ pass.provider.calls → c ∉ pass.failed →
    ∃ row ∈ pass.db.subscriptions, row.providerSubscriptionId = id ∧ row.connectorId = c ∧
      row.active = false
  refused : ∀ c, Request.createFailed c ∈ pass.provider.calls → c ∈ pass.failed
  kept : ∀ row ∈ before, row ∈ pass.db.subscriptions ∨ row.off ∈ pass.db.subscriptions ∧
    ∃ gone, Request.delete row.connectorId row.providerSubscriptionId gone ∈
      pass.provider.calls ∧
        (gone = true → Live.known row.providerSubscriptionId ∉ pass.provider.live)
  grown : ∀ x ∈ pass.provider.live, x ∈ there ∨
    (∃ c id, x = .known id ∧ .create c id ∈ pass.provider.calls) ∨
      ∃ c scope, x = .stray scope ∧ .createFailed c ∈ pass.provider.calls

variable {before : List Subscription} {there : List Live} {seen : List Id} {pass : Pass}

theorem Accounted.grown_step (h : Accounted before there seen pass)
    (he : Effects c rows pass.provider p) : ∀ x ∈ p.live, x ∈ there ∨
      (∃ c id, x = .known id ∧ .create c id ∈ p.calls) ∨
        ∃ c scope, x = .stray scope ∧ .createFailed c ∈ p.calls := by
  intro x hx
  rcases he.grown x hx with hx | ⟨id, heq, hcall⟩ | ⟨scope, heq, hcall⟩
  · rcases h.grown x hx with hx | ⟨c', id, heq, hcall⟩ | ⟨c', scope, heq, hcall⟩
    · exact Or.inl hx
    · exact Or.inr (Or.inl ⟨c', id, heq, he.kept _ hcall⟩)
    · exact Or.inr (Or.inr ⟨c', scope, heq, he.kept _ hcall⟩)
  · exact Or.inr (Or.inl ⟨c, id, heq, hcall⟩)
  · exact Or.inr (Or.inr ⟨c, scope, heq, hcall⟩)

theorem Accounted.about_step (h : Accounted before there seen pass)
    (he : Effects c rows pass.provider p) : ∀ call ∈ p.calls, call.connectorId ∈ c :: seen := by
  intro call hcall
  by_cases hc : call.connectorId = c
  · exact hc ▸ List.mem_cons_self
  · exact List.mem_cons_of_mem _ (h.about call (he.others call hc hcall))

theorem Accounted.rolledBack (h : Accounted before there seen pass) (connector : Connector)
    {p : Provider} {aborted : Bool} (hrows : db.subscriptions = pass.db.subscriptions)
    (hscopes : db.scopes = pass.db.scopes)
    (he : Effects connector.id pass.db.subscriptions pass.provider p)
    (howned : Owned pass.db.subscriptions p) :
    Accounted before there (connector.id :: seen)
      ⟨db, p, connector.id :: pass.failed, aborted⟩ where
  keys := hrows ▸ h.keys
  scopes := hscopes ▸ h.scopes
  about := h.about_step he
  owned := hrows ▸ howned
  created c id hid hc := by
    rw [List.mem_cons, not_or] at hc
    rw [hrows]
    exact h.created c id (he.others _ hc.1 hid) hc.2
  deleted c id gone hid hc := by
    rw [List.mem_cons, not_or] at hc
    rw [hrows]
    exact h.deleted c id gone (he.others _ hc.1 hid) hc.2
  refused c hcall := by
    by_cases hc : c = connector.id
    · exact hc ▸ List.mem_cons_self
    · exact List.mem_cons_of_mem _ (h.refused c (he.others _ hc hcall))
  kept row hrow := by
    rw [hrows]
    rcases h.kept row hrow with hin | ⟨hoff, gone, hasked, hlive⟩
    · exact Or.inl hin
    · exact Or.inr ⟨hoff, gone, he.kept _ hasked, fun hg => he.gone row.off hoff (hlive hg)⟩
  grown := h.grown_step he

theorem Accounted.committed (h : Accounted before there seen pass) {p : Provider}
    (hscopes : db.scopes = pass.db.scopes)
    (he : Effects connector.id pass.db.subscriptions pass.provider p)
    (howned : Owned pass.db.subscriptions p)
    (hl : Loop connector.id pass.db.subscriptions done rows p) :
    Accounted before there (connector.id :: seen)
      { pass with db := repaired connector rows db, provider := p } where
  keys := hl.keys
  scopes := hscopes ▸ h.scopes
  about := h.about_step he
  owned c id gone hcall := by
    obtain ⟨row, hrow, hid, hc⟩ := howned c id gone hcall
    rcases hl.kept row hrow with hin | ⟨hoff, -⟩
    · exact ⟨row, hin, hid, hc⟩
    · exact ⟨row.off, hoff, hid, hc⟩
  created c id hid hc := by
    by_cases heq : c = connector.id
    · subst heq
      obtain ⟨row, hrow, hid, hrc, hra, -⟩ := hl.created id hid
      exact ⟨row, hrow, hid, hrc, hra⟩
    · obtain ⟨row, hrow, hid, hrc, hra⟩ := h.created c id (he.others _ heq hid) hc
      rcases hl.kept row hrow with hin | ⟨-, hconnector, -⟩
      · exact ⟨row, hin, hid, hrc, hra⟩
      · exact absurd (hrc.symm.trans hconnector) heq
  deleted c id gone hid hc := by
    by_cases heq : c = connector.id
    · subst heq
      exact hl.deleted id gone hid
    · obtain ⟨row, hrow, hid, hrc, hra⟩ := h.deleted c id gone (he.others _ heq hid) hc
      rcases hl.kept row hrow with hin | ⟨-, hconnector, -⟩
      · exact ⟨row, hin, hid, hrc, hra⟩
      · exact absurd (hrc.symm.trans hconnector) heq
  refused c hcall := by
    by_cases hc : c = connector.id
    · exact absurd (hc ▸ hcall) hl.clean
    · exact h.refused c (he.others _ hc hcall)
  kept row hrow := by
    rcases h.kept row hrow with hin | ⟨hoff, gone, hasked, hlive⟩
    · rcases hl.kept row hin with hin | ⟨hoff, hc, gone, hasked, hlive⟩
      · exact Or.inl hin
      · exact Or.inr ⟨hoff, gone, hc ▸ hasked, hlive⟩
    · rcases hl.kept row.off hoff with hin | ⟨hoff', -, -⟩
      · exact Or.inr ⟨hin, gone, he.kept _ hasked, fun hg => he.gone row.off hoff (hlive hg)⟩
      · exact Or.inr ⟨hoff', gone, he.kept _ hasked, fun hg => he.gone row.off hoff (hlive hg)⟩
  grown := h.grown_step he

/-- **One connector** keeps the account. -/
theorem Accounted.step (h : Accounted before there seen pass) (hunseen : connector.id ∉ seen) :
    Accounted before there (connector.id :: seen) (repairConnector S A pass connector) := by
  unfold repairConnector
  split
  · exact { h with about := fun call hcall => List.mem_cons_of_mem _ (h.about call hcall) }
  · cases hensure : ensureWebhookSubscriptions S A false pass.db pass.provider connector with
    | mk result rest =>
      have hnew : ∀ call ∈ pass.provider.calls, call.connectorId ≠ connector.id :=
        fun call hcall heq => hunseen (heq ▸ h.about call hcall)
      obtain ⟨hrows, hscopes, he, howned, hok⟩ :=
        ensureWebhookSubscriptions_spec h.keys h.scopes hnew h.owned hensure
      cases result with
      | ok rows =>
        obtain ⟨done, hl⟩ := hok rows rfl
        exact h.committed hscopes he howned hl
      | error failure =>
        cases failure with
        | configuration =>
          exact h.rolledBack connector hrows hscopes he howned
        | provider => exact h.rolledBack connector hrows hscopes he howned
        | other => exact h.rolledBack connector hrows hscopes he howned

/-- **Every pass** keeps the account. -/
theorem Accounted.all {connectors : List Connector} (h : Accounted before there seen pass)
    (hkeys : (connectors.map Connector.id).Nodup)
    (hunseen : ∀ connector ∈ connectors, connector.id ∉ seen) :
    ∃ seen', Accounted before there seen' (connectors.foldl (repairConnector S A) pass) := by
  induction connectors generalizing seen pass with
  | nil => exact ⟨seen, h⟩
  | cons connector connectors ih =>
    rw [List.map_cons, List.nodup_cons] at hkeys
    refine ih (h.step (hunseen connector List.mem_cons_self)) hkeys.2 fun other hother hmem => ?_
    rcases List.mem_cons.mp hmem with heq | hmem
    · exact hkeys.1 (heq ▸ List.mem_map_of_mem hother)
    · exact hunseen other (List.mem_cons_of_mem _ hother) hmem

end QnscKb.Webhooks
