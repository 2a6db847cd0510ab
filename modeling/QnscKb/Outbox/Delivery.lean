import QnscKb.Outbox.Model

/-!
# Outbox — Delivery

An event is carried out by a delivery that runs `_fan_out`, yet its attempts are counted when its
messages are sent.
-/

namespace QnscKb.Outbox

open Runs

/-! ### What a run did with an event -/

/-- The deliveries that ran `_fan_out` for event `i`. -/
def Event.fansOut (i : Nat) : Event → Bool
  | .fannedOut outboxId _ => outboxId == some i
  | _ => false

/-- Those that failed. -/
def Event.fails (i : Nat) : Event → Bool
  | .fannedOut outboxId outcome => outboxId == some i && outcome != .succeeds
  | _ => false

/-- Those whose `_fan_out` queued its task. -/
def Event.queuesWork (i : Nat) : Event → Bool
  | .fannedOut outboxId outcome => outboxId == some i && outcome.fannedOut
  | _ => false

def fanOuts (i : Nat) (tr : List (State × Event)) : Nat := tr.countP fun p => p.2.fansOut i

def failures (i : Nat) (tr : List (State × Event)) : Nat := tr.countP fun p => p.2.fails i

def successes (i : Nat) (tr : List (State × Event)) : Nat := tr.countP fun p => p.2.queuesWork i

/-- The transaction of a delivery commits. -/
def Commits (_ : State) : Event → Prop
  | .fannedOut _ outcome => outcome ≠ .commitFails
  | _ => True

/-- No event is dropped undelivered. -/
structure Undropped (tr : List (State × Event)) (s : State) : Prop where
  dead : ∀ (i : Nat) (e : OutboxEvent), s.events[i]? = some e → e.articleId.isSome = true →
    e.status = .dead → OUTBOX_MAX_ATTEMPTS ≤ failures i tr
  runs : ∀ (i : Nat) (t : State) (earlier : List (State × Event)),
    (t, .ignored i) :: earlier <:+ tr → 0 < fanOuts i earlier
  once : Throughout Commits tr → ∀ i, successes i tr ≤ 1

/-- No message of event `i` is on its way. -/
def State.heard (s : State) (i : Nat) : Bool :=
  s.messages.all fun m => m.outboxId != some i || !m.undelivered

/-- A tick selects an event, and a lifecycle completes one, with no message of it on its way; one
that fails does not find the event carried out. -/
def heardOut (s : State) : Event → Bool
  | .replayed claimed => claimed.all s.heard
  | .marked (some i) true => s.heard i
  | .marked (some i) false =>
    (s.events[i]?).all fun e => e.status != .dispatched && e.status != .completed
  | _ => true

def HeardOut (s : State) (e : Event) : Prop := heardOut s e = true

instance (s : State) (e : Event) : Decidable (HeardOut s e) := inferInstanceAs (Decidable (_ = true))

/-! ### Counting messages -/

/-- The messages of event `i` that were delivered. -/
def State.delivered (s : State) (i : Nat) : Nat :=
  s.messages.countP fun m => m.outboxId == some i && m.stage == .delivered

/-- The messages that ticks decided to send for event `i`; the broker may have refused one. -/
def State.resent (s : State) (i : Nat) : Nat :=
  s.messages.countP fun m => m.outboxId == some i && m.sender == .replay

variable {m i : Nat}

theorem countP_modify {α : Type} {p : α → Bool} {f : α → α} {l : List α} {a : α}
    (h : l[m]? = some a) :
    (l.modify m f).countP p + (if p a then 1 else 0) = l.countP p + if p (f a) then 1 else 0 := by
  induction l generalizing m with
  | nil => cases h
  | cons b l ih =>
    cases m with
    | zero =>
      cases h
      simp only [List.modify_zero_cons, List.countP_cons]
      omega
    | succ m =>
      have htail := ih (m := m) (by simpa using h)
      simp only [List.modify_succ_cons, List.countP_cons]
      omega

variable {s : State} {message : Message}

theorem delivered_setStage (stage : Stage) (h : s.messages[m]? = some message)
    (hstage : message.stage ≠ .delivered) (hnew : stage ≠ .delivered) (i : Nat) :
    (s.setStage m stage).delivered i = s.delivered i := by
  have hcount := countP_modify (p := fun m => m.outboxId == some i && m.stage == .delivered)
    (f := fun message : Message => { message with stage := stage }) h
  simpa [State.delivered, State.setStage, hstage, hnew] using hcount

/-- Delivering one message delivers at most one more of each event. -/
theorem delivered_deliver_le (h : s.messages[m]? = some message) (i : Nat) :
    (s.setStage m .delivered).delivered i ≤ s.delivered i + 1 := by
  have hcount := countP_modify (p := fun m => m.outboxId == some i && m.stage == .delivered)
    (f := fun message : Message => { message with stage := .delivered }) h
  refine (Nat.le_add_right _ _).trans (hcount.le.trans (Nat.add_le_add_left ?_ _))
  split <;> omega

/-- A delivered message of another event counts for none of this one. -/
theorem delivered_deliver_of_ne (h : s.messages[m]? = some message)
    (hid : message.outboxId ≠ some i) : (s.setStage m .delivered).delivered i = s.delivered i := by
  have hcount := countP_modify (p := fun m => m.outboxId == some i && m.stage == .delivered)
    (f := fun message : Message => { message with stage := .delivered }) h
  have hne : (message.outboxId == some i) = false := by simpa using hid
  simpa [State.delivered, State.setStage, hne] using hcount

/-- What ticks decided to send does not depend on where its messages are. -/
theorem resent_setStage (h : s.messages[m]? = some message) (stage : Stage) (i : Nat) :
    (s.setStage m stage).resent i = s.resent i := by
  have hcount := countP_modify (p := fun m => m.outboxId == some i && m.sender == .replay)
    (f := fun message : Message => { message with stage := stage }) h
  exact Nat.add_right_cancel hcount

theorem mem_setStage {stage : Stage} {message' : Message}
    (h : message' ∈ (s.setStage m stage).messages) :
    ∃ message, (message' = message ∨
        (s.messages[m]? = some message ∧ message' = { message with stage := stage })) ∧
      message ∈ s.messages := by
  obtain ⟨j, hj⟩ := List.mem_iff_getElem?.mp h
  rw [State.setStage, List.getElem?_modify] at hj
  obtain ⟨message, hmessage, rfl⟩ := Option.map_eq_some_iff.mp hj
  refine ⟨message, ?_, List.mem_of_getElem? hmessage⟩
  split
  · next hmj => exact Or.inr ⟨hmj ▸ hmessage, rfl⟩
  · exact Or.inl rfl

theorem heard_setStage (h : s.heard i = true) (m : Nat) {stage : Stage}
    (hstage : stage ≠ .held ∧ stage ≠ .queued) : (s.setStage m stage).heard i = true := by
  refine List.all_eq_true.mpr fun message hmem => ?_
  obtain ⟨old, rfl | ⟨-, rfl⟩, hold⟩ := mem_setStage hmem
  · exact List.all_eq_true.mp h message hold
  · simp [Message.undelivered, hstage]

@[simp] theorem handle_messages (s : State) (message : Message) (outcome : Outcome) :
    (s.handle message outcome).messages = s.messages := by
  unfold State.handle
  split <;> split <;> rfl

/-- Only a delivery that succeeds writes the row of its event. -/
theorem handle_events (s : State) (message : Message) (outcome : Outcome) :
    (s.handle message outcome).events =
      match message.outboxId, outcome with
      | some i, .succeeds => s.events.modify i .dispatched
      | _, _ => s.events := by
  unfold State.handle
  cases message.outboxId <;> cases outcome <;> rfl

/-- What delivering a message can come to: nothing to do, or a fan-out. -/
theorem next_deliver {t : State} {ev : Event} {outcome : Outcome}
    (h : next s (.deliver m outcome) = some (ev, t)) :
    ∃ message, s.messages[m]? = some message ∧
      ((∃ i, message.outboxId = some i ∧ s.settledRow message = true ∧ ev = .ignored i ∧
          (message.stage = .queued ∨ message.stage = .delivered) ∧ t = s.setStage m .delivered) ∨
        (s.settledRow message = false ∧ ev = .fannedOut message.outboxId outcome ∧
          t = (s.setStage m .delivered).handle message outcome)) := by
  obtain ⟨message, hmessage, h⟩ := Option.bind_eq_some_iff.mp h
  refine ⟨message, hmessage, ?_⟩
  split at h
  · next hstage =>
    cases hsettled : s.settledRow message with
    | true =>
      cases hid : message.outboxId with
      | none => simp [State.settledRow, hid] at hsettled
      | some i =>
        simp only [hsettled, hid, Option.some.injEq, Prod.mk.injEq] at h
        exact Or.inl ⟨i, rfl, rfl, h.1.symm, hstage, h.2.symm⟩
    | false =>
      simp only [hsettled] at h
      split at h
      · simp only [Option.some.injEq, Prod.mk.injEq] at h
        exact Or.inr ⟨rfl, h.1.symm, h.2.symm⟩
      · cases h
  · cases h

/-! ### What holds of an event -/

/-- The messages of event `i` are accounted for by the fan-outs that ran. -/
structure Kept (tr : List (State × Event)) (s : State) (i : Nat) (e : OutboxEvent) : Prop where
  failed : e.status.settled = false →
    s.delivered i ≤ failures i tr ∨ OUTBOX_MAX_ATTEMPTS ≤ failures i tr
  resent : e.attempts ≤ s.resent i
  dead : e.status = .dead → OUTBOX_MAX_ATTEMPTS ≤ failures i tr
  dispatched : e.status = .dispatched → 0 < fanOuts i tr
  completed : e.status = .completed → s.heard i = true
  unmet : Throughout Commits tr → e.status ≠ .dispatched → e.status ≠ .completed →
    successes i tr = 0

theorem failures_le_fanOuts (i : Nat) (tr : List (State × Event)) :
    failures i tr ≤ fanOuts i tr := by
  refine List.countP_mono_left fun p _ hfails => ?_
  obtain ⟨t, ev⟩ := p
  cases ev with
  | fannedOut outboxId outcome => exact (Bool.and_eq_true_iff.mp hfails).1
  | replayed | ignored | marked | quiet => cases hfails

theorem successes_le_fanOuts (i : Nat) (tr : List (State × Event)) :
    successes i tr ≤ fanOuts i tr := by
  refine List.countP_mono_left fun p _ hqueues => ?_
  obtain ⟨t, ev⟩ := p
  cases ev with
  | fannedOut outboxId outcome => exact (Bool.and_eq_true_iff.mp hqueues).1
  | replayed | ignored | marked | quiet => cases hqueues

theorem fanOuts_cons (i : Nat) (t : State) (ev : Event) (tr : List (State × Event)) :
    fanOuts i ((t, ev) :: tr) = fanOuts i tr + if ev.fansOut i then 1 else 0 :=
  List.countP_cons

theorem failures_cons (i : Nat) (t : State) (ev : Event) (tr : List (State × Event)) :
    failures i ((t, ev) :: tr) = failures i tr + if ev.fails i then 1 else 0 :=
  List.countP_cons

theorem successes_cons (i : Nat) (t : State) (ev : Event) (tr : List (State × Event)) :
    successes i ((t, ev) :: tr) = successes i tr + if ev.queuesWork i then 1 else 0 :=
  List.countP_cons

/-- A step that runs no fan-out changes no count. -/
theorem counts_of_not_fansOut {ev : Event} (h : ev.fansOut i = false) (t : State)
    (tr : List (State × Event)) :
    fanOuts i ((t, ev) :: tr) = fanOuts i tr ∧ failures i ((t, ev) :: tr) = failures i tr ∧
      successes i ((t, ev) :: tr) = successes i tr := by
  have hrest : ev.fails i = false ∧ ev.queuesWork i = false := by
    cases ev with
    | fannedOut outboxId outcome =>
      have hid : (outboxId == some i) = false := h
      simp [Event.fails, Event.queuesWork, hid]
    | replayed | ignored | marked | quiet => exact ⟨rfl, rfl⟩
  rw [fanOuts_cons, failures_cons, successes_cons, h, hrest.1, hrest.2]
  exact ⟨rfl, rfl, rfl⟩

section

variable {tr : List (State × Event)} {s t : State} {i : Nat} {e : OutboxEvent} {ev : Event}

/-- What is kept of an event survives a step that runs no fan-out and loses none of its messages. -/
theorem Kept.frame (h : Kept tr s i e) (hev : ev.fansOut i = false)
    (hdelivered : t.delivered i = s.delivered i) (hresent : s.resent i ≤ t.resent i)
    (hheard : s.heard i = true → e.status = .completed → t.heard i = true) :
    Kept ((s, ev) :: tr) t i e := by
  obtain ⟨hfan, hfail, hsucc⟩ := counts_of_not_fansOut hev s tr
  constructor
  · rw [hdelivered, hfail]
    exact h.failed
  · exact h.resent.trans hresent
  · rw [hfail]
    exact h.dead
  · rw [hfan]
    exact h.dispatched
  · intro hcompleted
    exact hheard (h.completed hcompleted) hcompleted
  · rw [hsucc]
    exact fun hc => h.unmet hc.tail

/-- An event that was just published has had no fan-out and no delivery. -/
theorem Kept.inserted {eventType : EventType} {articleId : Option Nat} {now : Nat}
    (hfresh : fanOuts i tr = 0) (hnone : t.delivered i = 0) :
    Kept tr t i (.published eventType articleId now) := by
  constructor
  · intro _
    rw [hnone]
    exact Or.inl (Nat.zero_le _)
  · exact Nat.zero_le _
  · intro hdead
    cases hdead
  · intro hdispatched
    cases hdispatched
  · intro hcompleted
    cases hcompleted
  · intro _ _ _
    exact Nat.le_zero.mp (hfresh ▸ successes_le_fanOuts i tr)

/-- A tick that finds all sent messages delivered may count one more attempt. -/
theorem Kept.claimed (h : Kept tr s i e) {rows : List Nat} (hopen : e.status.settled = false)
    (hall : s.resent i ≤ s.delivered i) (hdelivered : t.delivered i = s.delivered i)
    (hresent : s.resent i ≤ t.resent i)
    (hnew : e.attempts < OUTBOX_MAX_ATTEMPTS → s.resent i + 1 ≤ t.resent i) :
    Kept ((s, .replayed rows) :: tr) t i (e.claimed s.now) := by
  obtain ⟨hfan, hfail, hsucc⟩ :=
    counts_of_not_fansOut (show (Event.replayed rows).fansOut i = false from rfl) s tr
  have hnot : e.status ≠ .dispatched ∧ e.status ≠ .completed := by
    constructor
    · intro hstatus
      simp [hstatus, OutboxStatus.settled] at hopen
    · intro hstatus
      simp [hstatus, OutboxStatus.settled] at hopen
  by_cases hlast : e.attempts ≥ OUTBOX_MAX_ATTEMPTS
  · rw [OutboxEvent.claimed, if_pos hlast]
    -- Every message that was counted has been delivered, and its fan-out failed.
    have hdead : OUTBOX_MAX_ATTEMPTS ≤ failures i tr := by
      rcases h.failed hopen with hle | hle
      · exact hlast.le.trans (h.resent.trans (hall.trans hle))
      · exact hle
    constructor
    · intro hopen'
      cases hopen'
    · exact h.resent.trans hresent
    · intro _
      rwa [hfail]
    · intro hdispatched
      cases hdispatched
    · intro hcompleted
      cases hcompleted
    · intro hc _ _
      exact h.unmet hc.tail hnot.1 hnot.2
  · rw [OutboxEvent.claimed, if_neg hlast]
    constructor
    · intro _
      rw [hdelivered]
      exact h.failed hopen
    · exact (Nat.succ_le_succ h.resent).trans (hnew (not_le.mp hlast))
    · intro hdead
      cases hdead
    · intro hdispatched
      cases hdispatched
    · intro hcompleted
      cases hcompleted
    · intro hc _ _
      exact h.unmet hc.tail hnot.1 hnot.2

/-- A message of a settled event is dropped after the event was carried out or given up. -/
theorem Kept.ignored (h : Kept tr s i e) (hsettled : e.status.settled = true)
    (hresent : t.resent i = s.resent i) (hheard : s.heard i = true → t.heard i = true) :
    Kept ((s, .ignored i) :: tr) t i e := by
  obtain ⟨hfan, hfail, hsucc⟩ :=
    counts_of_not_fansOut (show (Event.ignored i).fansOut i = false from rfl) s tr
  constructor
  · intro hopen
    rw [hsettled] at hopen
    cases hopen
  · rw [hresent]
    exact h.resent
  · rw [hfail]
    exact h.dead
  · rw [hfan]
    exact h.dispatched
  · exact fun hcompleted => hheard (h.completed hcompleted)
  · rw [hsucc]
    exact fun hc => h.unmet hc.tail

/-- A fan-out that fails is one more delivery and one more failure. -/
theorem Kept.fails (h : Kept tr s i e) (hopen : e.status.settled = false) {outcome : Outcome}
    (houtcome : outcome ≠ .succeeds) (hdelivered : t.delivered i ≤ s.delivered i + 1)
    (hresent : t.resent i = s.resent i) :
    Kept ((s, .fannedOut (some i) outcome) :: tr) t i e := by
  have hfail : failures i ((s, .fannedOut (some i) outcome) :: tr) = failures i tr + 1 := by
    rw [failures_cons]
    simp [Event.fails, houtcome]
  have hsettles {status : OutboxStatus} (hstatus : status.settled = true) : e.status ≠ status := by
    rintro rfl
    rw [hopen] at hstatus
    cases hstatus
  constructor
  · intro _
    rw [hfail]
    rcases h.failed hopen with hle | hle
    · exact Or.inl (hdelivered.trans (Nat.succ_le_succ hle))
    · exact Or.inr (hle.trans (Nat.le_succ _))
  · rw [hresent]
    exact h.resent
  · exact fun hdead => absurd hdead (hsettles rfl)
  · exact fun hdispatched => absurd hdispatched (hsettles rfl)
  · exact fun hcompleted => absurd hcompleted (hsettles rfl)
  · intro hc hdispatched hcompleted
    rw [successes_cons, h.unmet hc.tail hdispatched hcompleted]
    have hcommits : outcome ≠ .commitFails := hc.head
    cases outcome with
    | raises => simp [Event.queuesWork, Outcome.fannedOut]
    | commitFails => exact absurd rfl hcommits
    | succeeds => exact absurd rfl houtcome

/-- A fan-out that succeeds settles the event. -/
theorem Kept.dispatched_of_succeeds (h : Kept tr s i e) (hresent : t.resent i = s.resent i) :
    Kept ((s, .fannedOut (some i) .succeeds) :: tr) t i e.dispatched := by
  constructor
  · intro hopen
    cases hopen
  · rw [hresent]
    exact h.resent
  · intro hdead
    cases hdead
  · intro _
    rw [fanOuts_cons]
    simp [Event.fansOut]
  · intro hcompleted
    cases hcompleted
  · exact fun _ hdispatched => absurd rfl hdispatched

/-- The lifecycle in process settles an event of which no message is on its way. -/
theorem Kept.marked (h : Kept tr s i e) {error : Option Text}
    (hheard : heardOut s (.marked (some i) error.isNone) = true) (he : s.events[i]? = some e)
    (hdelivered : t.delivered i = s.delivered i) (hresent : t.resent i = s.resent i)
    (hkept : s.heard i = true → t.heard i = true) :
    Kept ((s, .marked (some i) error.isNone) :: tr) t i (e.marked error s.now) := by
  obtain ⟨hfan, hfail, hsucc⟩ :=
    counts_of_not_fansOut (show (Event.marked (some i) error.isNone).fansOut i = false from rfl) s tr
  cases error with
  | none =>
    constructor
    · intro hopen
      cases hopen
    · rw [hresent]
      exact h.resent
    · intro hdead
      cases hdead
    · intro hdispatched
      cases hdispatched
    · exact fun _ => hkept hheard
    · exact fun _ _ hcompleted => absurd rfl hcompleted
  | some error =>
    simp only [heardOut, Option.isNone_some, he, Option.all_some, Bool.and_eq_true,
      bne_iff_ne] at hheard
    obtain ⟨hdispatched, hcompleted⟩ := hheard
    constructor
    · intro _
      rw [hdelivered]
      by_cases hdead : e.status = .dead
      · exact Or.inr (h.dead hdead)
      · refine h.failed ?_
        cases hstatus : e.status <;> simp_all [OutboxStatus.settled]
    · rw [hresent]
      exact h.resent
    · intro hdead
      cases hdead
    · intro hdispatched
      cases hdispatched
    · intro hcompleted
      cases hcompleted
    · intro hc _ _
      exact h.unmet hc.tail hdispatched hcompleted

end

/-! ### The invariant -/

structure Accounted (tr : List (State × Event)) (s : State) : Prop where
  kept : ∀ (i : Nat) (e : OutboxEvent), s.events[i]? = some e → Kept tr s i e
  known : ∀ m ∈ s.messages, ∀ i, m.outboxId = some i → i < s.events.length
  sender : ∀ m ∈ s.messages, m.sender = .replay → m.stage ≠ .inProcess ∧ m.stage ≠ .ended
  ran : ∀ i, 0 < s.delivered i → 0 < fanOuts i tr
  fresh : ∀ i, s.events.length ≤ i → fanOuts i tr = 0
  runs : ∀ (i : Nat) (t : State) (earlier : List (State × Event)),
    (t, .ignored i) :: earlier <:+ tr → 0 < fanOuts i earlier
  once : Throughout Commits tr → ∀ i, successes i tr ≤ 1

theorem Accounted.of_initial (h : Initial s) : Accounted [] s := by
  obtain ⟨hevents, hmessages⟩ := h
  constructor
  · intro i e he
    rw [hevents] at he
    cases he
  · rw [hmessages]
    intro m hm
    cases hm
  · rw [hmessages]
    intro m hm
    cases hm
  · intro i hpos
    rw [State.delivered, hmessages] at hpos
    exact absurd hpos (Nat.lt_irrefl 0)
  · exact fun _ _ => rfl
  · intro i t earlier hsuffix
    cases List.suffix_nil.mp hsuffix
  · exact fun _ _ => Nat.zero_le 1

section

variable {tr : List (State × Event)} {s t : State} {ev : Event}

/-- A step that carries nothing out keeps the account, if it keeps every event's. -/
theorem Accounted.frame (h : Accounted tr s) (hev : ∀ i, ev.fansOut i = false)
    (hnot : ∀ i, ev ≠ .ignored i)
    (hkept : ∀ (i : Nat) (e : OutboxEvent), t.events[i]? = some e → Kept ((s, ev) :: tr) t i e)
    (hknown : ∀ m ∈ t.messages, ∀ i, m.outboxId = some i → i < t.events.length)
    (hsender : ∀ m ∈ t.messages, m.sender = .replay → m.stage ≠ .inProcess ∧ m.stage ≠ .ended)
    (hdelivered : ∀ i, t.delivered i = s.delivered i)
    (hlength : s.events.length ≤ t.events.length) : Accounted ((s, ev) :: tr) t := by
  refine ⟨hkept, hknown, hsender, ?_, ?_, ?_, ?_⟩
  · intro i hpos
    rw [(counts_of_not_fansOut (hev i) s tr).1]
    rw [hdelivered] at hpos
    exact h.ran i hpos
  · intro i hi
    rw [(counts_of_not_fansOut (hev i) s tr).1]
    exact h.fresh i (hlength.trans hi)
  · intro i u earlier hsuffix
    rcases List.suffix_cons_iff.mp hsuffix with heq | hsuffix
    · cases heq
      exact absurd rfl (hnot i)
    · exact h.runs i u earlier hsuffix
  · intro hc i
    rw [(counts_of_not_fansOut (hev i) s tr).2.2]
    exact h.once hc.tail i

variable {i m : Nat}

/-- No message of an event is delivered before the event is there. -/
theorem Accounted.delivered_unknown (h : Accounted tr s) (hi : s.events.length ≤ i) :
    s.delivered i = 0 := by
  rw [State.delivered, List.countP_eq_zero]
  intro m hm hcounted
  have hid : m.outboxId = some i := by
    simpa using (Bool.and_eq_true_iff.mp hcounted).1
  exact absurd (h.known m hm i hid) (Nat.not_lt.mpr hi)

/-- Publishing adds an event that is accounted for, or none. -/
theorem Accounted.publish (h : Accounted tr s) (eventType : EventType) (articleId : Option Nat)
    (persisted : Bool) :
    Accounted ((s, .quiet) :: tr) (s.publish eventType articleId persisted) := by
  have hdelivered (i : Nat) :
      (s.publish eventType articleId persisted).delivered i = s.delivered i := by
    simp [State.publish, State.delivered]
  have hresent (i : Nat) :
      s.resent i ≤ (s.publish eventType articleId persisted).resent i := by
    simp [State.publish, State.resent]
  refine h.frame (fun _ => rfl) (fun _ => nofun) ?_ ?_ ?_ hdelivered ?_
  · intro i e he
    have hold (he : s.events[i]? = some e) :
        Kept ((s, .quiet) :: tr) (s.publish eventType articleId persisted) i e := by
      refine (h.kept i e he).frame rfl (hdelivered i) (hresent i) fun hheard _ => ?_
      have hlt : i < s.events.length := (List.getElem?_eq_some_iff.mp he).1
      have hne : s.events.length ≠ i := hlt.ne'
      cases persisted <;> simp [State.heard, State.publish, Message.undelivered, hne] at hheard ⊢
        <;> exact hheard
    cases persisted with
    | false => exact hold he
    | true =>
      have he' : (s.events ++ [OutboxEvent.published eventType articleId s.now])[i]? = some e := he
      rcases Nat.lt_trichotomy i s.events.length with hlt | rfl | hgt
      · rw [List.getElem?_append_left hlt] at he'
        exact hold he'
      · rw [List.getElem?_concat_length] at he'
        cases he'
        refine Kept.inserted ?_ ?_
        · rw [(counts_of_not_fansOut (show Event.quiet.fansOut _ = false from rfl) s tr).1]
          exact h.fresh _ le_rfl
        · rw [hdelivered]
          exact h.delivered_unknown le_rfl
      · rw [List.getElem?_eq_none (by simp; omega)] at he'
        cases he'
  · intro m hm i hid
    rcases List.mem_append.mp hm with hm | hm
    · have hlt := h.known m hm i hid
      cases persisted
      · exact hlt
      · exact hlt.trans (by simp [State.publish])
    · rw [List.mem_singleton.mp hm] at hid
      cases persisted with
      | false => cases hid
      | true =>
        cases hid
        simp [State.publish]
  · intro m hm hreplay
    rcases List.mem_append.mp hm with hm | hm
    · exact h.sender m hm hreplay
    · rw [List.mem_singleton.mp hm] at hreplay
      cases hreplay
  · cases persisted <;> simp [State.publish]

variable {stage : Stage}

theorem Accounted.known_setStage (h : Accounted tr s) :
    ∀ message ∈ (s.setStage m stage).messages, ∀ i, message.outboxId = some i →
      i < s.events.length := by
  intro message hmem i hid
  obtain ⟨old, rfl | ⟨-, rfl⟩, hold⟩ := mem_setStage hmem
  · exact h.known message hold i hid
  · exact h.known old hold i hid

variable {message : Message}

/-- Only the publisher's message comes to run in process. -/
theorem Accounted.sender_setStage (h : Accounted tr s) (hmessage : s.messages[m]? = some message)
    (hstage : message.sender = .replay → stage ≠ .inProcess ∧ stage ≠ .ended) :
    ∀ message' ∈ (s.setStage m stage).messages, message'.sender = .replay →
      message'.stage ≠ .inProcess ∧ message'.stage ≠ .ended := by
  intro message' hmem hreplay
  obtain ⟨old, rfl | ⟨hat, rfl⟩, hold⟩ := mem_setStage hmem
  · exact h.sender message' hold hreplay
  · rw [hmessage] at hat
    cases hat
    exact hstage hreplay

/-- The broker takes a message, or the publisher goes on in process. -/
theorem Accounted.send (h : Accounted tr s) (hmessage : s.messages[m]? = some message)
    (hheld : message.stage = .held)
    (hnew : stage = .queued ∨ (stage = .inProcess ∧ message.sender = .publisher)) :
    Accounted ((s, .quiet) :: tr) (s.setStage m stage) := by
  have hdelivered := delivered_setStage stage hmessage (by simp [hheld])
    (by rcases hnew with rfl | ⟨rfl, -⟩ <;> simp)
  refine h.frame (fun _ => rfl) (fun _ => nofun) ?_ h.known_setStage ?_ hdelivered le_rfl
  · intro i e he
    refine (h.kept i e he).frame rfl (hdelivered i) (resent_setStage hmessage stage i).ge ?_
    intro hheard _
    -- A held message is on its way, so the event it is for is not heard.
    refine List.all_eq_true.mpr fun message' hmem => ?_
    obtain ⟨old, rfl | ⟨hat, rfl⟩, hold⟩ := mem_setStage hmem
    · exact List.all_eq_true.mp hheard message' hold
    · rw [hmessage] at hat
      cases hat
      have hother := List.all_eq_true.mp hheard message hold
      rw [Message.undelivered, hheld] at hother
      have hne : (message.outboxId != some i) = true := by simpa using hother
      simp [hne]
  · refine h.sender_setStage hmessage fun hreplay => ?_
    rcases hnew with rfl | ⟨rfl, hpublisher⟩
    · exact ⟨nofun, nofun⟩
    · rw [hpublisher] at hreplay
      cases hreplay

theorem Accounted.wait (h : Accounted tr s) (seconds : Nat) :
    Accounted ((s, .quiet) :: tr) { s with now := s.now + seconds } :=
  h.frame (fun _ => rfl) (fun _ => nofun)
    (fun i e he => (h.kept i e he).frame rfl rfl le_rfl fun hheard _ => hheard)
    h.known h.sender (fun _ => rfl) le_rfl

/-! ### Ticks -/

/-- A tick selects events that are not settled. -/
theorem mem_claimable {locked : List Nat} (h : i ∈ s.claimable locked) :
    ∃ e, s.events[i]? = some e ∧ e.status.settled = false := by
  have hfilter := (List.mem_filter.mp (List.mem_of_mem_take h)).2
  obtain ⟨e, he, hdue⟩ := (Option.any_eq_true _ _).mp (Bool.and_eq_true_iff.mp hfilter).2
  exact ⟨e, he, by simpa using (Bool.and_eq_true_iff.mp hdue).1⟩

/-- A message that a tick sends is of an event it selected. -/
theorem mem_dispatchable {claimed : List Nat} (h : message ∈ s.dispatchable claimed) :
    ∃ i e, i ∈ claimed ∧ s.events[i]? = some e ∧ message = e.message i := by
  obtain ⟨i, hi, hmessage⟩ := List.mem_filterMap.mp h
  obtain ⟨e, he, hmessage⟩ := Option.bind_eq_some_iff.mp hmessage
  refine ⟨i, e, hi, he, ?_⟩
  split at hmessage
  · cases hmessage
  · cases hmessage
    rfl

theorem delivered_replay (claimed : List Nat) (i : Nat) :
    (s.replay claimed).delivered i = s.delivered i := by
  have hnone : (s.dispatchable claimed).countP
      (fun m => m.outboxId == some i && m.stage == .delivered) = 0 := by
    rw [List.countP_eq_zero]
    intro message hmem
    obtain ⟨j, e, -, -, rfl⟩ := mem_dispatchable hmem
    simp [OutboxEvent.message]
  rw [State.delivered, State.replay, List.countP_append, hnone]
  rfl

/-- A tick takes no message back. -/
theorem resent_replay_le (claimed : List Nat) (i : Nat) :
    s.resent i ≤ (s.replay claimed).resent i := by
  rw [State.resent, State.resent, State.replay, List.countP_append]
  exact Nat.le_add_right _ _

variable {e : OutboxEvent}

/-- A tick decides to send a message for each event it selects with attempts left. -/
theorem resent_replay_lt {claimed : List Nat} (hi : i ∈ claimed) (he : s.events[i]? = some e)
    (hleft : e.attempts < OUTBOX_MAX_ATTEMPTS) : s.resent i + 1 ≤ (s.replay claimed).resent i := by
  rw [State.resent, State.resent, State.replay, List.countP_append]
  refine Nat.add_le_add_left (List.countP_pos_iff.mpr ⟨e.message i, ?_, ?_⟩) _
  · refine List.mem_filterMap.mpr ⟨i, hi, ?_⟩
    rw [he, Option.bind_some, if_neg (not_le.mpr hleft)]
  · simp [OutboxEvent.message]

/-- Once no message is on its way, all that ticks sent was delivered. -/
theorem Accounted.resent_le_delivered (h : Accounted tr s) (hheard : s.heard i = true) :
    s.resent i ≤ s.delivered i := by
  refine List.countP_mono_left fun message hmem hcounted => ?_
  obtain ⟨hid, hreplay⟩ := Bool.and_eq_true_iff.mp hcounted
  have hsender := h.sender message hmem (by simpa using hreplay)
  have hout := List.all_eq_true.mp hheard message hmem
  have hid' : message.outboxId = some i := by simpa using hid
  simp only [Message.undelivered] at hout ⊢
  cases hstage : message.stage <;> simp_all

/-- A tick keeps the account if no message of what it selects is on its way. -/
theorem Accounted.replay (h : Accounted tr s) {locked : List Nat}
    (hheard : heardOut s (.replayed (s.claimable locked)) = true) :
    Accounted ((s, .replayed (s.claimable locked)) :: tr) (s.replay (s.claimable locked)) := by
  have hdelivered := delivered_replay (s := s) (s.claimable locked)
  have hlength : (s.replay (s.claimable locked)).events.length = s.events.length := by
    simp [State.replay]
  refine h.frame (fun _ => rfl) (fun _ => nofun) ?_ ?_ ?_ hdelivered hlength.ge
  · intro i e he
    rw [State.replay, List.getElem?_mapIdx] at he
    obtain ⟨old, hold, rfl⟩ := Option.map_eq_some_iff.mp he
    split
    · next hclaimed =>
      have hi : i ∈ s.claimable locked := by simpa using hclaimed
      obtain ⟨e', he', hopen⟩ := mem_claimable hi
      rw [hold] at he'
      cases he'
      exact (h.kept i old hold).claimed hopen
        (h.resent_le_delivered (List.all_eq_true.mp hheard i hi)) (hdelivered i)
        (resent_replay_le _ i) (resent_replay_lt hi hold)
    · next hclaimed =>
      refine (h.kept i old hold).frame rfl (hdelivered i) (resent_replay_le _ i) ?_
      intro hheard' _
      refine List.all_eq_true.mpr fun message hmem => ?_
      rcases List.mem_append.mp hmem with hmem | hmem
      · exact List.all_eq_true.mp hheard' message hmem
      · obtain ⟨j, e, hj, -, rfl⟩ := mem_dispatchable hmem
        have hne : j ≠ i := by
          rintro rfl
          exact hclaimed (by simpa using hj)
        simp [OutboxEvent.message, hne]
  · intro message hmem i hid
    rw [hlength]
    rcases List.mem_append.mp hmem with hmem | hmem
    · exact h.known message hmem i hid
    · obtain ⟨j, e, -, he, rfl⟩ := mem_dispatchable hmem
      cases hid
      exact (List.getElem?_eq_some_iff.mp he).1
  · intro message hmem hreplay
    rcases List.mem_append.mp hmem with hmem | hmem
    · exact h.sender message hmem hreplay
    · obtain ⟨j, e, -, -, rfl⟩ := mem_dispatchable hmem
      exact ⟨nofun, nofun⟩

/-! ### Deliveries -/

/-- A message that finds its event settled comes after a fan-out of it. -/
theorem Accounted.ran_of_settled (h : Accounted tr s) (hmessage : s.messages[m]? = some message)
    (hid : message.outboxId = some i) (hsettled : s.settledRow message = true)
    (hstage : message.stage = .queued ∨ message.stage = .delivered) : 0 < fanOuts i tr := by
  rw [State.settledRow, hid] at hsettled
  obtain ⟨e, he, hsettled⟩ := (Option.any_eq_true _ _).mp hsettled
  have hkept := h.kept i e he
  have hmem := List.mem_of_getElem? hmessage
  cases hstatus : e.status with
  | dispatched => exact hkept.dispatched hstatus
  | dead =>
    have hfailed := (hkept.dead hstatus).trans (failures_le_fanOuts i tr)
    exact (show 0 < OUTBOX_MAX_ATTEMPTS by decide).trans_le hfailed
  | completed =>
    -- An event is completed when no message of it is on its way: this is a second delivery.
    have hout := List.all_eq_true.mp (hkept.completed hstatus) message hmem
    rcases hstage with hqueued | hdelivered
    · simp [hid, Message.undelivered, hqueued] at hout
    · exact h.ran i (List.countP_pos_iff.mpr ⟨message, hmem, by simp [hid, hdelivered]⟩)
  | pending | processing | failed =>
    rw [hstatus] at hsettled
    cases hsettled

/-- Dropping the message of a settled event keeps the account. -/
theorem Accounted.ignored (h : Accounted tr s) (hmessage : s.messages[m]? = some message)
    (hid : message.outboxId = some i) (hsettled : s.settledRow message = true)
    (hstage : message.stage = .queued ∨ message.stage = .delivered) :
    Accounted ((s, .ignored i) :: tr) (s.setStage m .delivered) := by
  have hran := h.ran_of_settled hmessage hid hsettled hstage
  have hcounts (j : Nat) :=
    counts_of_not_fansOut (show (Event.ignored i).fansOut j = false from rfl) s tr
  have hother {j : Nat} (hj : j ≠ i) : message.outboxId ≠ some j := by
    rw [hid]
    exact fun heq => hj (Option.some.inj heq).symm
  have hheard (j : Nat) : s.heard j = true → (s.setStage m .delivered).heard j = true :=
    fun hheard => heard_setStage hheard m ⟨nofun, nofun⟩
  refine ⟨?_, h.known_setStage, h.sender_setStage hmessage fun _ => ⟨nofun, nofun⟩, ?_, ?_, ?_, ?_⟩
  · intro j e he
    by_cases hj : j = i
    · subst hj
      have hrow : e.status.settled = true := by
        rw [State.settledRow, hid, Option.bind_some] at hsettled
        obtain ⟨e', he', hsettled⟩ := (Option.any_eq_true _ _).mp hsettled
        rw [show s.events[j]? = some e from he] at he'
        cases he'
        exact hsettled
      exact (h.kept j e he).ignored hrow (resent_setStage hmessage .delivered j) (hheard j)
    · exact (h.kept j e he).frame rfl (delivered_deliver_of_ne hmessage (hother hj))
        (resent_setStage hmessage .delivered j).ge fun hheard' _ => hheard j hheard'
  · intro j hpos
    by_cases hj : j = i
    · rw [hj]
      exact hran
    · rw [delivered_deliver_of_ne hmessage (hother hj)] at hpos
      exact h.ran j hpos
  · intro j hj
    exact h.fresh j hj
  · intro j u earlier hsuffix
    rcases List.suffix_cons_iff.mp hsuffix with heq | hsuffix
    · cases heq
      exact hran
    · exact h.runs j u earlier hsuffix
  · intro hc j
    exact h.once hc.tail j

theorem delivered_handle (message : Message) (outcome : Outcome) (i : Nat) :
    (s.handle message outcome).delivered i = s.delivered i := by
  rw [State.delivered, handle_messages]
  rfl

theorem resent_handle (message : Message) (outcome : Outcome) (i : Nat) :
    (s.handle message outcome).resent i = s.resent i := by
  rw [State.resent, handle_messages]
  rfl

theorem heard_handle (message : Message) (outcome : Outcome) (i : Nat) :
    (s.handle message outcome).heard i = s.heard i := by
  rw [State.heard, handle_messages]
  rfl

/-- A row after a delivery is as it was, or dispatched. -/
theorem getElem?_handle {outcome : Outcome} (h : (s.handle message outcome).events[i]? = some e) :
    ∃ old, s.events[i]? = some old ∧
      ((message.outboxId = some i ∧ outcome = .succeeds ∧ e = old.dispatched) ∨
        (¬(message.outboxId = some i ∧ outcome = .succeeds) ∧ e = old)) := by
  rw [handle_events] at h
  split at h
  · next j hid =>
    rw [List.getElem?_modify] at h
    obtain ⟨old, hold, rfl⟩ := Option.map_eq_some_iff.mp h
    refine ⟨old, hold, ?_⟩
    by_cases hji : j = i
    · exact Or.inl ⟨by rw [hid, hji], rfl, by simp [hji]⟩
    · exact Or.inr ⟨by simp [hid, hji], by simp [hji]⟩
  · next hnot => exact ⟨e, h, Or.inr ⟨fun ⟨hid, hsucceeds⟩ => hnot i hid hsucceeds, rfl⟩⟩

theorem length_handle (message : Message) (outcome : Outcome) :
    (s.handle message outcome).events.length = s.events.length := by
  rw [handle_events]
  split
  · exact List.length_modify ..
  · rfl

/-- A delivery that runs the fan-out keeps the account, however it goes. -/
theorem Accounted.fannedOut (h : Accounted tr s) {outcome : Outcome}
    (hmessage : s.messages[m]? = some message) (hopen : s.settledRow message = false) :
    Accounted ((s, .fannedOut message.outboxId outcome) :: tr)
      ((s.setStage m .delivered).handle message outcome) := by
  have hunsettled {i : Nat} {e : OutboxEvent} (hid : message.outboxId = some i)
      (he : s.events[i]? = some e) : e.status.settled = false := by
    rw [State.settledRow, hid, Option.bind_some, he] at hopen
    exact hopen
  have hcounts {i : Nat} (hid : message.outboxId ≠ some i) :=
    counts_of_not_fansOut (show (Event.fannedOut message.outboxId outcome).fansOut i = false from
      beq_eq_false_iff_ne.mpr hid) s tr
  have hresent (i : Nat) :
      ((s.setStage m .delivered).handle message outcome).resent i = s.resent i := by
    rw [resent_handle]
    exact resent_setStage hmessage .delivered i
  constructor
  · intro i e he
    obtain ⟨old, hold, ⟨hid, rfl, rfl⟩ | ⟨hnot, rfl⟩⟩ := getElem?_handle he
    · rw [hid]
      exact (h.kept i old hold).dispatched_of_succeeds (hresent i)
    · by_cases hid : message.outboxId = some i
      · rw [hid]
        refine (h.kept i e hold).fails (hunsettled hid hold) (fun hout => hnot ⟨hid, hout⟩) ?_
          (hresent i)
        rw [delivered_handle]
        exact delivered_deliver_le hmessage i
      · refine (h.kept i e hold).frame (beq_eq_false_iff_ne.mpr hid) ?_ (hresent i).ge ?_
        · rw [delivered_handle]
          exact delivered_deliver_of_ne hmessage hid
        · intro hheard _
          rw [heard_handle]
          exact heard_setStage hheard m ⟨nofun, nofun⟩
  · rw [handle_messages, length_handle]
    exact h.known_setStage
  · rw [handle_messages]
    exact h.sender_setStage hmessage fun _ => ⟨nofun, nofun⟩
  · intro i hpos
    by_cases hid : message.outboxId = some i
    · rw [fanOuts_cons]
      simp [Event.fansOut, hid]
    · rw [(hcounts hid).1]
      rw [delivered_handle, delivered_deliver_of_ne hmessage hid] at hpos
      exact h.ran i hpos
  · intro i hi
    rw [length_handle] at hi
    have hid : message.outboxId ≠ some i := fun hid =>
      absurd (h.known message (List.mem_of_getElem? hmessage) i hid) (Nat.not_lt.mpr hi)
    rw [(hcounts hid).1]
    exact h.fresh i hi
  · intro i u earlier hsuffix
    rcases List.suffix_cons_iff.mp hsuffix with heq | hsuffix
    · cases heq
    · exact h.runs i u earlier hsuffix
  · intro hc i
    by_cases hid : message.outboxId = some i
    · -- An event that is not settled has not been fanned out before.
      obtain ⟨e, he⟩ : ∃ e, s.events[i]? = some e :=
        ⟨_, List.getElem?_eq_getElem (h.known message (List.mem_of_getElem? hmessage) i hid)⟩
      have hsettles {status : OutboxStatus} (hstatus : status.settled = true) :
          e.status ≠ status := by
        rintro rfl
        rw [hunsettled hid he] at hstatus
        cases hstatus
      rw [successes_cons, (h.kept i e he).unmet hc.tail (hsettles rfl) (hsettles rfl)]
      split <;> omega
    · rw [(hcounts hid).2.2]
      exact h.once hc.tail i

/-! ### Lifecycles in process -/

/-- A row after a lifecycle is as it was, or marked. -/
theorem getElem?_markOutbox {outboxId : Option Nat} {error : Option Text}
    (h : (s.markOutbox outboxId error).events[i]? = some e) :
    ∃ old, s.events[i]? = some old ∧
      ((outboxId = some i ∧ e = old.marked error s.now) ∨ (outboxId ≠ some i ∧ e = old)) := by
  cases outboxId with
  | none => exact ⟨e, h, Or.inr ⟨nofun, rfl⟩⟩
  | some j =>
    rw [State.markOutbox, State.setEvent, List.getElem?_modify] at h
    obtain ⟨old, hold, rfl⟩ := Option.map_eq_some_iff.mp h
    refine ⟨old, hold, ?_⟩
    by_cases hji : j = i
    · exact Or.inl ⟨by rw [hji], by simp [hji]⟩
    · exact Or.inr ⟨by simp [hji], by simp [hji]⟩

theorem markOutbox_messages (outboxId : Option Nat) (error : Option Text) :
    (s.markOutbox outboxId error).messages = s.messages := by
  cases outboxId <;> rfl

theorem length_markOutbox (outboxId : Option Nat) (error : Option Text) :
    (s.markOutbox outboxId error).events.length = s.events.length := by
  cases outboxId with
  | none => rfl
  | some j => exact List.length_modify ..

/-- A lifecycle in process keeps the account if no message of its event is on its way. -/
theorem Accounted.marked (h : Accounted tr s) {error : Option Text}
    (hmessage : s.messages[m]? = some message) (hstage : message.stage = .inProcess)
    (hheard : heardOut s (.marked message.outboxId error.isNone) = true) :
    Accounted ((s, .marked message.outboxId error.isNone) :: tr)
      ((s.setStage m .ended).markOutbox message.outboxId error) := by
  have hdelivered (i : Nat) :
      ((s.setStage m .ended).markOutbox message.outboxId error).delivered i = s.delivered i := by
    rw [State.delivered, markOutbox_messages]
    exact delivered_setStage .ended hmessage (by simp [hstage]) (by decide) i
  have hresent (i : Nat) :
      ((s.setStage m .ended).markOutbox message.outboxId error).resent i = s.resent i := by
    rw [State.resent, markOutbox_messages]
    exact resent_setStage hmessage .ended i
  have hkept (i : Nat) (hi : s.heard i = true) :
      ((s.setStage m .ended).markOutbox message.outboxId error).heard i = true := by
    rw [State.heard, markOutbox_messages]
    exact heard_setStage hi m ⟨nofun, nofun⟩
  have hlength : s.events.length =
      ((s.setStage m .ended).markOutbox message.outboxId error).events.length := by
    rw [length_markOutbox]
    rfl
  refine h.frame (fun _ => rfl) (fun _ => nofun) ?_ ?_ ?_ hdelivered hlength.le
  · intro i e he
    obtain ⟨old, hold, ⟨hid, rfl⟩ | ⟨-, rfl⟩⟩ := getElem?_markOutbox he
    · rw [hid] at hheard ⊢
      refine (h.kept i old hold).marked hheard hold ?_ ?_ ?_
      · exact hid ▸ hdelivered i
      · exact hid ▸ hresent i
      · exact hid ▸ hkept i
    · exact (h.kept i e hold).frame rfl (hdelivered i) (hresent i).ge fun hi _ => hkept i hi
  · rw [markOutbox_messages, length_markOutbox]
    exact h.known_setStage
  · rw [markOutbox_messages]
    refine h.sender_setStage hmessage fun hreplay => ?_
    -- A tick has no lifecycle to run.
    exact absurd hstage (h.sender message (List.mem_of_getElem? hmessage) hreplay).1

/-! ### Whole runs -/

/-- **One step** that meets the condition keeps the account of every event. -/
theorem Accounted.step (h : Accounted tr s) (hc : HeardOut s ev) (hstep : Step s ev t) :
    Accounted ((s, ev) :: tr) t := by
  obtain ⟨a, ha⟩ := hstep
  cases a with
  | publish eventType articleId persisted =>
    cases ha
    exact h.publish eventType articleId persisted
  | send m taken =>
    obtain ⟨message, hmessage, ha⟩ := Option.bind_eq_some_iff.mp ha
    split at ha
    · next hheld =>
      split at ha
      · cases ha
        exact h.send hmessage hheld (Or.inl rfl)
      · split at ha
        · next hpublisher =>
          cases ha
          exact h.send hmessage hheld (Or.inr ⟨rfl, hpublisher⟩)
        · cases ha
    · cases ha
  | replay locked =>
    cases ha
    exact h.replay hc
  | deliver m outcome =>
    obtain ⟨message, hmessage, ⟨i, hid, hsettled, rfl, hstage, rfl⟩ | ⟨hopen, rfl, rfl⟩⟩ :=
      next_deliver ha
    · exact h.ignored hmessage hid hsettled hstage
    · exact h.fannedOut hmessage hopen
  | lifecycleEnds m error =>
    obtain ⟨message, hmessage, ha⟩ := Option.bind_eq_some_iff.mp ha
    split at ha
    · next hstage =>
      cases ha
      exact h.marked hmessage hstage.1 hc
    · cases ha
  | wait seconds =>
    cases ha
    exact h.wait seconds

/-- **No event is dropped undelivered**, in every run whose ticks select an event only when its
earlier messages have been delivered, and whose lifecycles leave the row to them. -/
theorem undropped_of_heardOut {tr : List (State × Event)} {s : State}
    (r : Run Initial Step tr s) (hc : Throughout HeardOut tr) : Undropped tr s := by
  have h : Accounted tr s :=
    r.along (J := Accounted) (fun _ => Accounted.of_initial)
      (fun _ _ _ _ hi hc hs => hi.step hc hs) hc
  exact ⟨fun i e he _ => (h.kept i e he).dead, h.runs, h.once⟩

end

/-! ### Runs of one event -/

def emptyOutbox : State := ⟨[], [], [], 0⟩

/-- A message that ticks send again, and what becomes of it meanwhile. -/
def resent (m : Nat) (meanwhile : List Action) (minutes : Nat) : List Action :=
  .replay [] :: .send m true :: meanwhile ++ [.wait (60 * minutes)]

/-- The broker of the tasks is away: every delivery fails, and the event is given up in the end. -/
def poisonedEvent : List Action :=
  [.publish .articlePublished (some 7) true, .send 0 true, .deliver 0 .raises] ++
    resent 1 [.deliver 1 .raises] 2 ++ resent 2 [.deliver 2 .raises] 4 ++
    resent 3 [.deliver 3 .raises] 8 ++ resent 4 [.deliver 4 .raises] 16 ++
    resent 5 [.deliver 5 .raises] 30 ++ [.replay []]

theorem undropped_of_heardOut_poisonedEvent :
    Undropped ((play next [] emptyOutbox poisonedEvent).get (by decide)).1
      ((play next [] emptyOutbox poisonedEvent).get (by decide)).2 :=
  undropped_of_heardOut (run_play ⟨rfl, rfl⟩ (by decide)) (by decide)

/-- The messages wait behind a long task while ticks go on; the first one finds the event dead. -/
def waitingEvent : List Action :=
  [.publish .articlePublished (some 7) true, .send 0 true] ++ resent 1 [] 2 ++ resent 2 [] 4 ++
    resent 3 [] 8 ++ resent 4 [] 16 ++ resent 5 [] 30 ++ [.replay [], .deliver 0 .succeeds]

theorem waitingEvent_plays : (play next [] emptyOutbox waitingEvent).isSome = true := by decide

/-- A message that waits for an hour finds its event dead, unread. -/
theorem waiting_event_dropped :
    ¬ ∀ (tr : List (State × Event)) (s : State), Run Initial Step tr s → Undropped tr s := by
  intro h
  have hdead := (h _ _ (run_play ⟨rfl, rfl⟩ waitingEvent_plays)).dead 0
  exact absurd (hdead _ rfl rfl rfl) (by decide)

end QnscKb.Outbox
