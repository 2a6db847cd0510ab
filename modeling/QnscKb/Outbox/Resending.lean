import QnscKb.Outbox.Delivery

/-!
# Outbox — Resending

What the ticks of `replay_outbox_task` (`src/workers/tasks.py`) decide to send, in any run.  A tick
commits the `attempts` of its events before it hands their messages to the broker, which may refuse
one: `attempts` counts the messages ticks decided to send, whatever became of them.
-/

namespace QnscKb.Outbox

open Runs

/-- The attempts of every event are the messages that ticks decided to send for it. -/
structure Counted (s : State) : Prop where
  sent : ∀ i e, s.events[i]? = some e → s.resent i = e.attempts ∧
    e.attempts ≤ OUTBOX_MAX_ATTEMPTS ∧ (e.status = .dead → e.attempts = OUTBOX_MAX_ATTEMPTS)
  known : ∀ i, s.events.length ≤ i → s.resent i = 0

variable {s t : State} {i : Nat} {e : OutboxEvent}

/-- A step that sends nothing keeps the attempts, and gives nothing up. -/
theorem Counted.frame (h : Counted s) (hresent : ∀ i, t.resent i = s.resent i)
    (hevents : ∀ (i : Nat) (e : OutboxEvent), t.events[i]? = some e → ∃ old : OutboxEvent,
      s.events[i]? = some old ∧ e.attempts = old.attempts ∧ (e.status = .dead → old.status = .dead))
    (hlength : t.events.length = s.events.length) : Counted t where
  sent i e he := by
    obtain ⟨old, hold, hattempts, hdead⟩ := hevents i e he
    obtain ⟨hsent, hle, hspent⟩ := h.sent i old hold
    rw [hresent, hattempts]
    exact ⟨hsent, hle, fun he => hspent (hdead he)⟩
  known i hi := by
    rw [hresent]
    exact h.known i (hlength ▸ hi)

theorem Counted.publish (h : Counted s) (eventType : EventType) (articleId : Option Nat)
    (persisted : Bool) : Counted (s.publish eventType articleId persisted) := by
  have hresent : ∀ i, (s.publish eventType articleId persisted).resent i = s.resent i := by
    intro i
    simp [State.resent, State.publish, List.countP_append]
  cases persisted with
  | false => exact h.frame hresent (fun i e he => ⟨e, he, rfl, id⟩) rfl
  | true =>
    refine ⟨fun i e he => ?_, fun i hi => ?_⟩
    · rw [hresent]
      rcases Nat.lt_or_ge i s.events.length with hold | hnew
      · exact h.sent i e (by simpa [State.publish, List.getElem?_append_left hold] using he)
      · have hlast : i = s.events.length := by
          have := (List.getElem?_eq_some_iff.mp he).1
          simp only [State.publish, if_true, List.length_append, List.length_singleton] at this
          omega
        subst hlast
        obtain rfl : OutboxEvent.published eventType articleId s.now = e := by
          simpa [State.publish] using he
        exact ⟨h.known _ le_rfl, Nat.zero_le _, fun hdead => by cases hdead⟩
    · rw [hresent]
      refine h.known i (Nat.le_of_succ_le ?_)
      simpa [State.publish] using hi

theorem claimable_nodup (locked : List Nat) : (s.claimable locked).Nodup :=
  (List.take_sublist _ _).nodup (List.nodup_range.filter _)

theorem resent_replay (he : s.events[i]? = some e) {claimed : List Nat} (hnodup : claimed.Nodup) :
    (s.replay claimed).resent i =
      s.resent i + if i ∈ claimed ∧ e.attempts < OUTBOX_MAX_ATTEMPTS then 1 else 0 := by
  have hcount : (s.dispatchable claimed).countP
      (fun m => m.outboxId == some i && m.sender == .replay) =
        claimed.countP fun j => j == i && decide (e.attempts < OUTBOX_MAX_ATTEMPTS) := by
    rw [State.dispatchable, List.countP_filterMap]
    refine List.countP_congr fun j _ => ?_
    by_cases hj : j = i
    · subst hj
      rw [he, Option.bind_some]
      split <;> simp_all [OutboxEvent.message]
    · cases hevent : s.events[j]? with
      | none => simp [hj]
      | some e' =>
        rw [Option.bind_some]
        split <;> simp_all [OutboxEvent.message]
  rw [State.resent, State.resent, State.replay, List.countP_append, hcount]
  by_cases hleft : e.attempts < OUTBOX_MAX_ATTEMPTS
  · simp only [hleft, decide_true, Bool.and_true, and_true]
    rw [← List.count, hnodup.count]
  · simp [hleft]

theorem Counted.replay (h : Counted s) (locked : List Nat) :
    Counted (s.replay (s.claimable locked)) := by
  refine ⟨fun i e he => ?_, fun i hi => ?_⟩
  · rw [State.replay, List.getElem?_mapIdx] at he
    obtain ⟨old, hold, rfl⟩ := Option.map_eq_some_iff.mp he
    obtain ⟨hsent, hle, hspent⟩ := h.sent i old hold
    rw [resent_replay hold (claimable_nodup locked), hsent]
    by_cases hclaimed : i ∈ s.claimable locked
    · rw [if_pos (List.contains_iff_mem.mpr hclaimed), OutboxEvent.claimed]
      by_cases hleft : old.attempts < OUTBOX_MAX_ATTEMPTS
      · rw [if_neg (not_le.mpr hleft), if_pos ⟨hclaimed, hleft⟩]
        exact ⟨rfl, hleft, fun hdead => by cases hdead⟩
      · rw [if_pos (not_lt.mp hleft), if_neg fun hsend => hleft hsend.2]
        exact ⟨rfl, hle, fun _ => le_antisymm hle (not_lt.mp hleft)⟩
    · have hout : (s.claimable locked).contains i = false := by simpa using hclaimed
      rw [hout, if_neg fun hsend => hclaimed hsend.1]
      exact ⟨rfl, hle, hspent⟩
  · have hout : s.events.length ≤ i := by simpa [State.replay] using hi
    have hnone : (s.dispatchable (s.claimable locked)).countP
        (fun m => m.outboxId == some i && m.sender == .replay) = 0 := by
      refine List.countP_eq_zero.mpr fun message hmem => ?_
      obtain ⟨j, e, -, he, rfl⟩ := mem_dispatchable hmem
      have hj := (List.getElem?_eq_some_iff.mp he).1
      have hne : j ≠ i := by omega
      simp [OutboxEvent.message, hne]
    rw [State.resent, State.replay, List.countP_append, hnone]
    exact h.known i hout

theorem Counted.step {ev : Event} (h : Counted s) (hstep : Step s ev t) : Counted t := by
  obtain ⟨a, ha⟩ := hstep
  have hstaged : ∀ {m message} (stage : Stage), s.messages[m]? = some message →
      Counted (s.setStage m stage) := fun stage hmessage =>
    h.frame (fun i => resent_setStage hmessage stage i) (fun i e he => ⟨e, he, rfl, id⟩) rfl
  cases a with
  | publish eventType articleId persisted =>
    cases ha
    exact h.publish eventType articleId persisted
  | send m taken =>
    obtain ⟨message, hmessage, ha⟩ := Option.bind_eq_some_iff.mp ha
    split at ha
    · split at ha
      · cases ha
        exact hstaged _ hmessage
      · split at ha
        · cases ha
          exact hstaged _ hmessage
        · cases ha
    · cases ha
  | replay locked =>
    cases ha
    exact h.replay locked
  | deliver m outcome =>
    obtain ⟨message, hmessage, ⟨i, -, -, -, -, rfl⟩ | ⟨-, -, rfl⟩⟩ := next_deliver ha
    · exact hstaged _ hmessage
    · refine (hstaged .delivered hmessage).frame (fun i => resent_handle message outcome i)
        (fun i e he => ?_) (length_handle message outcome)
      obtain ⟨old, hold, ⟨-, -, rfl⟩ | ⟨-, rfl⟩⟩ := getElem?_handle he
      · exact ⟨old, hold, rfl, fun hdead => by cases hdead⟩
      · exact ⟨_, hold, rfl, id⟩
  | lifecycleEnds m error =>
    obtain ⟨message, hmessage, ha⟩ := Option.bind_eq_some_iff.mp ha
    split at ha
    · cases ha
      refine (hstaged .ended hmessage).frame (fun i => ?_) (fun i e he => ?_)
        (length_markOutbox message.outboxId error)
      · rw [State.resent, markOutbox_messages, State.resent]
      · obtain ⟨old, hold, ⟨-, rfl⟩ | ⟨-, rfl⟩⟩ := getElem?_markOutbox he
        · cases error <;> exact ⟨old, hold, rfl, fun hdead => by cases hdead⟩
        · exact ⟨_, hold, rfl, id⟩
    · cases ha
  | wait seconds =>
    cases ha
    exact h.frame (fun _ => rfl) (fun i e he => ⟨e, he, rfl, id⟩) rfl

/-- **Resending is bounded**: in every run the attempts of an event are the messages that ticks
decided to send, at most `OUTBOX_MAX_ATTEMPTS`, and an event is given up after as many. -/
theorem resent_bounded {tr : List (State × Event)} (r : Run Initial Step tr s)
    (he : s.events[i]? = some e) : s.resent i = e.attempts ∧ s.resent i ≤ OUTBOX_MAX_ATTEMPTS ∧
      (e.status = .dead → s.resent i = OUTBOX_MAX_ATTEMPTS) := by
  have hcounted : Counted s := by
    refine r.invariant (C := fun _ _ => True) (fun s hs => ?_) (fun s ev t h _ => h.step)
      fun _ _ => trivial
    refine ⟨fun i e he => ?_, fun i _ => ?_⟩
    · rw [hs.1] at he
      cases he
    · rw [State.resent, hs.2]
      rfl
  obtain ⟨hsent, hle, hspent⟩ := hcounted.sent i e he
  rw [hsent]
  exact ⟨rfl, hle, hspent⟩

/-- Ticks decide five times to send the poisoned event. -/
theorem poisonedEvent_resent : ((play next [] emptyOutbox poisonedEvent).get
    (by decide)).2.resent 0 = OUTBOX_MAX_ATTEMPTS := by
  have hplays : (play next [] emptyOutbox poisonedEvent).isSome = true := by decide
  obtain ⟨e, he, hdead⟩ : ∃ e, ((play next [] emptyOutbox poisonedEvent).get
      hplays).2.events[0]? = some e ∧ e.status = .dead := ⟨_, rfl, by decide⟩
  exact (resent_bounded (run_play ⟨rfl, rfl⟩ hplays) he).2.2 hdead

end QnscKb.Outbox
