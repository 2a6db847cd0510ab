import Mathlib.Data.List.Dedup
import Mathlib.Logic.Function.Basic
import QnscKb.Lib.Cursor

/-!
# ChangeLog — what changed in a keyed store, and a feed of it

A log lists the changes of a store, the last first: the value a key was left with, or none.  A feed
answers the token of a point of the log with the keys that changed since, each once or more and as
it is now.
-/

namespace QnscKb.ChangeLog
open Cursor

variable {κ β : Type}

abbrev Log (κ β : Type) := List (κ × Option β)

/-- The value of a key as it is now. -/
def latest [DecidableEq κ] (log : Log κ β) (k : κ) : Option β :=
  (log.find? fun e => e.1 == k).bind (·.2)

def changed (log : Log κ β) : List κ := log.map (·.1)

variable {log : Log κ β}

theorem mem_changed_of_latest [DecidableEq κ] {k : κ} {b : β} (h : latest log k = some b) :
    k ∈ changed log := by
  obtain ⟨e, he, -⟩ := Option.bind_eq_some_iff.mp h
  have hk := List.find?_some he
  rw [← beq_iff_eq.mp hk]
  exact List.mem_map_of_mem (List.mem_of_find?_eq_some he)

/-- What has not changed since a point is as it was there. -/
theorem latest_append [DecidableEq κ] {recent old : Log κ β} {k : κ} (h : k ∉ changed recent) :
    latest (recent ++ old) k = latest old k := by
  have hnone : recent.find? (fun e => e.1 == k) = none := by
    refine List.find?_eq_none.mpr fun e he hk => h ?_
    rw [← beq_iff_eq.mp hk]
    exact List.mem_map_of_mem he
  unfold latest
  rw [List.find?_append, hnone, Option.none_or]

variable {α γ τ μ ε : Type}

/-- From the token of a point on, the feed has the keys that changed since, and its last page the
mark of now. -/
structure FeedAt (get : τ → Except ε (Page α τ μ)) (token : Nat → τ) (mark : Nat → μ)
    (entry : κ → α) (log : Log κ β) : Prop where
  has : ∀ recent old, log = recent ++ old → ∀ k ∈ changed recent,
    ∃ page, Reaches get (token old.length) page ∧ entry k ∈ page.items
  only : ∀ recent old, log = recent ++ old → ∀ page, Reaches get (token old.length) page →
    ∀ a ∈ page.items, ∃ k ∈ changed recent, a = entry k
  ends : ∀ recent old, log = recent ++ old → ∀ page, Reaches get (token old.length) page →
    page.next = none → page.mark = some (mark log.length)

variable {token : Nat → τ}

/-- **A completed reading** from a point on. -/
theorem FeedAt.follow_iff {get : τ → Except ε (Page α τ μ)} {mark : Nat → μ} {entry : κ → α}
    {recent old : Log κ β} (hfeed : FeedAt get token mark entry log) (hlog : log = recent ++ old)
    {emit : α → List γ} {fuel : Nat} {out : List γ} {last : Option μ}
    (h : follow get emit fuel (token old.length) [] none = some (.ok (out, last))) :
    last = some (mark log.length) ∧
      ∀ c, c ∈ out ↔ ∃ k ∈ changed recent, c ∈ emit (entry k) := by
  refine ⟨follow_mark (hfeed.ends recent old hlog) h, fun c => ⟨fun hc => ?_, ?_⟩⟩
  · rcases mem_follow h hc with hnil | ⟨page, r, a, ha, hemit⟩
    · cases hnil
    · obtain ⟨k, hk, rfl⟩ := hfeed.only recent old hlog page r a ha
      exact ⟨k, hk, hemit⟩
  · rintro ⟨k, hk, hemit⟩
    obtain ⟨page, r, ha⟩ := hfeed.has recent old hlog k hk
    exact follow_collects h r ha c hemit

def pointOf [DecidableEq τ] (token : Nat → τ) (log : Log κ β) (t : τ) : Option Nat :=
  (List.range (log.length + 1)).find? fun n => token n == t

theorem pointOf_token [DecidableEq τ] (hinj : Function.Injective token) {n : Nat}
    (hn : n ≤ log.length) : pointOf token log (token n) = some n := by
  cases hp : pointOf token log (token n) with
  | none =>
    refine absurd (beq_self_eq_true (token n)) ?_
    exact List.find?_eq_none.mp hp n (List.mem_range.mpr (Nat.lt_succ_of_le hn))
  | some m =>
    have hm := List.find?_some hp
    rw [hinj (beq_iff_eq.mp hm)]

/-- A service that answers each point on one page has such a feed. -/
theorem FeedAt.of_pages [DecidableEq κ] {get : τ → Except ε (Page α τ μ)} {mark : Nat → μ}
    {entry : κ → α}
    (h : ∀ n ≤ log.length, get (token n) =
        .ok ⟨(changed (log.take (log.length - n))).dedup.map entry, none, some (mark log.length)⟩) :
    FeedAt get token mark entry log := by
  have hget : ∀ recent old, log = recent ++ old → get (token old.length) =
      .ok ⟨(changed recent).dedup.map entry, none, some (mark log.length)⟩ := by
    intro recent old hlog
    have hlength : log.length = recent.length + old.length := by rw [hlog, List.length_append]
    have hwindow : log.take (log.length - old.length) = recent := by
      rw [hlength, Nat.add_sub_cancel, hlog, List.take_left]
    rw [h old.length (hlength ▸ Nat.le_add_left _ _), hwindow]
  have honly : ∀ recent old, log = recent ++ old → ∀ page, Reaches get (token old.length) page →
      page = ⟨(changed recent).dedup.map entry, none, some (mark log.length)⟩ := by
    intro recent old hlog page r
    have hpage := hget recent old hlog
    cases r with
    | here hfound => exact Except.ok.inj (hfound.symm.trans hpage)
    | next hfound hnext _ =>
      rw [hpage] at hfound
      cases hfound
      cases hnext
  constructor
  · intro recent old hlog k hk
    exact ⟨_, .here (hget recent old hlog), List.mem_map_of_mem (List.mem_dedup.mpr hk)⟩
  · intro recent old hlog page r a ha
    rw [honly recent old hlog page r] at ha
    obtain ⟨k, hk, rfl⟩ := List.mem_map.mp ha
    exact ⟨k, List.mem_dedup.mp hk, rfl⟩
  · intro recent old hlog page r _
    rw [honly recent old hlog page r]

end QnscKb.ChangeLog
