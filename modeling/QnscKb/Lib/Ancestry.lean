import Mathlib.Logic.Relation
import Mathlib.Data.List.Basic

/-!
# Ancestry — climbing a parent graph through a memo

`up` gives the parents of a node; nothing keeps the graph from having cycles.
-/

namespace QnscKb.Ancestry

variable {α β σ : Type}

/-- The nodes so many steps above some nodes. -/
def generation (up : α → List α) (start : List α) : Nat → List α
  | 0 => start
  | k + 1 => (generation up start k).flatMap up

variable {up : α → List α}

theorem mem_generation_succ {start : List α} {k : Nat} {b : α} :
    b ∈ generation up start (k + 1) ↔ ∃ a ∈ start, b ∈ generation up (up a) k := by
  induction k generalizing b with
  | zero => exact List.mem_flatMap
  | succ k ih =>
    constructor
    · intro hb
      obtain ⟨c, hc, hbc⟩ := List.mem_flatMap.mp hb
      obtain ⟨a, ha, hca⟩ := ih.mp hc
      exact ⟨a, ha, List.mem_flatMap.mpr ⟨c, hca, hbc⟩⟩
    · rintro ⟨a, ha, hb⟩
      obtain ⟨c, hc, hbc⟩ := List.mem_flatMap.mp hb
      exact List.mem_flatMap.mpr ⟨c, ih.mpr ⟨a, ha, hc⟩, hbc⟩

/-- The target is one of some nodes or above one of them. -/
def Above (up : α → List α) (target : α) (start : List α) : Prop :=
  ∃ a ∈ start, Relation.ReflTransGen (fun x y => y ∈ up x) a target

/-- **What is above is in a generation.** -/
theorem exists_generation_iff {start : List α} {target : α} :
    (∃ k, target ∈ generation up start k) ↔ Above up target start := by
  constructor
  · rintro ⟨k, hk⟩
    induction k generalizing target with
    | zero => exact ⟨target, hk, .refl⟩
    | succ k ih =>
      obtain ⟨b, hb, hup⟩ := List.mem_flatMap.mp hk
      obtain ⟨a, ha, hab⟩ := ih hb
      exact ⟨a, ha, hab.tail hup⟩
  · rintro ⟨a, ha, hab⟩
    induction hab with
    | refl => exact ⟨0, ha⟩
    | tail _ hup ih =>
      obtain ⟨k, hk⟩ := ih
      exact ⟨k + 1, List.mem_flatMap.mpr ⟨_, hk, hup⟩⟩

/-! ### Memos -/

/-- What has been looked up, with the answers. -/
abbrev Memo (α β : Type) := List (α × β)

/-- Every answer is that of the function. -/
def Memo.Agrees (f : α → β) (memo : Memo α β) : Prop := ∀ p ∈ memo, p.2 = f p.1

theorem Memo.agrees_nil {f : α → β} : Memo.Agrees f [] := by
  intro p hp
  cases hp

/-- The answer for a key, from the memo where it has one. -/
def lookUp [DecidableEq α] (f : α → β) (a : α) (memo : Memo α β) : β × Memo α β :=
  match memo.find? fun p => p.1 == a with
  | some p => (p.2, memo)
  | none => (f a, (a, f a) :: memo)

/-- A look-up leaves a memo that agrees with the function so. -/
theorem lookUp_agrees [DecidableEq α] {f : α → β} {memo : Memo α β} (h : memo.Agrees f) (a : α) :
    (lookUp f a memo).1 = f a ∧ (lookUp f a memo).2.Agrees f := by
  unfold lookUp
  split
  · rename_i p hp
    have hfound := List.find?_some hp
    have hkey : p.1 = a := beq_iff_eq.mp hfound
    rw [← hkey]
    exact ⟨h p (List.mem_of_find?_eq_some hp), h⟩
  · refine ⟨rfl, fun p hp => ?_⟩
    rcases List.mem_cons.mp hp with rfl | hp
    · rfl
    · exact h p hp

/-- The first of a list that passes a test ends the loop. -/
def anyWith (test : α → σ → Bool × σ) : List α → σ → Bool × σ
  | [], s => (false, s)
  | a :: as, s => if (test a s).1 then (true, (test a s).2) else anyWith test as (test a s).2

/-- Through a memo that agrees with a function, what the function gives. -/
theorem anyWith_eq {test : α → σ → Bool × σ} {q : α → Bool} {I : σ → Prop}
    (htest : ∀ a s, I s → (test a s).1 = q a ∧ I (test a s).2) (as : List α) {s : σ} (hs : I s) :
    (anyWith test as s).1 = as.any q ∧ I (anyWith test as s).2 := by
  induction as generalizing s with
  | nil => exact ⟨rfl, hs⟩
  | cons a as ih =>
    obtain ⟨hq, hI⟩ := htest a s hs
    rw [anyWith, List.any_cons, ← hq]
    cases (test a s).1 with
    | true => exact ⟨rfl, hI⟩
    | false => exact ih hI

/-- What the elements of a list give, one after another. -/
def collectWith (emit : α → σ → List β × σ) : List α → σ → List β × σ
  | [], s => ([], s)
  | a :: as, s =>
    let rest := collectWith emit as (emit a s).2
    ((emit a s).1 ++ rest.1, rest.2)

theorem collectWith_eq {emit : α → σ → List β × σ} {f : α → List β} {I : σ → Prop}
    (hemit : ∀ a s, I s → (emit a s).1 = f a ∧ I (emit a s).2) (as : List α) {s : σ} (hs : I s) :
    (collectWith emit as s).1 = as.flatMap f ∧ I (collectWith emit as s).2 := by
  induction as generalizing s with
  | nil => exact ⟨rfl, hs⟩
  | cons a as ih =>
    obtain ⟨hf, hI⟩ := hemit a s hs
    obtain ⟨hrest, hI'⟩ := ih hI
    exact ⟨congrArg₂ (· ++ ·) hf hrest, hI'⟩

end QnscKb.Ancestry
