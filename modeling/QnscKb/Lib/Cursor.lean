/-!
# Cursor — a feed read page by page

A service answers a token with a page: its items, the token of the next page, and on some pages a
mark to come back with.  `follow` reads pages until one names no next, and hands each item to
`emit`.
-/

namespace QnscKb.Cursor

structure Page (α τ κ : Type) where
  items : List α
  next : Option τ
  mark : Option κ

variable {α β τ κ ε : Type} {get : τ → Except ε (Page α τ κ)} {emit : α → List β}

/-- The pages read from a token on, at most so many; `none` where that is not enough.  The last
mark seen is kept. -/
def follow (get : τ → Except ε (Page α τ κ)) (emit : α → List β) :
    Nat → τ → List β → Option κ → Option (Except ε (List β × Option κ))
  | 0, _, _, _ => none
  | fuel + 1, token, seen, mark =>
    match get token with
    | .error e => some (.error e)
    | .ok page =>
      match page.next with
      | some token' => follow get emit fuel token' (seen ++ page.items.flatMap emit)
          (page.mark <|> mark)
      | none => some (.ok (seen ++ page.items.flatMap emit, page.mark <|> mark))

/-- The pages a token leads to. -/
inductive Reaches (get : τ → Except ε (Page α τ κ)) : τ → Page α τ κ → Prop where
  | here {token : τ} {page : Page α τ κ} (h : get token = .ok page) : Reaches get token page
  | next {token token' : τ} {page last : Page α τ κ} (h : get token = .ok page)
      (hnext : page.next = some token') (r : Reaches get token' last) : Reaches get token last

variable {seen out : List β} {mark mark' : Option κ}

variable {fuel : Nat} {token : τ}

theorem follow_keeps (h : follow get emit fuel token seen mark = some (.ok (out, mark'))) :
    ∀ b ∈ seen, b ∈ out := by
  induction fuel generalizing token seen mark with
  | zero => cases h
  | succ fuel ih =>
    intro b hb
    simp only [follow] at h
    split at h
    · cases h
    · split at h
      · exact ih h b (List.mem_append_left _ hb)
      · cases h
        exact List.mem_append_left _ hb

/-- **A completed reading has every reachable page.** -/
theorem follow_collects (h : follow get emit fuel token seen mark = some (.ok (out, mark')))
    {page : Page α τ κ} (r : Reaches get token page) {a : α} (ha : a ∈ page.items) :
    ∀ b ∈ emit a, b ∈ out := by
  induction r generalizing fuel seen mark with
  | here hget =>
    intro b hb
    cases fuel with
    | zero => cases h
    | succ fuel =>
      simp only [follow, hget] at h
      have hmem := List.mem_append_right seen (List.mem_flatMap.mpr ⟨a, ha, hb⟩)
      split at h
      · exact follow_keeps h b hmem
      · cases h
        exact hmem
  | next hget hnext _ ih =>
    cases fuel with
    | zero => cases h
    | succ fuel =>
      simp only [follow, hget, hnext] at h
      exact ih h ha

/-- What is returned was reported on one of the pages. -/
theorem mem_follow (h : follow get emit fuel token seen mark = some (.ok (out, mark'))) {b : β}
    (hb : b ∈ out) : b ∈ seen ∨ ∃ page, Reaches get token page ∧ ∃ a ∈ page.items, b ∈ emit a := by
  induction fuel generalizing token seen mark with
  | zero => cases h
  | succ fuel ih =>
    simp only [follow] at h
    split at h
    · cases h
    · rename_i page hget
      have here : ∀ hmem : b ∈ seen ++ page.items.flatMap emit,
          b ∈ seen ∨ ∃ page, Reaches get token page ∧ ∃ a ∈ page.items, b ∈ emit a := by
        intro hmem
        rcases List.mem_append.mp hmem with hold | hnew
        · exact Or.inl hold
        · obtain ⟨a, ha, hemit⟩ := List.mem_flatMap.mp hnew
          exact Or.inr ⟨page, .here hget, a, ha, hemit⟩
      split at h
      · rename_i token' hnext
        rcases ih h with hmem | ⟨last, r, hlast⟩
        · exact here hmem
        · exact Or.inr ⟨last, .next hget hnext r, hlast⟩
      · cases h
        exact here hb

/-- The mark returned is the last page's. -/
theorem follow_mark {m : κ}
    (hlast : ∀ page, Reaches get token page → page.next = none → page.mark = some m)
    (h : follow get emit fuel token seen mark' = some (.ok (out, mark))) : mark = some m := by
  induction fuel generalizing token seen mark' with
  | zero => cases h
  | succ fuel ih =>
    simp only [follow] at h
    split at h
    · cases h
    · rename_i page hget
      split at h
      · rename_i token' hnext
        exact ih (fun last r => hlast last (.next hget hnext r)) h
      · rename_i hnext
        cases h
        rw [hlast page (.here hget) hnext]
        rfl

end QnscKb.Cursor
