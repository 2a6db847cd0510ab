import QnscKb.Storage.Objects

/-!
# Storage — Spared

Which runs delete no object that a row in use names.
-/

namespace QnscKb.Storage.Objects
open Runs
open Access (Id)
open Review (DraftStatus)

variable {C : Config} {s t u : State} {key : Text}

/-! ### Tasks and rows -/

variable {n : Nat}

variable {task : Task}

theorem doomed_setTask (h : (s.setTask n task).Doomed key) : s.Doomed key ∨ task.Dooms key := by
  obtain ⟨x, hx, hdooms⟩ := h
  rcases List.mem_or_eq_of_mem_set hx with hmem | rfl
  · exact Or.inl ⟨x, hmem, hdooms⟩
  · exact Or.inr hdooms

theorem doomed_of_getElem? (h : s.tasks[n]? = some task) (hdooms : task.Dooms key) : s.Doomed key :=
  ⟨task, List.mem_of_getElem? h, hdooms⟩

variable {id : Id} {d : Draft}

theorem mem_of_draft (h : s.draft id = some d) : d ∈ s.drafts :=
  List.mem_of_find?_eq_some h

theorem referenced_alter {f : Draft → Draft} (hkey : ∀ d, (f d).storageKey = d.storageKey)
    (hstatus : ∀ d, (f d).undecided = true → d.undecided = true)
    (h : (s.alter id f).Referenced key) : s.Referenced key := by
  rcases h with ⟨d, hd, hundecided, hk⟩ | h
  · obtain ⟨d', hd', rfl⟩ := List.mem_map.mp hd
    by_cases hid : d'.id = id
    · rw [if_pos hid] at hundecided hk
      exact Or.inl ⟨d', hd', hstatus d' hundecided, by rw [← hkey, hk]⟩
    · rw [if_neg hid] at hundecided hk
      exact Or.inl ⟨d', hd', hundecided, hk⟩
  · exact Or.inr h

/-- A draft that moves refers to nothing anew. -/
theorem referenced_move {old new : DraftStatus} (hold : old = .draft ∨ old = .pending)
    (h : (s.move id old new).Referenced key) : s.Referenced key := by
  refine referenced_alter (fun d => ?_) (fun d hundecided => ?_) h
  · split <;> rfl
  · split at hundecided
    · rename_i hstatus
      simp only [Draft.undecided, hstatus, decide_eq_true_eq]
      exact hold
    · exact hundecided

theorem referenced_remove {id : Option Id} (h : (s.remove id).Referenced key) :
    s.Referenced key := by
  rcases h with ⟨d, hd, hundecided, hk⟩ | h
  · exact Or.inl ⟨d, (List.mem_filter.mp hd).1, hundecided, hk⟩
  · exact Or.inr h

theorem referenced_insert (h : (s.insert d).Referenced key) :
    s.Referenced key ∨ d.storageKey = some key := by
  rcases h with ⟨d', hd', hundecided, hk⟩ | h
  · rcases List.mem_cons.mp hd' with rfl | hd'
    · exact Or.inr hk
    · exact Or.inl (Or.inl ⟨d', hd', hundecided, hk⟩)
  · exact Or.inl (Or.inr h)

/-! ### Steps that cost nothing -/

/-- Nothing is taken from the bucket, doomed or referenced anew. -/
structure Harmless (s t : State) : Prop where
  objects : ∀ key, (s.objects key).isSome = true → (t.objects key).isSome = true
  doomed : ∀ key, t.Doomed key → s.Doomed key
  referenced : ∀ key, t.Referenced key → s.Referenced key

namespace Harmless

theorem refl (s : State) : Harmless s s := ⟨fun _ h => h, fun _ h => h, fun _ h => h⟩

theorem trans (h : Harmless s t) (h' : Harmless t u) : Harmless s u :=
  ⟨fun key hs => h'.objects key (h.objects key hs), fun key hu => h.doomed key (h'.doomed key hu),
    fun key hu => h.referenced key (h'.referenced key hu)⟩

theorem setTask {n : Nat} {task : Task} (h : ∀ key, task.Dooms key → s.Doomed key) :
    Harmless s (s.setTask n task) where
  objects := fun _ hs => hs
  doomed := by
    intro key hdoomed
    rcases doomed_setTask hdoomed with hs | htask
    · exact hs
    · exact h key htask
  referenced := fun _ hs => hs

theorem put (s : State) (key : Text) : Harmless s (s.put key) where
  objects := by
    intro k hk
    simp only [State.put]
    split
    · rfl
    · exact hk
  doomed := fun _ hs => hs
  referenced := fun _ hs => hs

theorem remove (s : State) (id : Option Id) : Harmless s (s.remove id) :=
  ⟨fun _ h => h, fun _ h => h, fun _ h => referenced_remove h⟩

theorem kept (h : Harmless s t) : Kept s t := fun key _ hs => h.objects key hs

theorem sound (h : Harmless s t) (hs : Sound s) : Sound t :=
  fun key hdoomed href => hs key (h.doomed key hdoomed) (h.referenced key href)

end Harmless

theorem harmless_move {old new : DraftStatus} (hold : old = .draft ∨ old = .pending) :
    Harmless s (s.move id old new) :=
  ⟨fun _ h => h, fun _ h => h, fun _ h => referenced_move hold h⟩

theorem harmless_approves (hd : s.draft id = some d) (hstatus : d.status = .pending) :
    Harmless s { s.move id .pending .approved with
      sources := d.storageKey.toList ++ s.sources } where
  objects := fun _ h => h
  doomed := fun _ h => h
  referenced := by
    intro key h
    have hmove : (s.move id .pending .approved).Referenced key → s.Referenced key :=
      referenced_move (Or.inr rfl)
    rcases h with h | h | h
    · exact hmove (Or.inl h)
    · rcases List.mem_append.mp h with h | h
      · have hundecided : d.undecided = true := by simp [Draft.undecided, hstatus]
        exact Or.inl ⟨d, mem_of_draft hd, hundecided, Option.mem_toList.mp h⟩
      · exact Or.inr (Or.inl h)
    · exact Or.inr (Or.inr h)

theorem harmless_commits (hd : s.draft id = some d) (hstatus : d.status = .pending)
    (children : List Id) :
    Harmless s { s.move id .pending .rejected with
      drafts := children.map d.part ++ (s.move id .pending .rejected).drafts } where
  objects := fun _ h => h
  doomed := fun _ h => h
  referenced := by
    intro key h
    have hmove : (s.move id .pending .rejected).Referenced key → s.Referenced key :=
      referenced_move (Or.inr rfl)
    rcases h with ⟨d', hd', hundecided, hk⟩ | h
    · rcases List.mem_append.mp hd' with hpart | hd'
      · obtain ⟨child, -, rfl⟩ := List.mem_map.mp hpart
        have hundecided : d.undecided = true := by simp [Draft.undecided, hstatus]
        exact Or.inl ⟨d, mem_of_draft hd, hundecided, hk⟩
      · exact hmove (Or.inl ⟨d', hd', hundecided, hk⟩)
    · exact hmove (Or.inr h)

/-! ### Decisions to delete -/

theorem sound_setTask (hs : Sound s) (h : ∀ key, task.Dooms key → ¬ s.Referenced key) :
    Sound (s.setTask n task) := by
  intro key hdoomed href
  rcases doomed_setTask hdoomed with hdoomed | htask
  · exact hs key hdoomed href
  · exact h key htask href

/-- The sweep finds only what no row refers to. -/
theorem not_referenced_of_mem_orphans {found : List (Text × Nat)} (h : key ∈ s.orphans C found) :
    ¬ s.Referenced key := by
  obtain ⟨object, hobject, rfl⟩ := List.mem_map.mp h
  have hkeys : object.1 ∉ s.referencedKeys := by
    intro hmem
    have hnot := (List.mem_filter.mp hobject).2
    rw [List.contains_iff_mem.mpr hmem] at hnot
    simp at hnot
  rintro (⟨d, hd, -, hk⟩ | hsource | hversion)
  · exact hkeys (List.mem_append_left _
      (List.mem_append_left _ (List.mem_filterMap.mpr ⟨d, hd, hk⟩)))
  · exact hkeys (List.mem_append_left _ (List.mem_append_right _ hsource))
  · exact hkeys (List.mem_append_right _ hversion)

theorem dooms_ofRejection {freed : Option Text} (h : (Task.ofRejection freed).Dooms key) :
    freed = some key := by
  cases freed with
  | none => cases h
  | some k => exact congrArg some h

/-- The deletion of an object no row refers to is harmless. -/
theorem kept_delete {k : Text} (hrest : ∀ key, t.objects key = (s.delete k).objects key)
    (hfree : ¬ t.Referenced k) : Kept s t := by
  intro key href hstored
  have hne : key ≠ k := by
    rintro rfl
    exact hfree href
  rw [hrest]
  simpa only [State.delete, if_neg hne] using hstored

theorem Names.of_some {k : Text} {P : Text → Prop} (h : Names (some k) P) : P k := h k rfl

theorem kept_deleteAny {freed : Option Text}
    (hrest : ∀ key, t.objects key = (s.deleteAny freed).objects key)
    (hfree : Names freed fun key => ¬ t.Referenced key) : Kept s t := by
  cases freed with
  | none =>
    intro key _ hstored
    rw [hrest]
    exact hstored
  | some k => exact kept_delete hrest hfree.of_some

theorem sound_insert (hs : Sound s) (h : Names d.storageKey fun key => ¬ s.Doomed key) :
    Sound (s.insert d) := by
  intro key hdoomed href
  rcases referenced_insert href with href | hkey
  · exact hs key hdoomed href
  · exact h key hkey hdoomed

/-! ### One step -/

/-- The steps that neither decide on a deletion nor make one, nor bring a key in. -/
def Op.quiet : Op → Bool
  | .abandons _ _ | .creates _ _ | .fails _ | .intends _ _ | .discards _ | .rejects _ _
  | .deletes _ | .reads _ => false
  | _ => true

/-- The quiet operations are harmless. -/
theorem harmless_of_quiet {op : Op} (hq : op.quiet = true) (h : after C s op = some t) :
    Harmless s t := by
  cases op with
  | passes time =>
    cases h
    exact ⟨fun _ h => h, fun _ h => h, fun _ h => h⟩
  | stores n upload =>
    simp only [after] at h
    split at h
    · cases h
      exact (Harmless.put s _).trans (.setTask fun _ hdooms => hdooms.elim)
    · cases h
      exact (Harmless.put s _).trans (.setTask fun _ hdooms => hdooms.elim)
    · cases h
  | revokes id =>
    obtain ⟨d, -, h⟩ := Option.bind_eq_some_iff.mp h
    split at h
    · cases h
      exact .remove s _
    · cases h
  | puts key =>
    cases h
    exact .put s key
  | completes id =>
    obtain ⟨d, -, h⟩ := Option.bind_eq_some_iff.mp h
    split at h
    · cases h
      refine ⟨fun _ h => h, fun _ h => h, fun key href => ?_⟩
      refine referenced_alter (fun d => ?_) (fun d hundecided => ?_) href
      · rfl
      · exact hundecided
    · cases h
  | submits id =>
    obtain ⟨d, -, h⟩ := Option.bind_eq_some_iff.mp h
    split at h
    · cases h
      exact harmless_move (Or.inl rfl)
    · cases h
  | approves id =>
    obtain ⟨d, hd, h⟩ := Option.bind_eq_some_iff.mp h
    split at h
    · rename_i hstatus
      cases h
      exact harmless_approves hd hstatus
    · cases h
  | commits id children =>
    obtain ⟨d, hd, h⟩ := Option.bind_eq_some_iff.mp h
    split at h
    · rename_i hstatus
      cases h
      exact harmless_commits hd hstatus children
    · cases h
  | skips n =>
    simp only [after] at h
    split at h
    · rename_i k left htask
      cases h
      exact .setTask fun key hdooms => doomed_of_getElem? htask (List.mem_cons_of_mem k hdooms)
    · cases h
  | ends n =>
    cases h
    exact .setTask fun _ hdooms => hdooms.elim
  | lists | finds =>
    simp only [after] at h
    split at h
    · cases h
      exact .setTask fun _ hdooms => hdooms.elim
    · cases h
  | abandons | creates | fails | intends | discards | rejects | deletes | reads => cases hq

theorem harmless_abandons (hc : Careful C s (.abandons n id))
    (h : after C s (.abandons n id) = some t) : Harmless s t := by
  simp only [after] at h
  split at h
  · rename_i d htask hd
    split at h
    · cases h
      simp only [Careful, hd, Option.bind_some] at hc
      have hclear : Harmless s (s.deleteAny d.storageKey) := by
        cases hkey : d.storageKey with
        | none => exact .refl s
        | some k =>
          rw [hkey] at hc
          refine ⟨fun key hstored => ?_, fun _ h => h, fun _ h => h⟩
          have hne : key ≠ k := by
            rintro rfl
            rw [hc.of_some] at hstored
            cases hstored
          simpa only [State.deleteAny, State.delete, if_neg hne] using hstored
      exact hclear.trans (.setTask fun _ hdooms => hdooms.elim)
    · cases h
  · cases h

theorem sound_creates (hs : Sound s) (hc : Careful C s (.creates n id))
    (h : after C s (.creates n id) = some t) : Sound t ∧ Kept s t := by
  simp only [after] at h
  split at h
  · rename_i abandoned k htask
    cases h
    simp only [Careful, htask] at hc
    refine ⟨sound_setTask (sound_insert ((Harmless.remove s abandoned).sound hs) hc) ?_, ?_⟩
    · exact fun _ hdooms => hdooms.elim
    · exact fun _ _ hstored => hstored
  · cases h

theorem sound_taskFails {key : Text} (hs : Sound s) (htask : s.tasks[n]? = some task)
    (hput : task.putKey = some key) (hc : Careful C s (.fails n)) :
    Sound (s.setTask n (.deleting key)) := by
  simp only [Careful, htask, Option.bind_some, hput] at hc
  refine sound_setTask hs ?_
  rintro key rfl
  exact hc.of_some

/-- A careful failure keeps what the rows refer to. -/
theorem sound_fails (hs : Sound s) (hc : Careful C s (.fails n))
    (h : after C s (.fails n) = some t) : Sound t ∧ Kept s t := by
  simp only [after] at h
  split at h
  · rename_i htask
    cases h
    exact ⟨sound_taskFails hs htask rfl hc, fun _ _ hstored => hstored⟩
  · rename_i htask
    cases h
    exact ⟨sound_taskFails hs htask rfl hc, fun _ _ hstored => hstored⟩
  · cases h

theorem sound_intends {upload : Upload} (hs : Sound s) (hc : Careful C s (.intends id upload))
    (h : after C s (.intends id upload) = some t) : Sound t ∧ Kept s t := by
  obtain ⟨k, hkey, rfl⟩ := Option.map_eq_some_iff.mp h
  simp only [Careful, hkey] at hc
  exact ⟨sound_insert hs hc, fun _ _ hstored => hstored⟩

theorem sound_discards (hs : Sound s) (hc : Careful C s (.discards id))
    (h : after C s (.discards id) = some t) : Sound t ∧ Kept s t := by
  obtain ⟨d, hd, h⟩ := Option.bind_eq_some_iff.mp h
  simp only [Careful, hd, Option.bind_some] at hc
  split at h
  · cases h
    refine ⟨?_, kept_deleteAny (fun _ => rfl) ?_⟩
    · cases hkey : d.storageKey with
      | none => exact (harmless_move (Or.inl rfl)).sound hs
      | some k => exact fun key hdoomed href => hs key hdoomed (referenced_move (Or.inl rfl) href)
    · cases hkey : d.storageKey with
      | none =>
        intro k hk
        cases hk
      | some k =>
        rw [hkey] at hc
        exact hc
  · cases h

/-- So does a careful rejection. -/
theorem sound_rejects (hs : Sound s) (hc : Careful C s (.rejects n id))
    (h : after C s (.rejects n id) = some t) : Sound t ∧ Kept s t := by
  simp only [after] at h
  split at h
  · rename_i d htask hd
    simp only [Careful, hd] at hc
    split at h
    · cases h
      have hmove : Harmless s (s.move id .pending .rejected) := harmless_move (Or.inr rfl)
      refine ⟨sound_setTask (hmove.sound hs) ?_, fun _ _ hstored => hstored⟩
      exact fun key hdooms => hc key (dooms_ofRejection hdooms)
    · cases h
  · cases h

theorem sound_deletes (hs : Sound s) (h : after C s (.deletes n) = some t) :
    Sound t ∧ Kept s t := by
  simp only [after] at h
  split at h
  · rename_i k htask
    cases h
    refine ⟨?_, kept_delete (fun _ => rfl) (hs k (doomed_of_getElem? htask rfl))⟩
    have hidle : Harmless s (s.setTask n .idle) := .setTask fun _ hdooms => hdooms.elim
    exact hidle.sound hs
  · rename_i k left htask
    cases h
    have hhead := doomed_of_getElem? htask List.mem_cons_self
    refine ⟨?_, kept_delete (fun _ => rfl) (hs k hhead)⟩
    refine (Harmless.setTask fun key hdooms => ?_).sound hs
    exact doomed_of_getElem? htask (List.mem_cons_of_mem k hdooms)
  · cases h

theorem sound_reads (hs : Sound s) (h : after C s (.reads n) = some t) : Sound t ∧ Kept s t := by
  simp only [after] at h
  split at h
  · cases h
    refine ⟨sound_setTask hs fun key hdooms => ?_, fun _ _ hstored => hstored⟩
    exact not_referenced_of_mem_orphans hdooms
  · cases h

/-- **A careful step** keeps the objects in use, now and for the deletions decided on. -/
theorem sound_of_careful {op : Op} (hs : Sound s) (hc : Careful C s op)
    (h : after C s op = some t) : Sound t ∧ Kept s t := by
  cases hquiet : op.quiet with
  | true =>
    have hharmless := harmless_of_quiet hquiet h
    exact ⟨hharmless.sound hs, hharmless.kept⟩
  | false =>
    cases op with
    | abandons n id =>
      have hharmless := harmless_abandons hc h
      exact ⟨hharmless.sound hs, hharmless.kept⟩
    | creates n id => exact sound_creates hs hc h
    | fails n => exact sound_fails hs hc h
    | intends id upload => exact sound_intends hs hc h
    | discards id => exact sound_discards hs hc h
    | rejects n id => exact sound_rejects hs hc h
    | deletes n => exact sound_deletes hs h
    | reads n => exact sound_reads hs h
    | passes | stores | revokes | puts | completes | submits | approves | commits | skips | ends
    | lists | finds => cases hquiet

theorem sound_of_initial (h : Initial s) : Sound s := by
  rintro key ⟨task, htask, hdooms⟩ -
  rw [h task htask] at hdooms
  exact hdooms

/-- **No object in use is deleted**, in the runs whose steps are careful. -/
theorem referenced_kept {tr : List (State × Op)} (r : Run Initial (Step C) tr s)
    (hc : Throughout (Careful C) tr) :
    Throughout (fun s op => ∀ t, Step C s op t → Kept s t) tr := by
  refine r.always (I := Sound) (fun _ h => sound_of_initial h) (fun _ _ _ hs hcareful hstep => ?_)
    (fun _ _ _ hs hcareful _ t hstep => ?_) hc
  · exact (sound_of_careful hs hcareful (step_iff.mp hstep)).1
  · exact (sound_of_careful hs hcareful (step_iff.mp hstep)).2

/-! ### Runs of one worker -/

def defaults : Config := ⟨Ask.asciiPython, ⟨"r2".toList, some "kb".toList, "src".toList⟩, 24⟩

def fresh : State := ⟨0, fun _ => none, [], [], [], [.idle]⟩

def report : Upload := ⟨List.replicate 64 'a', "report.pdf".toList, some "acme.vn".toList⟩

def memo : Upload := ⟨List.replicate 64 'b', "memo.pdf".toList, some "acme.vn".toList⟩

theorem initial_fresh : Initial fresh := by
  intro task htask
  exact List.mem_singleton.mp htask

def orphan : Text := "s3://kb/src/orphan".toList

def quietDay : List Op :=
  [.puts orphan, .stores 0 report, .creates 0 1, .submits 1, .ends 0, .stores 0 memo, .creates 0 2,
    .submits 2, .ends 0, .approves 1, .rejects 0 2, .deletes 0, .passes 100000, .lists 0,
    .finds 0 orphan, .finds 0 ((defaults.keyOf report).getD []), .reads 0, .deletes 0]

theorem quietDay_plays : (play (next defaults) [] fresh quietDay).isSome = true := by
  decide +kernel

theorem quietDay_kept : ∃ tr s, Run Initial (Step defaults) tr s ∧
    tr.map (·.2) = quietDay.reverse ∧
    Throughout (fun s op => ∀ t, Step defaults s op t → Kept s t) tr := by
  have run := run_play initial_fresh quietDay_plays
  exact ⟨_, _, run, by decide +kernel, referenced_kept run (by decide +kernel)⟩

def batch : List Op :=
  [.stores 0 report, .creates 0 1, .submits 1, .ends 0, .commits 1 [2, 3], .submits 2, .submits 3,
    .approves 2, .rejects 0 3]

theorem batch_plays : (play (next defaults) [] fresh batch).isSome = true := by
  decide +kernel

theorem batch_deletes : (after defaults ((play (next defaults) [] fresh batch).get batch_plays).2
    (.deletes 0)).isSome = true := by
  decide +kernel

/-- The approved part's source is deleted with the rejected one. -/
theorem sibling_deleted : ¬ ∀ (C : Config) tr s, Run Initial (Step C) tr s →
    Throughout (fun s op => ∀ t, Step C s op t → Kept s t) tr := by
  intro h
  have run := run_play initial_fresh batch_plays
  have hlast := step_iff.mpr (Option.some_get batch_deletes).symm
  have hkept := (h defaults _ _ (run.next hlast)).head _ hlast
  have hlost := hkept ((defaults.keyOf report).getD []) (by decide +kernel) (by decide +kernel)
  exact absurd hlost (by decide +kernel)

end QnscKb.Storage.Objects
