import GenericApp.Scaffold.Rollback

/-!
# When is generation atomic?

A run that is rolled back, against the tree it began with. What the journal lets a rollback restore is read off
the tree at the moment something is raised (`Restorable`), and there are three things it cannot do. Texts come
back and not bytes, so that carriage returns are lost. A directory that was empty before is pruned with the file
that was put into it. And a directory made for a file that never came to be is not known to the journal.

Otherwise everything comes back. `Midway` is the invariant of the rollback: what has been taken back is as it was,
and a new directory that is still there lies on the way to a file that has yet to be removed. That a directory
which was there before stays, and that a new one goes, is shown from the innermost directory outwards, as the
pruning itself goes.
-/

namespace GenericApp

open Py

variable {before T U F : RepoTree} {s : ScaffoldRun} {entry : JournalEntry} {path : TreePath}
variable {journal : List JournalEntry}

/-- What a rollback can restore: no journaled file held a carriage return, no directory below the root that was
empty is in use, and every new directory holds something. -/
structure Restorable (before : RepoTree) (s : ScaffoldRun) : Prop where
  plain : ∀ path ∈ s.seen, ∀ bytes x, before.node path = some (.file bytes) →
    decodeText bytes = some x → '\r' ∉ x
  inUse : ∀ path, path ≠ [] → before.node path = some .dir → s.tree.hasChild path = true →
    before.hasChild path = true
  held : ∀ path, before.node path = none → s.tree.node path = some .dir →
    s.tree.hasChild path = true

/-! ### Half way through a rollback -/

/-- The tree when all but the entries of `journal` have been taken back. -/
structure Midway (before : RepoTree) (journal : List JournalEntry) (T : RepoTree) : Prop where
  restored : ∀ entry ∈ journal, entry.restored = before.node entry.path
  elsewhere : ∀ path ∉ journal.map JournalEntry.path, T.node path = before.node path ∨
    before.node path = none ∧ T.node path = some .dir
  inUse : ∀ path, path ≠ [] → before.node path = some .dir → T.hasChild path = true →
    before.hasChild path = true
  /-- A new directory lies on the way to a file that is still to be removed. -/
  held : ∀ path, before.node path = none → T.node path = some .dir →
    ∃ entry ∈ journal, entry.existed = false ∧ (T.node entry.path).isSome ∧ path <:+ entry.path

theorem restored_eq_none (h : entry.existed = false) : entry.restored = none := by
  rw [JournalEntry.restored, h]
  rfl

theorem restored_isSome (h : entry.existed = true) : entry.restored.isSome := by
  rw [JournalEntry.restored, h]
  rfl

/-- What was there before the run is there half way, at every path. -/
theorem Midway.isSome (h : Midway before journal T) (hundoable : AllUndoable journal T)
    (hbefore : (before.node path).isSome) : (T.node path).isSome := by
  by_cases hpath : path ∈ journal.map JournalEntry.path
  · obtain ⟨entry, hentry, rfl⟩ := List.mem_map.1 hpath
    have hundo := hundoable.undoable entry hentry
    rw [JournalEntry.Undoable] at hundo
    split at hundo
    · obtain ⟨content, hfile⟩ := hundo
      rw [hfile]
      rfl
    · next hcreated =>
      rw [← h.restored entry hentry, restored_eq_none (Bool.eq_false_iff.2 hcreated)] at hbefore
      cases hbefore
  · obtain hsame | ⟨hnone, -⟩ := h.elsewhere path hpath
    · rw [hsame]
      exact hbefore
    · rw [hnone] at hbefore
      cases hbefore

/-- A directory is not at a path of the journal. -/
theorem AllUndoable.notMem_of_dir (h : AllUndoable journal T) (hdir : T.node path = some .dir) :
    path ∉ journal.map JournalEntry.path := by
  intro hpath
  obtain ⟨entry, hentry, rfl⟩ := List.mem_map.1 hpath
  have hundo := h.undoable entry hentry
  rw [JournalEntry.Undoable] at hundo
  split at hundo
  · obtain ⟨content, hfile⟩ := hundo
    cases hfile.symm.trans hdir
  · exact hundo hdir

/-- A directory that was there before stays when an entry is taken back. -/
theorem Midway.dir_stays (h : Midway before (entry :: journal) T)
    (hundoable : AllUndoable (entry :: journal) T) (hU : Undone entry T U)
    (hcreated : entry.existed = false) (hsome : (T.node entry.path).isSome) (n : ℕ) :
    ∀ path, path <:+ entry.path → path ≠ entry.path → entry.path.length ≤ path.length + n →
      before.node path = some .dir → (U.node path).isSome := by
  induction n with
  | zero =>
    intro path hsuffix hne hlength _
    exact absurd (hsuffix.eq_of_length (Nat.le_antisymm hsuffix.length_le hlength)) hne
  | succ n ih =>
    intro path hsuffix hne hlength hdir
    by_cases hroot : path = []
    · rw [hroot, FileTree.node_root]
      rfl
    have huse := h.inUse path hroot hdir (FileTree.hasChild_of_suffix hsome hsuffix hne)
    obtain ⟨name, hchild⟩ := FileTree.hasChild_iff.1 huse
    have hchildT := h.isSome hundoable hchild
    -- the child is not the file that is removed
    have hother : name :: path ≠ entry.path := fun heq ↦ by
      rw [heq, ← h.restored entry List.mem_cons_self, restored_eq_none hcreated] at hchild
      exact nomatch hchild
    have hchildU : (U.node (name :: path)).isSome := by
      by_cases hway : name :: path <:+ entry.path
      · have hdirT := FileTree.node_of_suffix hsome hway hother
        obtain hsame | ⟨hnone, -⟩ := h.elsewhere _ (hundoable.notMem_of_dir hdirT)
        · refine ih _ hway hother ?_ (hsame.symm.trans hdirT)
          rw [List.length_cons]
          omega
        · rw [hnone] at hchild
          exact nomatch hchild
      · rw [hU.elsewhere _ hway]
        exact hchildT
    rw [FileTree.node_parent hchildU]
    rfl

/-- Nothing is at the path of a file that has been removed. -/
theorem Undone.node_path (h : Undone entry T U) (hcreated : entry.existed = false) :
    U.node entry.path = none :=
  h.restored.trans (restored_eq_none hcreated)

/-- Nothing new stands below a place where nothing was. -/
theorem node_child_of_none {name : String} (h : before.node path = none) :
    before.node (name :: path) = none := by
  match hchild : before.node (name :: path) with
  | none => rfl
  | some _ =>
    have hsome : (before.node (name :: path)).isSome := by
      rw [hchild]
      rfl
    exact nomatch h.symm.trans (FileTree.node_parent hsome)

/-- A new directory that is still there when an entry has been taken back lies on the way to another file. -/
theorem Midway.held_stays (h : Midway before (entry :: journal) T)
    (hundoable : AllUndoable (entry :: journal) T) (hU : Undone entry T U)
    (hcreated : entry.existed = false) (n : ℕ) :
    ∀ path, entry.path.length ≤ path.length + n → before.node path = none →
      U.node path = some .dir →
      ∃ e ∈ journal, e.existed = false ∧ (U.node e.path).isSome ∧ path <:+ e.path := by
  -- either it was on the way to another file already, or to the one that is removed
  have hcases (path : TreePath) (hnone : before.node path = none) (hdir : U.node path = some .dir) :
      (∃ e ∈ journal, e.existed = false ∧ (U.node e.path).isSome ∧ path <:+ e.path) ∨
        (T.node entry.path).isSome ∧ path <:+ entry.path ∧ path ≠ entry.path := by
    have hne : path ≠ entry.path := by
      rintro rfl
      cases (hU.node_path hcreated).symm.trans hdir
    have hdirT := (hU.old path hne (by rw [hdir]; rfl)).symm.trans hdir
    obtain ⟨e, he, hnew, hsome, hway⟩ := h.held path hnone hdirT
    obtain rfl | he := List.mem_cons.1 he
    · exact .inr ⟨hsome, hway, hne⟩
    · have hundo := hundoable.undoable e (List.mem_cons_of_mem _ he)
      rw [JournalEntry.Undoable, if_neg (by simp [hnew])] at hundo
      refine .inl ⟨e, he, hnew, ?_, hway⟩
      rcases hnode : T.node e.path with - | - | content
      · rw [hnode] at hsome
        cases hsome
      · exact absurd hnode hundo
      · rw [hU.files _ content (hundoable.head_ne e he) hnode]
        rfl
  induction n with
  | zero =>
    intro path hlength hnone hdir
    obtain hheld | ⟨-, hway, hne⟩ := hcases path hnone hdir
    · exact hheld
    · exact absurd (hway.eq_of_length (Nat.le_antisymm hway.length_le hlength)) hne
  | succ n ih =>
    intro path hlength hnone hdir
    obtain hheld | ⟨hsome, hway, hne⟩ := hcases path hnone hdir
    · exact hheld
    · -- what keeps the directory is something else in it, which is new as well
      have hroot : path ≠ [] := by
        rintro rfl
        cases hnone.symm.trans FileTree.node_root
      obtain ⟨name, hchild⟩ := FileTree.hasChild_iff.1
        (hU.pruned hcreated hsome path hway hne hroot (by rw [hdir]; rfl))
      have hchildNone : before.node (name :: path) = none := node_child_of_none hnone
      have hchildNe : name :: path ≠ entry.path := fun heq ↦ by
        rw [heq, hU.node_path hcreated] at hchild
        cases hchild
      by_cases hpath : name :: path ∈ journal.map JournalEntry.path
      · obtain ⟨e, he, heq⟩ := List.mem_map.1 hpath
        rw [← heq] at hchild
        refine ⟨e, he, ?_, hchild, heq ▸ List.suffix_cons name path⟩
        by_contra hexisted
        have hrestored := restored_isSome (Bool.of_not_eq_false hexisted)
        rw [h.restored e (List.mem_cons_of_mem _ he), heq, hchildNone] at hrestored
        cases hrestored
      · have hchildT := hU.old _ hchildNe hchild
        have hnotMem : name :: path ∉ (entry :: journal).map JournalEntry.path :=
          fun hmem ↦ (List.mem_cons.1 hmem).elim hchildNe hpath
        obtain hsame | ⟨-, hdirT⟩ := h.elsewhere _ hnotMem
        · rw [hchildT, hsame, hchildNone] at hchild
          cases hchild
        · obtain ⟨e, he, hnew, hleft, hsuffix⟩ := ih (name :: path)
            (by rw [List.length_cons]; omega) hchildNone (hchildT.trans hdirT)
          exact ⟨e, he, hnew, hleft, (List.suffix_cons name path).trans hsuffix⟩

/-- Taking one entry back goes on half way. -/
theorem Midway.step (h : Midway before (entry :: journal) T)
    (hundoable : AllUndoable (entry :: journal) T) (hU : Undone entry T U) :
    Midway before journal U := by
  have hrestored := h.restored entry List.mem_cons_self
  have hcase : (entry.existed = true ∨ T.node entry.path = none) ∨
      entry.existed = false ∧ (T.node entry.path).isSome := by
    cases entry.existed with
    | true => exact .inl (.inl rfl)
    | false =>
      rcases T.node entry.path with - | node
      · exact .inl (.inr rfl)
      · exact .inr ⟨rfl, rfl⟩
  have hnotMem {path : TreePath} (hne : path ≠ entry.path)
      (hpath : path ∉ journal.map JournalEntry.path) :
      path ∉ (entry :: journal).map JournalEntry.path :=
    fun hmem ↦ (List.mem_cons.1 hmem).elim hne hpath
  refine ⟨fun e he ↦ h.restored e (List.mem_cons_of_mem _ he), fun path hpath ↦ ?_, ?_, ?_⟩
  · by_cases hne : path = entry.path
    · exact .inl (by rw [hne, hU.restored, hrestored])
    obtain hsame | ⟨hnone, hdirT⟩ := h.elsewhere path (hnotMem hne hpath)
    · -- what was there is there half way, and stays
      left
      obtain honly | ⟨hcreated, hsome⟩ := hcase
      · rw [hU.only honly path hne, hsame]
      · by_cases hway : path <:+ entry.path
        · have hdirT := FileTree.node_of_suffix hsome hway hne
          have hstays := h.dir_stays hundoable hU hcreated hsome entry.path.length path hway hne
            (Nat.le_add_left _ _) (hsame.symm.trans hdirT)
          rw [hU.old path hne hstays, hsame]
        · rw [hU.elsewhere path hway, hsame]
    · rcases hleft : U.node path with - | node
      · exact .inl hnone.symm
      · have hold := hU.old path hne (by rw [hleft]; rfl)
        exact .inr ⟨hnone, hleft.symm.trans (hold.trans hdirT)⟩
  · intro path hroot hdir hchild
    obtain ⟨name, hname⟩ := FileTree.hasChild_iff.1 hchild
    by_cases hne : name :: path = entry.path
    · rw [hne, hU.restored, hrestored, ← hne] at hname
      exact FileTree.hasChild_iff.2 ⟨name, hname⟩
    · refine h.inUse path hroot hdir (FileTree.hasChild_iff.2 ⟨name, ?_⟩)
      rw [← hU.old _ hne hname]
      exact hname
  · intro path hnone hdir
    obtain honly | ⟨hcreated, -⟩ := hcase
    · have hne : path ≠ entry.path := by
        rintro rfl
        rw [hU.restored, JournalEntry.restored] at hdir
        split at hdir
        · cases hdir
        · cases hdir
      obtain ⟨e, he, hnew, hsome, hway⟩ := h.held path hnone ((hU.only honly path hne).symm.trans hdir)
      obtain rfl | he := List.mem_cons.1 he
      · obtain hexisted | hnothing := honly
        · exact absurd (hnew.symm.trans hexisted) Bool.false_ne_true
        · rw [hnothing] at hsome
          cases hsome
      · refine ⟨e, he, hnew, ?_, hway⟩
        rw [hU.only honly _ (hundoable.head_ne e he)]
        exact hsome
    · exact h.held_stays hundoable hU hcreated entry.path.length path (Nat.le_add_left _ _) hnone hdir

/-! ### A rollback that restores everything -/

/-- The bytes that a rollback writes are the old ones, where they hold no carriage return. -/
theorem Accounted.restored_eq (h : Accounted before s) (hentry : entry ∈ s.journal)
    (hplain : ∀ bytes x, before.node entry.path = some (.file bytes) → decodeText bytes = some x →
      '\r' ∉ x) : entry.restored = before.node entry.path := by
  match hexisted : entry.existed with
  | false => rw [restored_eq_none hexisted, (h.created entry hentry hexisted).1]
  | true =>
    obtain ⟨bytes, text, content, hbefore, hread, hprevious, -⟩ := h.existed entry hentry hexisted
    obtain ⟨x, hdecode, rfl⟩ := Option.map_eq_some_iff.1 hread
    have hbytes := (encodeText_universalNewlines_iff hdecode).2 (hplain bytes x hbefore hdecode)
    rw [JournalEntry.restored, if_pos hexisted, hprevious, Option.getD_some, hbytes, hbefore]

/-- A new directory that holds something lies on the way to a new file. -/
theorem Accounted.held (h : Accounted before s)
    (hheld : ∀ path, before.node path = none → s.tree.node path = some .dir →
      s.tree.hasChild path = true) (bound : ℕ)
    (hbound : ∀ path, (s.tree.node path).isSome → path.length ≤ bound) (n : ℕ) :
    ∀ path, bound ≤ path.length + n → before.node path = none → s.tree.node path = some .dir →
      ∃ e ∈ s.journal, e.existed = false ∧ (s.tree.node e.path).isSome ∧ path <:+ e.path := by
  induction n with
  | zero =>
    intro path hlength hnone hdir
    obtain ⟨name, hchild⟩ := FileTree.hasChild_iff.1 (hheld path hnone hdir)
    have hle := hbound _ hchild
    rw [List.length_cons] at hle
    omega
  | succ n ih =>
    intro path hlength hnone hdir
    obtain ⟨name, hchild⟩ := FileTree.hasChild_iff.1 (hheld path hnone hdir)
    have hchildNone : before.node (name :: path) = none := node_child_of_none hnone
    by_cases hseen : name :: path ∈ s.seen
    · obtain ⟨e, he, heq⟩ := List.mem_map.1 hseen
      refine ⟨e, he, ?_, heq ▸ hchild, heq ▸ List.suffix_cons name path⟩
      by_contra hexisted
      obtain ⟨_, _, _, hfile, -⟩ := h.existed e he (Bool.of_not_eq_false hexisted)
      exact nomatch (heq ▸ hchildNone).symm.trans hfile
    · obtain hsame | ⟨-, hchildDir⟩ := h.elsewhere _ hseen
      · rw [hsame, hchildNone] at hchild
        exact nomatch hchild
      · obtain ⟨e, he, hnew, hsome, hway⟩ := ih (name :: path)
          (by rw [List.length_cons]; omega) hchildNone hchildDir
        exact ⟨e, he, hnew, hsome, (List.suffix_cons name path).trans hway⟩

/-- Before the first entry is taken back. -/
theorem Restorable.midway (hr : Restorable before s) (h : Accounted before s) :
    Midway before s.journal.reverse s.tree := by
  refine ⟨fun e he ↦ ?_, fun path hpath ↦ h.elsewhere path fun hseen ↦ hpath ?_, hr.inUse,
    fun path hnone hdir ↦ ?_⟩
  · have he := List.mem_reverse.1 he
    exact h.restored_eq he (hr.plain e.path (List.mem_map_of_mem he))
  · rw [List.map_reverse]
    exact List.mem_reverse.2 hseen
  · obtain ⟨bound, hbound⟩ := s.tree.exists_length_le
    obtain ⟨e, he, hnew, hsome, hway⟩ :=
      h.held hr.held bound hbound bound path (Nat.le_add_left _ _) hnone hdir
    exact ⟨e, List.mem_reverse.2 he, hnew, hsome, hway⟩

/-- When everything has been taken back, the tree is the one before the run. -/
theorem Midway.same (h : Midway before [] T) : T.Same before := by
  intro path
  obtain hsame | ⟨hnone, hdir⟩ := h.elsewhere path List.not_mem_nil
  · exact hsame
  · obtain ⟨e, he, -⟩ := h.held path hnone hdir
    exact absurd he List.not_mem_nil

theorem Restorable.rollback (hr : Restorable before s) (h : Accounted before s) :
    ∃ F, s.rollback = some F ∧ F.Same before := by
  obtain ⟨F, hF, hmidway⟩ := exists_undoAll (P := Midway before) h.allUndoable (hr.midway h)
    fun _ _ _ _ hundoable hmidway hU ↦ hmidway.step hundoable hU
  exact ⟨F, hF, hmidway.same⟩

/-! ### What a rollback cannot restore -/

/-- At the path of an entry there is in the end what the entry notes. -/
theorem node_after_rollback (h : Accounted before s) (hentry : entry ∈ s.journal) :
    ∃ F, s.rollback = some F ∧ F.node entry.path = entry.restored := by
  let P : List JournalEntry → RepoTree → Prop := fun journal T ↦
    entry ∈ journal ∨ (∀ e ∈ journal, entry.path ≠ e.path) ∧ T.node entry.path = entry.restored
  obtain ⟨F, hF, hP⟩ := exists_undoAll (P := P) h.allUndoable (.inl (List.mem_reverse.2 hentry))
    fun e journal T U hundoable hP hU ↦ by
      obtain hmem | ⟨hapart, hnode⟩ := hP
      · obtain rfl | hmem := List.mem_cons.1 hmem
        · exact .inr ⟨fun e he ↦ (hundoable.head_ne e he).symm, hU.restored⟩
        · exact .inl hmem
      · have hne := hapart e List.mem_cons_self
        refine .inr ⟨fun e he ↦ hapart e (List.mem_cons_of_mem _ he), ?_⟩
        rcases hrestored : entry.restored with - | - | content
        · rcases hleft : U.node entry.path with - | node
          · rfl
          · rw [hU.old _ hne (by rw [hleft]; rfl), hnode, hrestored] at hleft
            cases hleft
        · rw [JournalEntry.restored] at hrestored
          split at hrestored
          · cases hrestored
          · cases hrestored
        · exact hU.files _ content hne (hnode.trans hrestored)
  exact ⟨F, hF, hP.resolve_left List.not_mem_nil |>.2⟩

/-- A file that was there does not lie below a directory that was empty. -/
theorem Accounted.not_below (h : Accounted before s) (hentry : entry ∈ s.journal)
    (hexisted : entry.existed = true) (hfile : ∀ content, before.node path ≠ some (.file content))
    (hchild : before.hasChild path = false) : ¬path <:+ entry.path := by
  intro hway
  obtain ⟨bytes, _, _, hbefore, -⟩ := h.existed entry hentry hexisted
  by_cases hne : path = entry.path
  · exact hfile bytes (hne ▸ hbefore)
  · have huse := FileTree.hasChild_of_suffix (by rw [hbefore]; rfl) hway hne
    exact Bool.false_ne_true (hchild.symm.trans huse)

/-- A directory to which an entry does not lie, or nothing does any more, is as it was. -/
theorem Undone.dir_eq (h : Undone entry T U) (hne : path ≠ entry.path)
    (hway : ¬path <:+ entry.path ∨ entry.existed = false ∧ T.node entry.path = none) :
    U.node path = T.node path ∧ U.hasChild path = T.hasChild path := by
  have hsame : U.node path = T.node path ∧
      ∀ name, U.node (name :: path) = T.node (name :: path) := by
    obtain hway | ⟨hcreated, hnone⟩ := hway
    · exact ⟨h.elsewhere path hway, fun name ↦ h.elsewhere _ fun hchild ↦
        hway ((List.suffix_cons name path).trans hchild)⟩
    · refine ⟨h.only (.inr hnone) path hne, fun name ↦ ?_⟩
      by_cases heq : name :: path = entry.path
      · rw [heq, h.node_path hcreated, hnone]
      · exact h.only (.inr hnone) _ heq
  refine ⟨hsame.1, Bool.eq_iff_iff.2 ?_⟩
  simp only [FileTree.hasChild_iff, hsame.2]

/-- An empty directory that has come into use is removed, or stays in use. -/
theorem inUse_after_rollback (h : Accounted before s) (hroot : path ≠ [])
    (hdir : before.node path = some .dir) (hempty : before.hasChild path = false)
    (huse : s.tree.hasChild path = true) :
    ∃ F, s.rollback = some F ∧ (F.node path = none ∨ F.hasChild path = true) := by
  let P : List JournalEntry → RepoTree → Prop := fun journal T ↦
    (∀ e ∈ journal, e.path ≠ path ∧ (e.existed = true → ¬path <:+ e.path)) ∧
      (T.node path = none ∨ T.hasChild path = true)
  have hstart : P s.journal.reverse s.tree := by
    refine ⟨fun e he ↦ ⟨?_, fun hexisted ↦ ?_⟩, .inr huse⟩
    · rintro rfl
      obtain ⟨name, hchild⟩ := FileTree.hasChild_iff.1 huse
      exact h.allUndoable.notMem_of_dir (FileTree.node_parent hchild) (List.mem_map_of_mem he)
    · refine h.not_below (List.mem_reverse.1 he) hexisted (fun content hfile ↦ ?_) hempty
      exact nomatch hdir.symm.trans hfile
  obtain ⟨F, hF, -, hleft⟩ := exists_undoAll (P := P) h.allUndoable hstart
    fun e journal T U hundoable ⟨hapart, hP⟩ hU ↦ by
      refine ⟨fun e he ↦ hapart e (List.mem_cons_of_mem _ he), ?_⟩
      obtain ⟨hne, hbelow⟩ := hapart e List.mem_cons_self
      match hnode : U.node path with
      | none => exact .inl rfl
      | some _ =>
        have hsome : (U.node path).isSome := by
          rw [hnode]
          rfl
        rw [hU.old path hne.symm hsome] at hsome
        obtain hnone | hchild := hP
        · rw [hnone] at hsome
          exact nomatch hsome
        · right
          by_cases hway : path <:+ e.path
          · have hcreated := Bool.eq_false_iff.2 fun hexisted ↦ hbelow hexisted hway
            match hthere : T.node e.path with
            | none => rw [(hU.dir_eq hne.symm (.inr ⟨hcreated, hthere⟩)).2, hchild]
            | some _ =>
              exact hU.pruned hcreated (by rw [hthere]; rfl) path hway hne.symm hroot
                (by rw [hnode]; rfl)
          · rw [(hU.dir_eq hne.symm (.inl hway)).2, hchild]
  exact ⟨F, hF, hleft⟩

/-- A new directory that is empty stays. -/
theorem dir_after_rollback (h : Accounted before s) (hnone : before.node path = none)
    (hdir : s.tree.node path = some .dir) (hempty : s.tree.hasChild path = false) :
    ∃ F, s.rollback = some F ∧ F.node path = some .dir := by
  let P : List JournalEntry → RepoTree → Prop := fun journal T ↦
    (∀ e ∈ journal, e.existed = true → ¬path <:+ e.path) ∧
      T.node path = some .dir ∧ T.hasChild path = false
  have hchildless : before.hasChild path = false := by
    refine Bool.eq_false_iff.2 fun hchild ↦ ?_
    obtain ⟨name, hname⟩ := FileTree.hasChild_iff.1 hchild
    exact nomatch hnone.symm.trans (FileTree.node_parent hname)
  have hstart : P s.journal.reverse s.tree := by
    refine ⟨fun e he hexisted ↦ ?_, hdir, hempty⟩
    refine h.not_below (List.mem_reverse.1 he) hexisted (fun content hfile ↦ ?_) hchildless
    exact nomatch hnone.symm.trans hfile
  obtain ⟨F, hF, -, hleft, -⟩ := exists_undoAll (P := P) h.allUndoable hstart
    fun e journal T U hundoable ⟨hapart, hdir, hempty⟩ hU ↦ by
      refine ⟨fun e he ↦ hapart e (List.mem_cons_of_mem _ he), ?_⟩
      have hne : path ≠ e.path := fun heq ↦
        hundoable.notMem_of_dir hdir (heq ▸ List.mem_map_of_mem List.mem_cons_self)
      have hkept : ¬path <:+ e.path ∨ e.existed = false ∧ T.node e.path = none := by
        by_cases hway : path <:+ e.path
        · refine .inr ⟨Bool.eq_false_iff.2 fun hexisted ↦
            hapart e List.mem_cons_self hexisted hway, ?_⟩
          by_contra hthere
          have hchild := FileTree.hasChild_of_suffix (Option.ne_none_iff_isSome.1 hthere) hway hne
          exact Bool.false_ne_true (hempty.symm.trans hchild)
        · exact .inl hway
      obtain ⟨hnode, hchild⟩ := hU.dir_eq hne hkept
      exact ⟨hnode.trans hdir, hchild.trans hempty⟩
  exact ⟨F, hF, hleft⟩

theorem Restorable.of_rollback (h : Accounted before s) (hF : s.rollback = some F)
    (hsame : F.Same before) : Restorable before s where
  plain := by
    intro path hseen bytes x hfile hdecode
    obtain ⟨entry, hentry, rfl⟩ := List.mem_map.1 hseen
    obtain ⟨F', hF', hnode⟩ := node_after_rollback h hentry
    obtain rfl := Option.some.inj (hF.symm.trans hF')
    have hexisted : entry.existed = true := by
      by_contra hcreated
      have hnone := (h.created entry hentry (Bool.eq_false_iff.2 hcreated)).1
      cases hnone.symm.trans hfile
    obtain ⟨bytes', text, _, hbefore, hread, hprevious, -⟩ := h.existed entry hentry hexisted
    obtain rfl : bytes' = bytes := by simpa using hbefore.symm.trans hfile
    rw [hsame, hfile, JournalEntry.restored, if_pos hexisted, hprevious, Option.getD_some] at hnode
    rw [readText, hdecode] at hread
    obtain rfl := Option.some.inj hread
    refine (encodeText_universalNewlines_iff hdecode).1 ?_
    simpa using hnode.symm
  inUse := by
    intro path hroot hdir huse
    by_contra hempty
    obtain ⟨F', hF', hleft⟩ := inUse_after_rollback h hroot hdir (Bool.eq_false_iff.2 hempty) huse
    obtain rfl := Option.some.inj (hF.symm.trans hF')
    obtain hnone | hchild := hleft
    · cases ((hsame path).symm.trans hnone).symm.trans hdir
    · obtain ⟨name, hname⟩ := FileTree.hasChild_iff.1 hchild
      rw [hsame] at hname
      exact hempty (FileTree.hasChild_iff.2 ⟨name, hname⟩)
  held := by
    intro path hnone hdir
    by_contra hempty
    obtain ⟨F', hF', hleft⟩ := dir_after_rollback h hnone hdir (Bool.eq_false_iff.2 hempty)
    obtain rfl := Option.some.inj (hF.symm.trans hF')
    cases (hnone.symm.trans (hsame path).symm).trans hleft

/-! ### When generation is atomic -/

/-- A rollback restores the tree exactly if it is restorable. -/
theorem restorable_iff (h : Accounted before s) :
    (∃ F, s.rollback = some F ∧ F.Same before) ↔ Restorable before s :=
  ⟨fun ⟨_, hF, hsame⟩ ↦ Restorable.of_rollback h hF hsame, fun hr ↦ hr.rollback h⟩

variable {fault : Fault} {granted : ℕ} {options : GeneratorOptions} {moduleDir : TreePath}
variable {files : List GeneratedFile} {wiring : List WiringPatch} {e : ScaffoldException}

/-- A run in which something is raised leaves the tree it began with exactly if what is raised is caught and the
tree is restorable when it is raised, or if it is not caught and the tree is still the same. -/
theorem generation_is_atomic
    (hguard : (before.node moduleDir).isSome = true → options.force = true)
    (hraised : (ScaffoldRun.start granted before).generate fault options files wiring =
      .error (e, s)) :
    (createModule fault granted options moduleDir files wiring before).tree.Same before ↔
      if e.isCaught then Restorable before s else s.tree.Same before := by
  have haccounted := accounted_of_generate hraised
  have hrun : createModule fault granted options moduleDir files wiring before =
      afterGenerate (.error (e, s)) := by
    rw [createModule, hraised, if_neg]
    simpa using hguard
  rw [hrun, afterGenerate]
  split
  · obtain ⟨F, hF, -⟩ := exists_undoAll (P := fun _ _ ↦ True) haccounted.allUndoable trivial
      fun _ _ _ _ _ _ _ ↦ trivial
    have hF : s.rollback = some F := hF
    rw [← restorable_iff haccounted, hF]
    exact ⟨fun hsame ↦ ⟨F, rfl, hsame⟩, fun ⟨_, heq, hsame⟩ ↦ Option.some.inj heq ▸ hsame⟩
  · exact Iff.rfl

/-- A directory with one file in it. -/
def plainTree (bytes : ByteArray) : RepoTree where
  entries := [([], .dir), (["backend"], .dir), (["registry.py", "backend"], .file bytes)]
  root := rfl
  closed := by
    intro name path h
    obtain ⟨e, he, heq⟩ := FileTree.lookup_isSome_iff.1 h
    simp only [List.mem_cons, List.not_mem_nil, or_false] at he
    obtain rfl | rfl | rfl := he
    · exact nomatch heq
    · obtain ⟨-, rfl⟩ := List.cons.inj heq
      rfl
    · obtain ⟨-, rfl⟩ := List.cons.inj heq
      rfl

/-- The one file of a module. -/
def shopFiles : List GeneratedFile := [⟨["manifest.py", "shop", "backend"], "SHOP\n".toList⟩]

/-- A registry that is rewritten, and then one whose marks are missing. -/
def shopWiring : List WiringPatch :=
  [fun _ ↦ .ok (some (["registry.py", "backend"], "a\nb\n".toList)), fun _ ↦ .error .wiringError]

def plainFault : Fault := ⟨.osError, id⟩

/-- The run of these files and patches, when it is raised. -/
def shopRun (bytes : ByteArray) : ScaffoldRun :=
  match (ScaffoldRun.start 20 (plainTree bytes)).generate plainFault ⟨true, false⟩ shopFiles
    shopWiring with
  | .ok s => s
  | .error (_, s) => s

def oldRegistry : ByteArray := encodeText "a\n".toList

theorem raised_shopRun : (ScaffoldRun.start 20 (plainTree oldRegistry)).generate plainFault
    ⟨true, false⟩ shopFiles shopWiring = .error (.wiringError, shopRun oldRegistry) := rfl

theorem restorable_shopRun : Restorable (plainTree oldRegistry) (shopRun oldRegistry) where
  plain := by
    intro path hseen bytes x hfile hdecode
    have hpath : path ∈ [["manifest.py", "shop", "backend"], ["registry.py", "backend"]] := hseen
    simp only [List.mem_cons, List.not_mem_nil, or_false] at hpath
    obtain rfl | rfl := hpath
    · have hnone : (plainTree oldRegistry).node ["manifest.py", "shop", "backend"] = none := rfl
      exact nomatch hnone.symm.trans hfile
    · have hold : some (FileNode.file oldRegistry) = some (.file bytes) := hfile
      obtain rfl : oldRegistry = bytes := by simpa using hold
      have htext : decodeText oldRegistry = some "a\n".toList := by decide +kernel
      obtain rfl := Option.some.inj (htext.symm.trans hdecode)
      decide
  inUse := by
    intro path hroot hdir _
    obtain ⟨e, he, rfl⟩ := FileTree.lookup_isSome_iff.1 (show ((plainTree oldRegistry).node path).isSome
      by rw [hdir]; rfl)
    have hall : ∀ e ∈ (plainTree oldRegistry).entries, (plainTree oldRegistry).node e.1 = some .dir →
        (plainTree oldRegistry).hasChild e.1 = true := by decide +kernel
    exact hall e he hdir
  held := by
    intro path _ hdir
    obtain ⟨e, he, rfl⟩ := FileTree.lookup_isSome_iff.1 (show ((shopRun oldRegistry).tree.node path).isSome
      by rw [hdir]; rfl)
    have hall : ∀ e ∈ (shopRun oldRegistry).tree.entries,
        (shopRun oldRegistry).tree.node e.1 = some .dir →
        (shopRun oldRegistry).tree.hasChild e.1 = true := by decide +kernel
    exact hall e he hdir

/-- A file has been made and the registry patched when the second patch fails. -/
theorem generation_is_atomic_shop :
    (createModule plainFault 20 ⟨true, false⟩ ["shop", "backend"] shopFiles shopWiring
      (plainTree oldRegistry)).tree.Same (plainTree oldRegistry) :=
  (generation_is_atomic (by decide +kernel) raised_shopRun).2 restorable_shopRun

/-- The same registry with a carriage return before the newline. -/
theorem carriage_return_is_lost :
    ¬(createModule plainFault 20 ⟨true, false⟩ ["shop", "backend"] shopFiles shopWiring
      (plainTree (encodeText "a\r\n".toList))).tree.Same (plainTree (encodeText "a\r\n".toList)) := by
  intro hsame
  have hregistry := hsame ["registry.py", "backend"]
  revert hregistry
  decide +kernel

end GenericApp
