import GenericApp.Scaffold.CreateModule

/-!
# What a rollback does

One entry of the journal after the other is taken back. `Undone` is the whole effect of one of them: elsewhere
than on the way to its path nothing changes, files stay, nothing is made except at the path itself, and a
directory on the way to a file that is removed stays only if there is something in it.

A rollback is never refused (`exists_undoAll`): where a file was, there still is one, and where none was, there is
no directory.
-/

namespace GenericApp

open Py

variable {before T U F : RepoTree} {s : ScaffoldRun} {entry : JournalEntry} {path : TreePath}
variable {journal : List JournalEntry}

/-- What can be taken back: there is a file where one was, and no directory where nothing was. -/
def JournalEntry.Undoable (entry : JournalEntry) (T : RepoTree) : Prop :=
  if entry.existed then ∃ content, T.node entry.path = some (.file content)
  else T.node entry.path ≠ some .dir

/-- What is at the path of an entry that has been taken back. -/
def JournalEntry.restored (entry : JournalEntry) : Option (FileNode ByteArray) :=
  if entry.existed then some (.file (encodeText (entry.previous.getD []))) else none

/-- The effect of taking one entry back. -/
structure Undone (entry : JournalEntry) (T U : RepoTree) : Prop where
  restored : U.node entry.path = entry.restored
  /-- Where a file was, or nothing is now, nothing else changes. -/
  only : entry.existed = true ∨ T.node entry.path = none →
    ∀ path, path ≠ entry.path → U.node path = T.node path
  elsewhere : ∀ path, ¬path <:+ entry.path → U.node path = T.node path
  /-- Nothing is made. -/
  old : ∀ path, path ≠ entry.path → (U.node path).isSome → U.node path = T.node path
  files : ∀ path content, path ≠ entry.path → T.node path = some (.file content) →
    U.node path = some (.file content)
  /-- Where a file is removed, the directories on the way that stay have something in them. -/
  pruned : entry.existed = false → (T.node entry.path).isSome → ∀ path, path <:+ entry.path →
    path ≠ entry.path → path ≠ [] → (U.node path).isSome → U.hasChild path = true

/-- An entry that only changes what is at its path. -/
theorem undone_of_only (hrestored : U.node entry.path = entry.restored)
    (hcase : entry.existed = true ∨ T.node entry.path = none)
    (honly : ∀ path, path ≠ entry.path → U.node path = T.node path) : Undone entry T U where
  restored := hrestored
  only := fun _ ↦ honly
  elsewhere := by
    intro path hpath
    refine honly path ?_
    rintro rfl
    exact hpath List.suffix_rfl
  old := fun path hne _ ↦ honly path hne
  files := fun path content hne hfile ↦ (honly path hne).trans hfile
  pruned := by
    intro hcreated hsome
    obtain hexisted | hnone := hcase
    · exact absurd (hcreated.symm.trans hexisted) Bool.false_ne_true
    · rw [hnone] at hsome
      exact nomatch hsome

/-- Removing a file, and the directories that are empty then. -/
theorem undone_of_unlink {V : RepoTree} {content : ByteArray} (hcreated : ¬entry.existed = true)
    (hfile : T.node entry.path = some (.file content))
    (hV : ∀ q, V.node q = if q = entry.path then none else T.node q) :
    Undone entry T (V.prune entry.path.tail) := by
  obtain ⟨path, existed, previous⟩ := entry
  match path with
  | [] => exact nomatch FileTree.node_root.symm.trans hfile
  | name :: parent =>
    have hsome : (T.node (name :: parent)).isSome := by
      rw [hfile]
      rfl
    have hparent : V.node parent = some .dir := by
      rw [hV, if_neg (List.cons_ne_self name parent).symm]
      exact FileTree.node_parent hsome
    have hlong : ¬name :: parent <:+ parent := fun h ↦ by
      have hle := h.length_le
      rw [List.length_cons] at hle
      omega
    refine ⟨?_, ?_, fun path hpath ↦ ?_, fun path hne hleft ↦ ?_, fun path c hne hc ↦ ?_, ?_⟩
    · rw [JournalEntry.restored, if_neg hcreated]
      exact (FileTree.node_prune_of_not_suffix hlong).trans ((hV _).trans (if_pos rfl))
    · rintro (hexisted | hnone)
      · exact absurd hexisted hcreated
      · exact nomatch hnone.symm.trans hfile
    · obtain ⟨hne, hsuffix⟩ := not_or.1 (mt List.suffix_cons_iff.2 hpath)
      exact (FileTree.node_prune_of_not_suffix hsuffix).trans ((hV _).trans (if_neg hne))
    · exact (FileTree.node_prune_of_isSome hleft).trans ((hV _).trans (if_neg hne))
    · exact FileTree.node_prune_of_file hparent (((hV _).trans (if_neg hne)).trans hc)
    · intro _ _ path hsuffix hne hroot hleft
      exact FileTree.hasChild_prune hparent ((List.suffix_cons_iff.1 hsuffix).resolve_left hne) hroot
        hleft

/-- An entry that can be taken back is. -/
theorem exists_undone (h : entry.Undoable T) : ∃ U, entry.undo T = some U ∧ Undone entry T U := by
  rw [JournalEntry.Undoable] at h
  rw [JournalEntry.undo]
  split at h
  · next hexisted =>
    obtain ⟨content, hfile⟩ := h
    have hparent : T.node entry.path.tail = some .dir := by
      match hpath : entry.path with
      | [] => exact FileTree.node_root
      | name :: parent =>
        rw [hpath] at hfile
        have hsome : (T.node (name :: parent)).isSome := by rw [hfile]; rfl
        exact FileTree.node_parent hsome
    obtain ⟨U, hwrite⟩ := FileTree.write_of_file hfile (encodeText (entry.previous.getD []))
    obtain ⟨-, hnode⟩ := FileTree.write_spec hwrite
    refine ⟨U, ?_, undone_of_only ?_ (.inl hexisted) fun path hne ↦ by rw [hnode, if_neg hne]⟩
    · rw [if_pos hexisted, FileTree.makeDirs_of_dir hparent]
      exact hwrite
    · rw [hnode, if_pos rfl, JournalEntry.restored, if_pos hexisted]
  · next hcreated =>
    rw [if_neg hcreated]
    have hrestored : entry.restored = none := if_neg hcreated
    match hnode : T.node entry.path with
    | none => exact ⟨T, rfl, undone_of_only (hnode.trans hrestored.symm) (.inr hnode) fun _ _ ↦ rfl⟩
    | some .dir => exact absurd hnode h
    | some (.file content) =>
      obtain ⟨V, hunlink, hV⟩ := FileTree.unlink_of_file hnode
      exact ⟨V.prune entry.path.tail, by rw [hunlink]; rfl, undone_of_unlink hcreated hnode hV⟩

/-- What can be taken back still can after another entry has been. -/
theorem Undone.undoable {other : JournalEntry} (h : Undone entry T U) (hne : other.path ≠ entry.path)
    (hother : other.Undoable T) : other.Undoable U := by
  rw [JournalEntry.Undoable] at hother ⊢
  by_cases hexisted : other.existed = true
  · rw [if_pos hexisted] at hother ⊢
    obtain ⟨content, hfile⟩ := hother
    exact ⟨content, h.files _ content hne hfile⟩
  · rw [if_neg hexisted] at hother ⊢
    intro hdir
    rw [h.old _ hne (by rw [hdir]; rfl)] at hdir
    exact hother hdir

/-- Entries that can be taken back, no two of them at one path. -/
structure AllUndoable (journal : List JournalEntry) (T : RepoTree) : Prop where
  nodup : (journal.map JournalEntry.path).Nodup
  undoable : ∀ entry ∈ journal, entry.Undoable T

theorem AllUndoable.head_ne (h : AllUndoable (entry :: journal) T) :
    ∀ other ∈ journal, other.path ≠ entry.path := fun _ hother heq ↦
  (List.nodup_cons.1 h.nodup).1 (heq ▸ List.mem_map_of_mem hother)

theorem AllUndoable.tail (h : AllUndoable (entry :: journal) T) (hU : Undone entry T U) :
    AllUndoable journal U where
  nodup := (List.nodup_cons.1 h.nodup).2
  undoable := fun other hother ↦
    hU.undoable (h.head_ne other hother) (h.undoable other (List.mem_cons_of_mem entry hother))

/-- A property of the tree that holds before and that every entry keeps, holds after a rollback, which is not
refused. -/
theorem exists_undoAll {P : List JournalEntry → RepoTree → Prop} (h : AllUndoable journal T)
    (hT : P journal T) (hstep : ∀ entry journal T U, AllUndoable (entry :: journal) T →
      P (entry :: journal) T → Undone entry T U → P journal U) :
    ∃ F, undoAll journal T = some F ∧ P [] F := by
  induction journal generalizing T with
  | nil => exact ⟨T, rfl, hT⟩
  | cons entry journal ih =>
    obtain ⟨U, hundo, hU⟩ := exists_undone (h.undoable entry List.mem_cons_self)
    obtain ⟨F, hF, hP⟩ := ih (h.tail hU) (hstep entry journal T U h hT hU)
    refine ⟨F, ?_, hP⟩
    rw [undoAll, hundo]
    exact hF

/-- The journal of a run can be taken back. -/
theorem Accounted.allUndoable (h : Accounted before s) : AllUndoable s.journal.reverse s.tree where
  nodup := by
    rw [List.map_reverse]
    exact List.nodup_reverse.2 h.nodup
  undoable := by
    intro entry hentry
    rw [List.mem_reverse] at hentry
    rw [JournalEntry.Undoable]
    split
    · next hexisted =>
      obtain ⟨-, -, content, -, -, -, hfile⟩ := h.existed entry hentry hexisted
      exact ⟨content, hfile⟩
    · next hcreated => exact (h.created entry hentry (Bool.eq_false_iff.2 hcreated)).2

end GenericApp
