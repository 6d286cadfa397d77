import Mathlib.Data.List.Nodup
import GenericApp.Scaffold.Journal

/-!
# Generating a module

The part of `create_module` that touches the repository: the rendered files are written one after the other,
those that are there already only where they may be overwritten, and then the registries are patched. What is
raised on the way is answered by a rollback if it is a `WiringError`, an `OSError` or a `ValueError`, and not
otherwise.

A patch reads the tree and then either raises something or asks for at most one file to be written. Nothing else
about the patches matters here, so that they are any functions of the tree.

`Settled` is what the journal knows of the tree while a run goes on, `Accounted` what is left of that when a write
has been interrupted: the journal holds the text of each file that was there, and what it does not name is as it
was, or is a new directory.
-/

namespace GenericApp

open Py

/-- A rendered file. -/
structure GeneratedFile where
  path : TreePath
  content : Text

structure GeneratorOptions where
  wire : Bool
  force : Bool

/-- A patch of a registry. -/
abbrev WiringPatch := RepoTree → Except ScaffoldException (Option (TreePath × Text))

namespace ScaffoldRun

variable (fault : Fault)

/-- Writes the files; one that exists is skipped unless `force` is on. -/
def writeFiles (force : Bool) : List GeneratedFile → ScaffoldRun → ScaffoldStep
  | [], s => .ok s
  | item :: files, s =>
    if (s.tree.node item.path).isSome && !force then writeFiles force files s
    else do
      let s ← s.writeText fault item.path item.content
      writeFiles force files s

/-- `apply_all_wiring`: one patch after the other. -/
def applyAllWiring : List WiringPatch → ScaffoldRun → ScaffoldStep
  | [], s => .ok s
  | patch :: patches, s =>
    match patch s.tree with
    | .error e => .error (e, s)
    | .ok none => applyAllWiring patches s
    | .ok (some (path, content)) => do
      let s ← s.writeText fault path content
      applyAllWiring patches s

/-- What `create_module` does under its `try`. -/
def generate (options : GeneratorOptions) (files : List GeneratedFile) (wiring : List WiringPatch)
    (s : ScaffoldRun) : ScaffoldStep := do
  let s ← writeFiles fault options.force files s
  if options.wire then applyAllWiring fault wiring s else .ok s

end ScaffoldRun

/-- `except (WiringError, OSError, ValueError)` -/
def ScaffoldException.isCaught : ScaffoldException → Bool
  | other => false
  | _ => true

/-- How `create_module` ends. -/
inductive GenerationOutcome
  | finished (tree : RepoTree)
  /-- The `RuntimeError` that says that the generation was rolled back. -/
  | rolledBack (tree : RepoTree)
  | raised (exception : ScaffoldException) (tree : RepoTree)

/-- The tree that is left. -/
def GenerationOutcome.tree : GenerationOutcome → RepoTree
  | finished tree => tree
  | rolledBack tree => tree
  | raised _ tree => tree

/-- A run that begins, with an empty journal. -/
def ScaffoldRun.start (granted : ℕ) (tree : RepoTree) : ScaffoldRun := ⟨tree, [], granted⟩

/-- What becomes of the run under the `try`. -/
def afterGenerate : ScaffoldStep → GenerationOutcome
  | .ok s => .finished s.tree
  | .error (e, s) =>
    if e.isCaught then
      match s.rollback with
      | some tree => .rolledBack tree
      | none => .raised .osError s.tree
    else .raised e s.tree

/-- `create_module`, from where the files have been rendered. -/
def createModule (fault : Fault) (granted : ℕ) (options : GeneratorOptions) (moduleDir : TreePath)
    (files : List GeneratedFile) (wiring : List WiringPatch) (tree : RepoTree) : GenerationOutcome :=
  if (tree.node moduleDir).isSome && !options.force then .raised .osError tree
  else afterGenerate ((ScaffoldRun.start granted tree).generate fault options files wiring)

/-! ### What holds however a step ends -/

/-- `P` holds where the run goes on, and `Q` where something is raised. -/
def ScaffoldStep.Ends (P Q : ScaffoldRun → Prop) : ScaffoldStep → Prop
  | .ok s => P s
  | .error (_, s) => Q s

namespace ScaffoldStep.Ends

variable {P P' Q : ScaffoldRun → Prop} {x : ScaffoldStep} {f : ScaffoldRun → ScaffoldStep}

theorem bind (hx : Ends P Q x) (hf : ∀ s, P s → Ends P' Q (f s)) : Ends P' Q (x >>= f) := by
  match x with
  | .ok s => exact hf s hx
  | .error _ => exact hx

theorem mono (hx : Ends P Q x) (hP : ∀ s, P s → P' s) : Ends P' Q x := by
  match x with
  | .ok s => exact hP s hx
  | .error _ => exact hx

end ScaffoldStep.Ends

/-! ### What the journal knows -/

/-- The journal against the tree before the run. -/
structure Accounted (before : RepoTree) (s : ScaffoldRun) : Prop where
  nodup : s.seen.Nodup
  /-- The text of a file that was there is noted, and there is still a file. -/
  existed : ∀ entry ∈ s.journal, entry.existed = true → ∃ bytes text content,
    before.node entry.path = some (.file bytes) ∧ readText bytes = some text ∧
      entry.previous = some text ∧ s.tree.node entry.path = some (.file content)
  /-- Where nothing was, there is nothing or a file. -/
  created : ∀ entry ∈ s.journal, entry.existed = false →
    before.node entry.path = none ∧ s.tree.node entry.path ≠ some .dir
  /-- Elsewhere there is what there was, or a new directory. -/
  elsewhere : ∀ path ∉ s.seen, s.tree.node path = before.node path ∨
    before.node path = none ∧ s.tree.node path = some .dir

/-- While the run goes on there is a file at each path of the journal, except perhaps at those in `but`. -/
structure Settled (before : RepoTree) (but : List TreePath) (s : ScaffoldRun) : Prop
    extends Accounted before s where
  written : ∀ path ∈ s.seen, path ∉ but → (s.tree.node path).isSome

variable {before tree : RepoTree} {s : ScaffoldRun} {but : List TreePath} {path : TreePath}
variable {fault : Fault}

theorem Settled.effect (h : Settled before but s) : (s.effect fault).Ends
    (fun s' ↦ Settled before but s' ∧ s'.seen = s.seen) (Accounted before) := by
  rw [ScaffoldRun.effect]
  split
  · exact h.toAccounted
  · exact ⟨⟨⟨h.nodup, h.existed, h.created, h.elsewhere⟩, h.written⟩, rfl⟩

/-- A change of the tree is made or refused. -/
theorem ends_change {P Q : ScaffoldRun → Prop} {tree : Option RepoTree} (hrefused : Q s)
    (hmade : ∀ tree', tree = some tree' → P { s with tree := tree' }) : (s.change tree).Ends P Q := by
  match tree with
  | none => exact hrefused
  | some tree' => exact hmade tree' rfl

/-- A directory is made where nothing was and nothing is noted. -/
theorem Settled.mkdir (h : Settled before [] s) (hmade : s.tree.mkdir path = some tree) :
    Settled before [] { s with tree } := by
  obtain ⟨hnone, hnode⟩ := FileTree.mkdir_spec hmade
  have hpath : path ∉ s.seen := fun hseen ↦ by
    have hsome := h.written path hseen List.not_mem_nil
    rw [hnone] at hsome
    exact nomatch hsome
  have hother : ∀ q ∈ s.seen, tree.node q = s.tree.node q := by
    intro q hq
    rw [hnode, if_neg]
    rintro rfl
    exact hpath hq
  have hentry : ∀ entry ∈ s.journal, tree.node entry.path = s.tree.node entry.path :=
    fun entry hentry ↦ hother _ (List.mem_map_of_mem hentry)
  refine ⟨⟨h.nodup, fun entry hmem hexisted ↦ ?_, fun entry hmem hcreated ↦ ?_, fun q hq ↦ ?_⟩, ?_⟩
  · show ∃ _ _ _, _ ∧ _ ∧ _ ∧ tree.node entry.path = _
    rw [hentry entry hmem]
    exact h.existed entry hmem hexisted
  · show _ ∧ tree.node entry.path ≠ _
    rw [hentry entry hmem]
    exact h.created entry hmem hcreated
  · show tree.node q = _ ∨ _ ∧ tree.node q = _
    rw [hnode]
    split
    · next heq =>
      subst heq
      -- nothing was there before the run either
      obtain hsame | ⟨-, hdir⟩ := h.elsewhere q hpath
      · exact .inr ⟨hsame.symm.trans hnone, rfl⟩
      · exact nomatch hnone.symm.trans hdir
    · exact h.elsewhere q hq
  · intro q hq hbut
    show (tree.node q).isSome
    rw [hother q hq]
    exact h.written q hq hbut

/-- A file is written whose path is noted. -/
theorem Settled.write {bytes : ByteArray} (h : Settled before but s) (hseen : path ∈ s.seen)
    (hmade : s.tree.write path bytes = some tree) :
    Settled before (but.filter (· ≠ path)) { s with tree } := by
  obtain ⟨hdir, hnode⟩ := FileTree.write_spec hmade
  refine ⟨⟨h.nodup, fun entry hmem hexisted ↦ ?_, fun entry hmem hcreated ↦ ?_, fun q hq ↦ ?_⟩, ?_⟩
  · obtain ⟨bytes', text, content, hbefore, hread, hprevious, hcontent⟩ :=
      h.existed entry hmem hexisted
    by_cases heq : entry.path = path
    · exact ⟨bytes', text, bytes, hbefore, hread, hprevious, (hnode _).trans (if_pos heq)⟩
    · exact ⟨bytes', text, content, hbefore, hread, hprevious,
        ((hnode _).trans (if_neg heq)).trans hcontent⟩
  · obtain ⟨hbefore, hnot⟩ := h.created entry hmem hcreated
    refine ⟨hbefore, ?_⟩
    show tree.node entry.path ≠ some .dir
    rw [hnode]
    split
    · exact (nomatch ·)
    · exact hnot
  · have hne : q ≠ path := by
      rintro rfl
      exact hq hseen
    show tree.node q = _ ∨ _ ∧ tree.node q = _
    rw [hnode, if_neg hne]
    exact h.elsewhere q hq
  · intro q hq hbut
    show (tree.node q).isSome
    rw [hnode]
    split
    · rfl
    · next hne =>
      exact h.written q hq fun hmem ↦ hbut (List.mem_filter.2 ⟨hmem, by simpa using hne⟩)

theorem Settled.makeParents (h : Settled before [] s) :
    (s.makeParents fault path).Ends (Settled before []) (Accounted before) := by
  induction path generalizing s with
  | nil => exact h
  | cons name parent ih =>
    rw [ScaffoldRun.makeParents]
    split
    · exact h
    · exact h.toAccounted
    · refine (ih h).bind fun s h ↦ h.effect.bind fun s h ↦ ?_
      exact ends_change h.1.toAccounted fun tree hmade ↦ h.1.mkdir hmade

/-- What is noted about a path is what was there before the run. -/
theorem Settled.note (h : Settled before [] s) (hnew : path ∉ s.seen) {entry : JournalEntry}
    (hpath : entry.path = path)
    (hexisted : entry.existed = true → ∃ bytes text, s.tree.node path = some (.file bytes) ∧
      readText bytes = some text ∧ entry.previous = some text)
    (hcreated : entry.existed = false → s.tree.node path = none) :
    Settled before [path] { s with journal := s.journal ++ [entry] } := by
  have hseen : ({ s with journal := s.journal ++ [entry] } : ScaffoldRun).seen = s.seen ++ [path] := by
    simp [ScaffoldRun.seen, hpath]
  have hsame : ∀ bytes, s.tree.node path = some (.file bytes) →
      before.node path = some (.file bytes) := by
    intro bytes hfile
    obtain hsame | ⟨-, hdir⟩ := h.elsewhere path hnew
    · rw [← hsame, hfile]
    · exact nomatch hfile.symm.trans hdir
  refine ⟨⟨?_, fun e hmem he ↦ ?_, fun e hmem he ↦ ?_, fun q hq ↦ h.elsewhere q fun hmem ↦ hq ?_⟩, ?_⟩
  · rw [hseen]
    exact h.nodup.append (List.nodup_singleton _) (List.disjoint_singleton.2 hnew)
  · obtain hmem | hmem := List.mem_append.1 hmem
    · exact h.existed e hmem he
    · obtain rfl := List.mem_singleton.1 hmem
      obtain ⟨bytes, text, hfile, hread, hprevious⟩ := hexisted he
      exact ⟨bytes, text, bytes, hpath ▸ hsame bytes hfile, hread, hprevious, hpath ▸ hfile⟩
  · obtain hmem | hmem := List.mem_append.1 hmem
    · exact h.created e hmem he
    · obtain rfl := List.mem_singleton.1 hmem
      have hnone := hcreated he
      refine ⟨?_, ?_⟩
      · obtain hsame | ⟨hbefore, -⟩ := h.elsewhere path hnew
        · rw [hpath, ← hsame, hnone]
        · rw [hpath, hbefore]
      · show s.tree.node e.path ≠ some .dir
        rw [hpath, hnone]
        exact (nomatch ·)
  · rw [hseen]
    exact List.mem_append_left _ hmem
  · intro q hq hne
    rw [hseen] at hq
    exact h.written q ((List.mem_append.1 hq).resolve_right hne) List.not_mem_nil

/-- A path that is not in the journal is noted. -/
theorem Settled.record (h : Settled before [] s) : (s.record fault path).Ends
    (fun s ↦ Settled before [path] s ∧ path ∈ s.seen) (Accounted before) := by
  rw [ScaffoldRun.record]
  split
  · next hseen => exact ⟨⟨h.toAccounted, fun q hq _ ↦ h.written q hq List.not_mem_nil⟩, hseen⟩
  · next hnew =>
    refine h.effect.bind fun s' ⟨h, hsame⟩ ↦ ?_
    rw [← hsame] at hnew
    have hmem (entry : JournalEntry) (hpath : entry.path = path) :
        path ∈ ({ s' with journal := s'.journal ++ [entry] } : ScaffoldRun).seen := by
      simp [ScaffoldRun.seen, hpath]
    match hnode : s'.tree.node path with
    | none => exact ⟨h.note hnew rfl (nomatch ·) fun _ ↦ hnode, hmem _ rfl⟩
    | some .dir => exact h.toAccounted
    | some (.file bytes) =>
      match hread : readText bytes with
      | none =>
        simp only [hread]
        exact h.toAccounted
      | some text =>
        simp only [hread]
        exact ⟨h.note hnew rfl (fun _ ↦ ⟨bytes, text, hnode, hread, rfl⟩) (nomatch ·), hmem _ rfl⟩

/-- The file is there afterwards. -/
theorem Settled.writePath {content : Text} (h : Settled before [path] s) (hseen : path ∈ s.seen) :
    (s.writePath fault path content).Ends (Settled before []) (Accounted before) := by
  have hfilter : [path].filter (· ≠ path) = [] := by simp
  refine h.effect.bind fun s ⟨h, hsame⟩ ↦ ?_
  rw [← hsame] at hseen
  have hopened : (s.change (s.tree.write path ByteArray.empty)).Ends
      (fun s ↦ Settled before [] s ∧ path ∈ s.seen) (Accounted before) :=
    ends_change h.toAccounted fun tree hmade ↦ ⟨hfilter ▸ h.write hseen hmade, hseen⟩
  refine hopened.bind fun s ⟨h, hseen⟩ ↦ ?_
  split
  · -- the contents are torn
    have htorn : (s.change (s.tree.write path (fault.torn (encodeText content)))).Ends
        (Settled before []) (Accounted before) :=
      ends_change h.toAccounted fun tree hmade ↦ h.write hseen hmade
    exact htorn.bind fun _ h ↦ h.toAccounted
  · refine h.effect.bind fun s ⟨h, hsame⟩ ↦ ?_
    rw [← hsame] at hseen
    exact ends_change h.toAccounted fun tree hmade ↦ h.write hseen hmade

theorem Settled.writeText {content : Text} (h : Settled before [] s) :
    (s.writeText fault path content).Ends (Settled before []) (Accounted before) :=
  h.makeParents.bind fun _ h ↦ h.record.bind fun _ h ↦ h.1.writePath h.2

/-! ### What holds of a whole run -/

theorem Settled.writeFiles {force : Bool} {files : List GeneratedFile} (h : Settled before [] s) :
    (ScaffoldRun.writeFiles fault force files s).Ends (Settled before []) (Accounted before) := by
  induction files generalizing s with
  | nil => exact h
  | cons item files ih =>
    rw [ScaffoldRun.writeFiles]
    split
    · exact ih h
    · exact h.writeText.bind fun _ h ↦ ih h

theorem Settled.applyAllWiring {wiring : List WiringPatch} (h : Settled before [] s) :
    (ScaffoldRun.applyAllWiring fault wiring s).Ends (Settled before []) (Accounted before) := by
  induction wiring generalizing s with
  | nil => exact h
  | cons patch wiring ih =>
    rw [ScaffoldRun.applyAllWiring]
    split
    · exact h.toAccounted
    · exact ih h
    · exact h.writeText.bind fun _ h ↦ ih h

theorem settled_start (granted : ℕ) (before : RepoTree) :
    Settled before [] (ScaffoldRun.start granted before) where
  nodup := List.nodup_nil
  existed := fun _ h ↦ absurd h List.not_mem_nil
  created := fun _ h ↦ absurd h List.not_mem_nil
  elsewhere := fun _ _ ↦ .inl rfl
  written := fun _ h ↦ absurd h List.not_mem_nil

/-- Whenever something is raised, the journal accounts for the tree. -/
theorem accounted_of_generate {options : GeneratorOptions} {files : List GeneratedFile}
    {wiring : List WiringPatch} {granted : ℕ} {e : ScaffoldException}
    (h : (ScaffoldRun.start granted before).generate fault options files wiring = .error (e, s)) :
    Accounted before s := by
  have hends : ((ScaffoldRun.start granted before).generate fault options files wiring).Ends
      (Settled before []) (Accounted before) := by
    refine (settled_start granted before).writeFiles.bind fun s h ↦ ?_
    split
    · exact h.applyAllWiring
    · exact h
  rw [h] at hends
  exact hends

end GenericApp
