import GenericApp.Foundation.FileTree
import GenericApp.Foundation.Text

/-!
# The mutation journal of the scaffolding

Every file that the scaffolding writes is written through a journal, which notes before the first write to a path
whether there was a file and what its text was. `rollback` goes through these notes backwards: it writes the old
texts back, and removes the files that were not there before, together with the directories that are empty then.

What is noted is the text as it is read, not the bytes: `encodeText_universalNewlines_iff` says which bytes come
back.

A run asks the operating system for one effect after the other, and may be refused any of them: `granted` is how
many it is still granted. A write that is refused after the file has been opened leaves what `Fault.torn` makes of
the contents.
-/

namespace GenericApp

open Py

/-- A path, its innermost name first. -/
abbrev TreePath := List String

abbrev RepoTree := FileTree String ByteArray

/-! ### Texts in files -/

/-- `read_text(encoding="utf-8")` of a file, with no value for a `UnicodeDecodeError`. -/
def readText (bytes : ByteArray) : Option Text := (decodeText bytes).map universalNewlines

/-- What has been read is written back as it was exactly if there is no carriage return in it. -/
theorem encodeText_universalNewlines_iff {bytes : ByteArray} {x : Text} (h : decodeText bytes = some x) :
    encodeText (universalNewlines x) = bytes ↔ '\r' ∉ x := by
  rw [← encodeText_of_decodeText h, ← universalNewlines_eq_self_iff]
  exact ⟨encodeText_injective, congrArg encodeText⟩

/-! ### The journal -/

/-- What kind of exception a run ends with. -/
inductive ScaffoldException
  | wiringError
  | osError
  | valueError
  | other
deriving DecidableEq

/-- What is noted about a path before it is first written. -/
structure JournalEntry where
  path : TreePath
  existed : Bool
  previous : Option Text
deriving DecidableEq

/-- A run of the scaffolding: what is on disk, the journal, and how many effects it is still granted. -/
structure ScaffoldRun where
  tree : RepoTree
  journal : List JournalEntry
  granted : ℕ

/-- What is raised where an effect is refused, and what a write that is refused half way leaves in the file. -/
structure Fault where
  raises : ScaffoldException
  torn : ByteArray → ByteArray

/-- The run goes on, or something is raised in it. -/
abbrev ScaffoldStep := Except (ScaffoldException × ScaffoldRun) ScaffoldRun

namespace ScaffoldRun

variable (fault : Fault)

/-- The paths in the journal. -/
def seen (s : ScaffoldRun) : List TreePath := s.journal.map JournalEntry.path

/-- One effect of the operating system. -/
def effect (s : ScaffoldRun) : ScaffoldStep :=
  match s.granted with
  | 0 => .error (fault.raises, s)
  | granted + 1 => .ok { s with granted }

/-- A change of the tree, with an `OSError` where it is not allowed. -/
def change (s : ScaffoldRun) (tree : Option RepoTree) : ScaffoldStep :=
  match tree with
  | none => .error (.osError, s)
  | some tree => .ok { s with tree }

/-- `path.mkdir(parents=True, exist_ok=True)` -/
def makeParents (s : ScaffoldRun) : TreePath → ScaffoldStep
  | [] => .ok s
  | name :: parent =>
    match s.tree.node (name :: parent) with
    | some .dir => .ok s
    | some (.file _) => .error (.osError, s)
    | none => do
      let s ← s.makeParents parent
      let s ← s.effect fault
      s.change (s.tree.mkdir (name :: parent))

/-- `journal.record(path)` -/
def record (s : ScaffoldRun) (path : TreePath) : ScaffoldStep :=
  if path ∈ s.seen then .ok s
  else do
    let s ← s.effect fault
    match s.tree.node path with
    | none => .ok { s with journal := s.journal ++ [⟨path, false, none⟩] }
    | some .dir => .error (.osError, s)
    | some (.file bytes) =>
      match readText bytes with
      | none => .error (.valueError, s)
      | some text => .ok { s with journal := s.journal ++ [⟨path, true, some text⟩] }

/-- `path.write_text(content)`: the file is opened, which empties it, and then written. -/
def writePath (s : ScaffoldRun) (path : TreePath) (content : Text) : ScaffoldStep := do
  let s ← s.effect fault
  let s ← s.change (s.tree.write path ByteArray.empty)
  if s.granted = 0 then
    let s ← s.change (s.tree.write path (fault.torn (encodeText content)))
    .error (fault.raises, s)
  else
    let s ← s.effect fault
    s.change (s.tree.write path (encodeText content))

/-- `journal.write_text(path, content)` -/
def writeText (s : ScaffoldRun) (path : TreePath) (content : Text) : ScaffoldStep := do
  let s ← s.makeParents fault path.tail
  let s ← s.record fault path
  s.writePath fault path content

end ScaffoldRun

/-! ### Rollback -/

/-- Takes back what was done at one path. -/
def JournalEntry.undo (entry : JournalEntry) (tree : RepoTree) : Option RepoTree :=
  if entry.existed then
    match tree.makeDirs entry.path.tail with
    | none => none
    | some tree => tree.write entry.path (encodeText (entry.previous.getD []))
  else
    match tree.node entry.path with
    | none => some tree
    | some _ => (tree.unlink entry.path).map fun tree ↦ tree.prune entry.path.tail

/-- Takes back what was done, entry by entry. -/
def undoAll : List JournalEntry → RepoTree → Option RepoTree
  | [], tree => some tree
  | entry :: entries, tree =>
    match entry.undo tree with
    | none => none
    | some tree => undoAll entries tree

/-- `journal.rollback()`, with no value where the operating system would refuse a step of it. -/
def ScaffoldRun.rollback (s : ScaffoldRun) : Option RepoTree := undoAll s.journal.reverse s.tree

end GenericApp
