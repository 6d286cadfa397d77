import GenericApp.Scaffold.Markers

/-!
# Wiring routers into the registry

What the scaffolding does to the registry of routers when a module is generated. The entries of the modules
stand in a marked block, six lines each. A call cuts the old entry of its module out, puts a new one at the end,
collects the entries that the block then holds, sorts them by key, and hands their lines to the helper for
marked blocks, which writes no line twice.

The last step is what the results of this module are about. The closing line of an entry is the same for every
module, so that a block of two modules has one closing line only, and what is collected at the next call are
not the entries that were written.
-/

namespace GenericApp

open Py

/-! ### Module keys -/

/-- What a module key is made of after its first character. -/
def isKeyChar (c : Char) : Bool := c.isLower || c.isDigit || c = '_'

/-- `^[a-z][a-z0-9_]*$`, of which the end is also found before a last newline. -/
def moduleKeyMatches : Text → Bool
  | [] => false
  | c :: cs => c.isLower && (cs.dropWhile isKeyChar = [] || cs.dropWhile isKeyChar = ['\n'])

/-- The names of a module, of which the registry needs the key. -/
structure ModuleNames where
  key : Text
  valid : moduleKeyMatches key = true
deriving DecidableEq

/-! ### Entries -/

/-- The lines that are generated for a module. -/
def contributionLines (key : Text) : List Text :=
  [ "    \"".toList ++ (key ++ "\": RouterContribution(".toList),
    "        key=\"".toList ++ (key ++ "\",".toList),
    "        import_path=\"backend.modules.".toList ++ (key ++ ".api.router\",".toList),
    "        prefix=\"/".toList ++ (key ++ "\",".toList),
    "        tags=(\"".toList ++ (key ++ "\",),".toList),
    "    ),".toList ]

/-- The entry of a module. -/
def contribution (key : Text) : Text := joinLines (contributionLines key)

/-- What the entry of a module begins with. -/
def entryOpening (key : Text) : Text :=
  "\n    \"".toList ++ (key ++ "\": RouterContribution(".toList)

/-- What an entry ends with. -/
def entryClosing : Text := "\n    ),".toList

/-- The block without the first entry of a module. -/
def removeEntry (key body : Text) : Text :=
  match between (entryOpening key) entryClosing body with
  | none => body
  | some found => found.before ++ '\n' :: found.after

/-- The entry, of whatever key, that a text begins with. -/
def matchEntry (x : Text) : Option Text :=
  let quoted := x.drop "    \"".toList.length
  let key := quoted.takeWhile (· ≠ '"')
  let rest := quoted.dropWhile (· ≠ '"')
  if "    \"".toList <+: x ∧ key ≠ [] ∧ "\": RouterContribution(".toList <+: rest then
    match cutAt entryClosing (rest.drop "\": RouterContribution(".toList.length) with
    | none => none
    | some (inner, _) =>
      some ("    \"".toList ++ (key ++ ("\": RouterContribution(".toList ++ (inner ++ entryClosing))))
  else none

/-- The entries of a text from left to right, of which the next `skip` characters are used up. -/
def entriesFrom : ℕ → Text → List Text
  | _, [] => []
  | skip + 1, _ :: cs => entriesFrom skip cs
  | 0, c :: cs =>
    match matchEntry (c :: cs) with
    | none => entriesFrom 0 cs
    | some entry => entry :: entriesFrom (entry.length - 1) cs

/-- `chunk.split('"', 2)[1]` -/
def sortKey (chunk : Text) : Text := ((chunk.dropWhile (· ≠ '"')).drop 1).takeWhile (· ≠ '"')

/-! ### The call -/

structure WiringError where
  message : String
deriving DecidableEq

def routerOpening : Text := "# <generic-app:router-contributions>".toList

def routerClosing : Text := "# </generic-app:router-contributions>".toList

/-- `s.rstrip()` -/
def rstripText (x : Text) : Text := (x.reverse.dropWhile isSpace).reverse

/-- `s.strip("\n")` -/
def stripNewlines (x : Text) : Text := dropNewlines (x.dropWhile (· = '\n'))

/-- The block with the entry of a module at its end. -/
def withEntry (key body : Text) : Text :=
  let cleaned := joinLines (existingLines (removeEntry key body))
  if isBlank cleaned then '\n' :: (contribution key ++ ['\n'])
  else '\n' :: (rstripText cleaned ++ '\n' :: (contribution key ++ ['\n']))

/-- The lines of the entries, sorted by their keys. -/
def rebuiltLines (setOrder : List Text → List Text) (body : Text) : List Text :=
  let chunks := (setOrder (entriesFrom 0 body)).mergeSort fun a b ↦ sortKey a ≤ sortKey b
  let rebuilt := if chunks = [] then ['\n'] else '\n' :: (joinLines chunks ++ ['\n'])
  if isBlank rebuilt then [] else splitLines (stripNewlines rebuilt)

/-- Wires the router of a module into the registry file, of which `setOrder` lists the set of a list of
entries. What is returned beside the file is whether it was written. -/
def wireRouterContribution (setOrder : List Text → List Text) (names : ModuleNames) (file : Text) :
    Except WiringError (Text × Bool) :=
  let text := universalNewlines file
  match between routerOpening routerClosing text with
  | none => .error ⟨"Missing router contribution markers"⟩
  | some found =>
    let lines := rebuiltLines setOrder (withEntry names.key found.body)
    match upsertMarkedBlock routerOpening routerClosing lines false text with
    | .error e => .error ⟨e.message⟩
    | .ok (newText, changed) => .ok (if changed then newText else file, changed)

/-- A sequence of calls. -/
def wireAll (setOrder : List Text → List Text) : List ModuleNames → Text → Except WiringError Text
  | [], file => .ok file
  | names :: calls, file =>
    match wireRouterContribution setOrder names file with
    | .error e => .error e
    | .ok (file, _) => wireAll setOrder calls file

end GenericApp
